import CallSiteIds.Path
import CallSiteIds.Text.Quoted
import CallSiteIds.Text.Utf8

/-!
# File trees

A file tree is a value: which places hold files, with their bytes, and which hold directories.
The top is always a directory.  Looking at a place and changing what it holds are pure
functions, and every operation that can fail says why.  Changing one place shows at that place
(`get?_put_self`) and at no other (`get?_put_ne`).
-/

set_option autoImplicit false

namespace CallSiteIds

/-- What a place holds. -/
inductive Entry where
  | directory
  | file (bytes : List UInt8)
deriving DecidableEq, Repr

/-- Why an operation on files fails. -/
inductive FileError where
  | notFound
  | alreadyExists
  | notADirectory
  | isADirectory
  | nameTooLong
  | nullCharacter
deriving DecidableEq, Repr

/-- The wording of a failed operation on the file at a path. -/
def FileError.message (path : String) : FileError → String
  | .notFound => "[Errno 2] No such file or directory: " ++ Text.quoted path
  | .alreadyExists => "[Errno 17] File exists: " ++ Text.quoted path
  | .notADirectory => "[Errno 20] Not a directory: " ++ Text.quoted path
  | .isADirectory => "[Errno 21] Is a directory: " ++ Text.quoted path
  | .nameTooLong => "[Errno 36] File name too long: " ++ Text.quoted path
  | .nullCharacter => "embedded null byte"

/-- Sets what a place holds in a list of entries. -/
def putEntry (place : Place) (entry : Entry) : List (Place × Entry) → List (Place × Entry)
  | [] => [(place, entry)]
  | (p, e) :: rest =>
    if p = place then (place, entry) :: rest else (p, e) :: putEntry place entry rest

/-- What a place holds in a list of entries. -/
def findAt? (place : Place) : List (Place × Entry) → Option Entry
  | [] => none
  | (p, e) :: rest => if p = place then some e else findAt? place rest

theorem mem_map_fst_putEntry {place other : Place} {entry : Entry}
    {entries : List (Place × Entry)} :
    other ∈ (putEntry place entry entries).map Prod.fst ↔
      other = place ∨ other ∈ entries.map Prod.fst := by
  induction entries with
  | nil => simp [putEntry]
  | cons x rest ih =>
    obtain ⟨p, e⟩ := x
    rw [putEntry]
    split
    · rename_i h
      simp [h]
    · simp only [List.map_cons, List.mem_cons, ih]
      exact or_left_comm

theorem nodup_putEntry {entries : List (Place × Entry)} (h : (entries.map Prod.fst).Nodup)
    (place : Place) (entry : Entry) : ((putEntry place entry entries).map Prod.fst).Nodup := by
  induction entries with
  | nil => simp [putEntry]
  | cons x rest ih =>
    obtain ⟨p, e⟩ := x
    simp only [List.map_cons, List.nodup_cons] at h
    rw [putEntry]
    split
    · rename_i hp
      simpa [hp ▸ h.1] using h.2
    · rename_i hp
      simp only [List.map_cons, List.nodup_cons, mem_map_fst_putEntry, not_or]
      exact ⟨⟨hp, h.1⟩, ih h.2⟩

/-- A file tree: what each place below the top holds, each place once. -/
structure FileTree where
  entries : List (Place × Entry)
  nodup : (entries.map Prod.fst).Nodup

namespace FileTree

/-- The tree with nothing below the top. -/
def empty : FileTree :=
  ⟨[], List.nodup_nil⟩

/-- What a place holds. -/
def get? (t : FileTree) (place : Place) : Option Entry :=
  if place = [] then some .directory else findAt? place t.entries

/-- Sets what a place holds. -/
def put (t : FileTree) (place : Place) (entry : Entry) : FileTree :=
  ⟨putEntry place entry t.entries, nodup_putEntry t.nodup place entry⟩

/-- Removes what a place holds, and all below it. -/
def erase (t : FileTree) (place : Place) : FileTree :=
  ⟨t.entries.filter fun e => !place.isPrefixOf e.1,
    t.nodup.sublist (List.filter_sublist.map _)⟩

/-! ## Reaching a place -/

/-- The greatest number of bytes in a name. -/
def nameLimit : Nat := 255

/-- Goes from a place along parts of a path.  All but the last place on the way must be
directories; the last one may hold anything or nothing. -/
def reachFrom (t : FileTree) : Place → List String → Except FileError Place
  | here, [] => .ok here
  | here, part :: rest =>
    match t.get? here with
    | none => .error .notFound
    | some (.file _) => .error .notADirectory
    | some .directory =>
      if nameLimit < (Text.utf8 part).length then .error .nameTooLong
      else t.reachFrom (Path.step here part) rest

/-- The place that the parts of an absolute path lead to. -/
def reach (t : FileTree) (parts : List String) : Except FileError Place :=
  if parts.any Path.holdsNull then .error .nullCharacter else t.reachFrom [] parts

/-- What an absolute path leads to.  A path that cannot lead anywhere leads to nothing. -/
def status (t : FileTree) (parts : List String) : Except FileError (Option Entry) :=
  match t.reach parts with
  | .ok place => .ok (t.get? place)
  | .error .nameTooLong => .error .nameTooLong
  | .error _ => .ok none

/-! ## Files -/

/-- The bytes of a file. -/
def read (t : FileTree) (parts : List String) : Except FileError (List UInt8) :=
  match t.reach parts with
  | .error e => .error e
  | .ok place =>
    match t.get? place with
    | none => .error .notFound
    | some .directory => .error .isADirectory
    | some (.file bytes) => .ok bytes

def write (t : FileTree) (parts : List String) (bytes : List UInt8) :
    Except FileError FileTree :=
  match t.reach parts with
  | .error e => .error e
  | .ok place =>
    match t.get? place with
    | some .directory => .error .isADirectory
    | _ => .ok (t.put place (.file bytes))

/-- Makes the directories on the way from a place along further names, which lead to a
directory. -/
def makeFrom (t : FileTree) : Place → List String → Except FileError FileTree
  | _, [] => .ok t
  | here, name :: rest =>
    if nameLimit < (Text.utf8 name).length then .error .nameTooLong
    else
      let next := here ++ [name]
      match t.get? next with
      | some .directory => t.makeFrom next rest
      | some (.file _) => .error (if rest.isEmpty then .alreadyExists else .notADirectory)
      | none => (t.put next .directory).makeFrom next rest

/-- Makes a directory and those on the way to it, where they do not exist. -/
def makeDirectory (t : FileTree) (place : Place) : Except FileError FileTree :=
  t.makeFrom [] place

/-- The files below a directory, by their way from it. -/
def filesBelow (t : FileTree) (directory : Place) : List (Place × List UInt8) :=
  t.entries.filterMap fun (place, entry) =>
    match entry, directory.isPrefixOf? place with
    | .file bytes, some way => some (way, bytes)
    | _, _ => none

/-- The entries of a tree that another tree does not have. -/
def changes (before after : FileTree) : List (Place × Entry) :=
  after.entries.filter fun e => before.get? e.1 != some e.2

/-! ## Laws of paths -/

/-- One step of a path: it leads from a directory, under a name that fits. -/
theorem reachFrom_cons_eq_ok_iff {t : FileTree} {here place : Place} {part : String}
    {rest : List String} :
    t.reachFrom here (part :: rest) = .ok place ↔
      t.get? here = some .directory ∧ (Text.utf8 part).length ≤ nameLimit ∧
        t.reachFrom (Path.step here part) rest = .ok place := by
  rw [reachFrom]
  cases t.get? here with
  | none => simp
  | some entry =>
    cases entry with
    | file bytes => simp
    | directory =>
      by_cases fits : (Text.utf8 part).length ≤ nameLimit
      · simp [fits, Nat.not_lt.2 fits]
      · simp [fits, Nat.lt_of_not_le fits]

/-- A name is too long where it stands in a directory, here or further on. -/
theorem reachFrom_cons_eq_tooLong_iff {t : FileTree} {here : Place} {part : String}
    {rest : List String} :
    t.reachFrom here (part :: rest) = .error .nameTooLong ↔
      t.get? here = some .directory ∧ (nameLimit < (Text.utf8 part).length ∨
        t.reachFrom (Path.step here part) rest = .error .nameTooLong) := by
  rw [reachFrom]
  cases t.get? here with
  | none => simp
  | some entry =>
    cases entry with
    | file bytes => simp
    | directory => by_cases long : nameLimit < (Text.utf8 part).length <;> simp [long]

/-- A path without null characters leads where its parts lead from the top. -/
theorem reach_eq_iff {t : FileTree} {parts : List String} {outcome : Except FileError Place}
    (named : outcome ≠ .error .nullCharacter) :
    t.reach parts = outcome ↔
      (∀ part ∈ parts, Path.holdsNull part = false) ∧ t.reachFrom [] parts = outcome := by
  rw [reach]
  split
  · rename_i null
    obtain ⟨part, mem, holds⟩ := List.any_eq_true.1 null
    refine iff_of_false (Ne.symm named) fun h => ?_
    rw [h.1 part mem] at holds
    cases holds
  · rename_i plain
    have plain : ∀ part ∈ parts, Path.holdsNull part = false := by simpa using plain
    exact (and_iff_right plain).symm

theorem status_eq_some_iff {t : FileTree} {parts : List String} {entry : Entry} :
    t.status parts = .ok (some entry) ↔
      ∃ place, t.reach parts = .ok place ∧ t.get? place = some entry := by
  rw [status]
  cases t.reach parts with
  | ok place => simp
  | error e => cases e <;> simp

/-- Looking up a path fails only for a name that is too long. -/
theorem status_eq_error_iff {t : FileTree} {parts : List String} {e : FileError} :
    t.status parts = .error e ↔ e = .nameTooLong ∧ t.reach parts = .error .nameTooLong := by
  rw [status]
  cases t.reach parts with
  | ok place => simp
  | error kind => cases kind <;> simp [eq_comm]

theorem read_eq_ok_iff {t : FileTree} {parts : List String} {bytes : List UInt8} :
    t.read parts = .ok bytes ↔
      ∃ place, t.reach parts = .ok place ∧ t.get? place = some (.file bytes) := by
  rw [read]
  cases t.reach parts with
  | error e => simp
  | ok place =>
    cases held : t.get? place with
    | none => simp [held]
    | some entry => cases entry <;> simp [held]

theorem status_of_read {t : FileTree} {parts : List String} {bytes : List UInt8}
    (h : t.read parts = .ok bytes) : t.status parts = .ok (some (.file bytes)) :=
  status_eq_some_iff.2 (read_eq_ok_iff.1 h)

theorem write_eq_ok_iff {t t' : FileTree} {parts : List String} {bytes : List UInt8} :
    t.write parts bytes = .ok t' ↔
      ∃ place, t.reach parts = .ok place ∧ t.get? place ≠ some .directory ∧
        t' = t.put place (.file bytes) := by
  rw [write]
  cases t.reach parts with
  | error e => simp
  | ok place =>
    cases held : t.get? place with
    | none => simp [held, eq_comm]
    | some entry => cases entry <;> simp [held, eq_comm]

/-! ## Laws of changes -/

@[simp] theorem get?_nil (t : FileTree) : t.get? [] = some .directory := rfl

theorem findAt?_putEntry_self (place : Place) (entry : Entry)
    (entries : List (Place × Entry)) :
    findAt? place (putEntry place entry entries) = some entry := by
  induction entries with
  | nil => simp [putEntry, findAt?]
  | cons x rest ih =>
    obtain ⟨p, e⟩ := x
    by_cases h : p = place
    · simp [putEntry, findAt?, h]
    · simp [putEntry, findAt?, h, ih]

theorem findAt?_putEntry_ne {place other : Place} (h : other ≠ place) (entry : Entry)
    (entries : List (Place × Entry)) :
    findAt? other (putEntry place entry entries) = findAt? other entries := by
  induction entries with
  | nil => simp [putEntry, findAt?, h.symm]
  | cons x rest ih =>
    obtain ⟨p, e⟩ := x
    by_cases hp : p = place
    · subst hp
      simp [putEntry, findAt?, h.symm]
    · rw [putEntry, if_neg hp]
      by_cases ho : p = other
      · simp [findAt?, ho]
      · simp [findAt?, ho, ih]

/-- A place below the top holds what was put there. -/
theorem get?_put_self (t : FileTree) {place : Place} (h : place ≠ []) (entry : Entry) :
    (t.put place entry).get? place = some entry := by
  rw [get?, if_neg h, put, findAt?_putEntry_self]

/-- Putting something at one place changes no other. -/
theorem get?_put_ne (t : FileTree) {place other : Place} (h : other ≠ place)
    (entry : Entry) : (t.put place entry).get? other = t.get? other := by
  by_cases ho : other = []
  · simp [ho]
  · rw [get?, if_neg ho, get?, if_neg ho, put, findAt?_putEntry_ne h]

end FileTree

end CallSiteIds
