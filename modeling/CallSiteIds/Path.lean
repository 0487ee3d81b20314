import CallSiteIds.Text.Split

/-!
# Paths

A path as it is written is simplified when it is read: empty parts and single dots say
nothing.  It is resolved against the place where relative paths start, and resolving goes by
the names alone: two dots go one step up, and there is nothing above the top.  A resolved path
is a place: the names on the way down from the top (`resolve_steps`).
-/

set_option autoImplicit false

namespace CallSiteIds

/-- A place in a file tree: the names on the way down from the top. -/
abbrev Place := List String

/-- A place as it is written. -/
def Place.text (p : Place) : String :=
  "/" ++ "/".intercalate p

/-- Where a path starts. -/
inductive Anchor where
  | relative
  | top
  /-- Exactly two slashes in front are kept until the path is resolved. -/
  | doubleTop
deriving DecidableEq, Repr

/-- A path as it is written, without the parts that say nothing. -/
structure Path where
  anchor : Anchor
  parts : List String
deriving DecidableEq, Repr

/-- Why a path does not resolve. -/
inductive PathError where
  /-- It starts in the home directory of a user who is not known. -/
  | unknownHome
  /-- A name holds the null character. -/
  | nullCharacter
deriving DecidableEq, Repr

/-- The wording of a path error. -/
def PathError.message : PathError → String
  | .unknownHome => "Could not determine home directory."
  | .nullCharacter => "embedded null byte"

/-- What paths depend on besides their text. -/
structure Surroundings where
  /-- The place where relative paths start. -/
  workingDirectory : Place
  /-- The home directories of users by name; the empty name is the user at work. -/
  homeOf : String → Option String
  /-- The place of the directory for passes that are thrown away. -/
  temporary : Place

namespace Path

/-- The part that stands for the directory above. -/
def above : String := ".."

/-- Tells whether a part of a path says something. -/
def isStep (part : String) : Bool :=
  part != "" && part != "."

/-- Reads a path. -/
def ofString (s : String) : Path :=
  let cs := s.toList
  let slashes := (cs.takeWhile (· == '/')).length
  let anchor := if slashes = 0 then .relative else if slashes = 2 then .doubleTop else .top
  ⟨anchor, ((Text.splitAll '/' cs).map String.ofList).filter isStep⟩

def ofPlace (p : Place) : Path :=
  ⟨.top, p⟩

/-- Tells whether a path starts at the top. -/
def isAbsolute (p : Path) : Bool :=
  p.anchor != .relative

/-- A path as it is written. -/
def text (p : Path) : String :=
  let names := "/".intercalate p.parts
  match p.anchor with
  | .relative => if p.parts.isEmpty then "." else names
  | .top => "/" ++ names
  | .doubleTop => "//" ++ names

/-- A path taken from the directory that another path names. -/
def within (base p : Path) : Path :=
  if p.isAbsolute then p else { base with parts := base.parts ++ p.parts }

/-- Tells whether a name holds the null character. -/
def holdsNull (name : String) : Bool :=
  name.toList.contains '\x00'

/-- Replaces a tilde at the start of a relative path by a home directory. -/
def expandHome (homeOf : String → Option String) (p : Path) : Except PathError Path :=
  match p.anchor, p.parts with
  | .relative, first :: rest =>
    match first.toList with
    | '~' :: user =>
      if holdsNull first then .error .nullCharacter
      else
        match homeOf (String.ofList user) with
        | some home =>
          let home := ofString home
          .ok ⟨home.anchor, home.parts ++ rest⟩
        | none => .error .unknownHome
    | _ => .ok p
  | _, _ => .ok p

/-- Goes one part further from a place. -/
def step (here : Place) (part : String) : Place :=
  if part = above then here.dropLast else here ++ [part]

/-- The place that parts lead to from another place. -/
def follow (start : Place) (parts : List String) : Place :=
  parts.foldl step start

/-- The place of a path; a relative one starts at the given place. -/
def resolve (start : Place) (p : Path) : Except PathError Place :=
  if p.parts.any holdsNull then .error .nullCharacter
  else .ok (follow (if p.isAbsolute then [] else start) p.parts)

/-- The place of a path that may start with a tilde. -/
def locate (s : Surroundings) (p : Path) : Except PathError Place := do
  (← p.expandHome s.homeOf).resolve s.workingDirectory

/-! ## Laws -/

/-- Every part of a path that was read says something. -/
theorem isStep_of_mem_parts {s part : String} (h : part ∈ (ofString s).parts) :
    isStep part = true := by
  simp only [ofString, List.mem_filter] at h
  exact h.2

/-- Following more parts goes on from where the first ones lead. -/
theorem follow_append (start : Place) (first second : List String) :
    follow start (first ++ second) = follow (follow start first) second := by
  simp [follow]

/-- What holds of the names of a place and of all parts that do not lead up holds of the
names of the place they lead to. -/
theorem forall_mem_follow {P : String → Prop} {start : Place} {parts : List String}
    (hs : ∀ n ∈ start, P n) (hp : ∀ n ∈ parts, n ≠ above → P n) :
    ∀ n ∈ follow start parts, P n := by
  induction parts generalizing start with
  | nil => exact hs
  | cons part rest ih =>
    suffices hnext : ∀ n ∈ step start part, P n from
      ih hnext fun n hn => hp n (List.mem_cons_of_mem _ hn)
    intro n hn
    by_cases h : part = above
    · rw [step, if_pos h] at hn
      exact hs n (List.dropLast_subset _ hn)
    · rw [step, if_neg h, List.mem_append, List.mem_singleton] at hn
      rcases hn with hn | rfl
      · exact hs n hn
      · exact hp n (List.mem_cons_self ..) h

/-- A step of a resolved path is neither empty nor made of one or two dots. -/
theorem resolve_steps {start place : Place} {s : String}
    (hs : ∀ n ∈ start, isStep n = true ∧ n ≠ above)
    (h : (ofString s).resolve start = .ok place) :
    ∀ n ∈ place, isStep n = true ∧ n ≠ above := by
  rw [resolve] at h
  split at h
  · cases h
  · cases h
    refine forall_mem_follow ?_ fun n hn hne => ⟨isStep_of_mem_parts hn, hne⟩
    split
    · simp
    · exact hs

end Path

end CallSiteIds
