import CallSiteIds.Proofs.Pass.Containment
import CallSiteIds.Proofs.Toml.Faults

/-!
# Problems with a configuration

A configuration is settled when it is loaded or its error is reported as one of the configuration.
Not every file is settled: bytes that are no UTF-8 and integers that are too long are problems of
another kind (`isSettled_ofBytes_iff`).  The output directory is settled unless its text leads to a
null character (`isSettled_resolveOutput_iff`), and a problem with the text of the descriptor file
is never one of the configuration (`isSettled_resolveDescriptors_iff`).
-/

set_option autoImplicit false

namespace CallSiteIds

/-- A result that is there, or is reported as an error of the configuration. -/
def IsSettled {α : Type} (x : Except Problem α) : Prop :=
  (∃ a, x = .ok a) ∨ ∃ e, x = .error (.config e)

theorem isSettled_ok {α : Type} (a : α) : IsSettled (.ok a) :=
  .inl ⟨a, rfl⟩

theorem isSettled_config {α : Type} (e : ConfigError) :
    IsSettled (.error (.config e) : Except _ α) :=
  .inr ⟨e, rfl⟩

theorem isSettled_error_iff {α : Type} {e : Problem} :
    IsSettled (.error e : Except _ α) ↔ ∃ c, e = .config c := by
  constructor
  · rintro (⟨_, ⟨⟩⟩ | ⟨c, ⟨⟩⟩)
    exact ⟨c, rfl⟩
  · rintro ⟨c, rfl⟩
    exact isSettled_config c

/-- A result is settled when all its errors are errors of the configuration. -/
theorem isSettled_iff {α : Type} {x : Except Problem α} :
    IsSettled x ↔ ∀ e, x = .error e → ∃ c, e = .config c := by
  cases x with
  | ok a => exact iff_of_true (isSettled_ok a) (by rintro _ ⟨⟩)
  | error e =>
    rw [isSettled_error_iff]
    constructor
    · rintro config _ ⟨⟩
      exact config
    · exact fun h => h e rfl

/-- A sequence of steps is settled when the first is, and the others are where the first gives
something. -/
theorem isSettled_bind_iff {α β : Type} {x : Except Problem α} {f : α → Except Problem β} :
    IsSettled (x.bind f) ↔ IsSettled x ∧ ∀ a, x = .ok a → IsSettled (f a) := by
  cases x with
  | ok a =>
    constructor
    · intro settled
      refine ⟨isSettled_ok a, ?_⟩
      rintro _ ⟨⟩
      exact settled
    · exact fun h => h.2 a rfl
  | error e =>
    constructor
    · rintro (⟨b, ⟨⟩⟩ | ⟨e, ⟨⟩⟩)
      refine ⟨isSettled_config e, ?_⟩
      rintro _ ⟨⟩
    · rintro ⟨⟨a, ⟨⟩⟩ | ⟨e, ⟨⟩⟩, -⟩
      exact isSettled_config e

namespace Config

/-! ## Loading -/

/-- Bytes that are a text without an integer that the reader finds too long. -/
def IsReadable (bytes : List UInt8) : Prop :=
  ∃ cs, Text.decodeUtf8? bytes = some cs ∧ ∀ digits, Toml.read cs ≠ .error (.longInteger digits)

/-- A text with few digits is readable. -/
theorem isReadable_of_digitCount_le {bytes : List UInt8} {cs : List Char}
    (decoded : Text.decodeUtf8? bytes = some cs)
    (few : Toml.digitCount cs ≤ Decimal.digitLimit) : IsReadable bytes := by
  refine ⟨cs, decoded, ?_⟩
  intro digits long
  obtain ⟨many, counted⟩ := Toml.longInteger_of_read long
  omega

/-- The bound on the digits of a text cannot be raised. -/
theorem isReadable_ones_iff {n : Nat} :
    IsReadable (Text.encodeUtf8 (Toml.onesText n)) ↔ n ≤ Decimal.digitLimit := by
  have decoded := Text.decodeUtf8?_encodeUtf8 (Toml.onesText n)
  constructor
  · rintro ⟨cs, same, short⟩
    obtain rfl := Option.some.inj (decoded.symm.trans same)
    by_contra long
    exact short n (Toml.read_onesText (Nat.lt_of_not_le long))
  · intro few
    exact isReadable_of_digitCount_le decoded (by rwa [Toml.digitCount_onesText])

variable {file : Place} {bytes : List UInt8}

/-- Bytes that are not readable are no text, or hold an integer with too many digits. -/
theorem ofBytes_of_not_isReadable (unreadable : ¬IsReadable bytes) :
    Text.decodeUtf8? bytes = none ∧ ofBytes file bytes = .error .undecodable ∨
      ∃ cs digits, Text.decodeUtf8? bytes = some cs ∧
        ofBytes file bytes = .error (.longInteger digits) ∧
        Decimal.digitLimit < digits ∧ digits ≤ Toml.digitCount cs := by
  rw [ofBytes]
  cases decoded : Text.decodeUtf8? bytes with
  | none => exact .inl ⟨rfl, rfl⟩
  | some cs =>
    refine .inr ?_
    by_contra short
    refine unreadable ⟨cs, decoded, ?_⟩
    intro digits long
    obtain ⟨many, counted⟩ := Toml.longInteger_of_read long
    refine short ⟨cs, digits, rfl, ?_, many, counted⟩
    simp only [long]

theorem isSettled_ofBytes_iff : IsSettled (ofBytes file bytes) ↔ IsReadable bytes := by
  constructor
  · intro settled
    by_contra unreadable
    rcases ofBytes_of_not_isReadable unreadable with ⟨-, same⟩ | ⟨_, _, -, same, -⟩
    all_goals
      rw [same] at settled
      rcases settled with ⟨_, ⟨⟩⟩ | ⟨_, ⟨⟩⟩
  · rintro ⟨cs, decoded, short⟩
    simp only [ofBytes, decoded]
    split
    · exact isSettled_config _
    · rename_i digits long
      exact absurd long (short digits)
    · split
      · exact isSettled_config _
      · exact isSettled_ok _

/-- A configuration is loaded or its error is reported unless its file cannot be looked up or is
not readable. -/
theorem isSettled_load_iff {t : FileTree} {root : Place} {entry : Option Entry}
    (found : t.status (root ++ [fileName]) = .ok entry) :
    IsSettled (load t root) ↔ ∀ bytes, entry = some (.file bytes) → IsReadable bytes := by
  simp only [load, found]
  split
  · rename_i e same
    cases same
  · rename_i bytes same
    injection same with same
    subst same
    rw [isSettled_ofBytes_iff]
    constructor
    · rintro readable _ ⟨⟩
      exact readable
    · exact fun h => h bytes rfl
  · rename_i other same
    injection same with same
    subst same
    refine iff_of_true (isSettled_ok _) ?_
    rintro bytes rfl
    exact (other bytes rfl).elim

/-! ## The output directory -/

/-- A text for the output directory that is rejected for its first character or has no null
character. -/
def IsOutputText (text : String) : Prop :=
  '\x00' ∉ text.toList ∨ text.toList.head? = some '~' ∨ text.toList.head? = some '/'

theorem isSettled_resolveOutput_iff {root : Place} {text : String} :
    IsSettled (resolveOutput root text) ↔ IsOutputText text := by
  by_cases plain : '\x00' ∉ text.toList
  · refine iff_of_true ?_ (.inl plain)
    exact resolveOutput_reports plain
  · have null := not_not.1 plain
    have nonempty : text ≠ "" := by
      rintro rfl
      cases null
    unfold IsOutputText resolveOutput
    rw [if_neg nonempty]
    by_cases tilde : text.toList.head? = some '~'
    · rw [if_pos tilde]
      exact iff_of_true (isSettled_config _) (.inr (.inl tilde))
    rw [if_neg tilde]
    by_cases slash : text.toList.head? = some '/'
    · have absolute := Path.isAbsolute_ofString_iff.2 slash
      simp only [absolute, if_true]
      exact iff_of_true (isSettled_config _) (.inr (.inr slash))
    · have relative := mt Path.isAbsolute_ofString_iff.1 slash
      have unresolved : (Path.ofString text).resolve root = .error .nullCharacter := by
        rw [Path.resolve, if_pos (Path.any_holdsNull_parts_iff.2 null)]
      simp only [relative, Bool.false_eq_true, if_false, unresolved]
      refine iff_of_false ?_ (by simp [plain, tilde, slash])
      rintro (⟨_, ⟨⟩⟩ | ⟨_, ⟨⟩⟩)

/-! ## The descriptor file -/

/-- The user in whose home directory a path starts. -/
def homeUser? (p : Path) : Option String :=
  match p.anchor, p.parts with
  | .relative, first :: _ =>
    match first.toList with
    | '~' :: user => some (String.ofList user)
    | _ => none
  | _, _ => none

/-- A text for the descriptor file without a null character that does not start in the home
directory of a user who is not known. -/
structure IsInputText (s : Surroundings) (text : String) : Prop where
  plain : '\x00' ∉ text.toList
  home : ∀ user, homeUser? (Path.ofString text) = some user →
    ∃ home, s.homeOf user = some home ∧ '\x00' ∉ home.toList

theorem expandHome_of_no_user {p : Path} (away : homeUser? p = none)
    (homeOf : String → Option String) : p.expandHome homeOf = .ok p := by
  unfold homeUser? at away
  unfold Path.expandHome
  split
  · rename_i anchor parts
    simp only [anchor, parts] at away
    split
    · rename_i tilde
      simp only [tilde] at away
      cases away
    · rfl
  · rfl

/-- A path that starts in the home directory of a user goes on from there. -/
theorem expandHome_of_user {p : Path} {user : String} (named : homeUser? p = some user)
    (homeOf : String → Option String) :
    ∃ first rest, p.parts = first :: rest ∧ p.expandHome homeOf =
      if Path.holdsNull first then .error .nullCharacter
      else
        (homeOf user).elim (.error .unknownHome) fun home =>
          .ok ⟨(Path.ofString home).anchor, (Path.ofString home).parts ++ rest⟩ := by
  unfold homeUser? at named
  split at named
  · rename_i first rest anchor parts
    split at named
    · rename_i user tilde
      injection named with same
      subst same
      refine ⟨first, rest, parts, ?_⟩
      simp only [Path.expandHome, anchor, parts, tilde]
      cases homeOf (String.ofList user) <;> rfl
    · cases named
  · cases named

theorem exists_resolve_iff {p : Path} {start : Place} :
    (∃ place, p.resolve start = .ok place) ↔ p.parts.any Path.holdsNull = false := by
  rw [Path.resolve]
  split
  · rename_i null
    rw [null]
    exact ⟨by rintro ⟨_, ⟨⟩⟩, by rintro ⟨⟩⟩
  · rename_i plain
    exact iff_of_true ⟨_, rfl⟩ (Bool.not_eq_true _ ▸ plain)

section Locating

variable {s : Surroundings} {text : String}

theorem any_holdsNull_parts_eq_false_iff :
    (Path.ofString text).parts.any Path.holdsNull = false ↔ '\x00' ∉ text.toList := by
  rw [← Bool.not_eq_true, Path.any_holdsNull_parts_iff]

theorem locate_ofString :
    (Path.ofString text).locate s =
      ((Path.ofString text).expandHome s.homeOf).bind (·.resolve s.workingDirectory) := rfl

theorem exists_locate_of_no_user_iff (user : homeUser? (Path.ofString text) = none) :
    (∃ place, (Path.ofString text).locate s = .ok place) ↔ '\x00' ∉ text.toList := by
  rw [locate_ofString, expandHome_of_no_user user, Except.bind, exists_resolve_iff,
    any_holdsNull_parts_eq_false_iff]

/-- Where a text starts in a home directory, this directory must be known, and neither may hold
a null character. -/
theorem exists_locate_of_user_iff {name : String}
    (user : homeUser? (Path.ofString text) = some name) :
    (∃ place, (Path.ofString text).locate s = .ok place) ↔
      '\x00' ∉ text.toList ∧ ∃ home, s.homeOf name = some home ∧ '\x00' ∉ home.toList := by
  obtain ⟨first, rest, parts, expanded⟩ := expandHome_of_user user s.homeOf
  rw [locate_ofString, expanded, ← any_holdsNull_parts_eq_false_iff, parts, List.any_cons,
    Bool.or_eq_false_iff]
  cases null : Path.holdsNull first with
  | true =>
    rw [if_pos rfl]
    exact iff_of_false (by rintro ⟨_, ⟨⟩⟩) (by rintro ⟨⟨⟨⟩, -⟩, -⟩)
  | false =>
    rw [if_neg Bool.false_ne_true]
    cases known : s.homeOf name with
    | none => exact iff_of_false (by rintro ⟨_, ⟨⟩⟩) (by rintro ⟨-, _, ⟨⟩, -⟩)
    | some home =>
      rw [Option.elim_some, Except.bind, exists_resolve_iff, List.any_append,
        Bool.or_eq_false_iff, any_holdsNull_parts_eq_false_iff]
      simp [and_comm]

theorem exists_locate_iff :
    (∃ place, (Path.ofString text).locate s = .ok place) ↔ IsInputText s text := by
  cases user : homeUser? (Path.ofString text) with
  | none =>
    rw [exists_locate_of_no_user_iff user]
    constructor
    · intro clean
      refine ⟨clean, ?_⟩
      rw [user]
      rintro _ ⟨⟩
    · exact fun h => h.plain
  | some name =>
    rw [exists_locate_of_user_iff user]
    constructor
    · rintro ⟨clean, known⟩
      refine ⟨clean, ?_⟩
      rw [user]
      rintro _ ⟨⟩
      exact known
    · exact fun h => ⟨h.plain, h.home name user⟩

end Locating

/-- A problem with the text for the descriptor file is not one of the configuration. -/
theorem isSettled_resolveDescriptors_iff {s : Surroundings} {root : Place} {text : String} :
    IsSettled (resolveDescriptors s root text) ↔ IsInputText s text := by
  have located := @exists_locate_iff { s with workingDirectory := root } text
  have same : IsInputText { s with workingDirectory := root } text ↔ IsInputText s text :=
    ⟨fun h => ⟨h.plain, h.home⟩, fun h => ⟨h.plain, h.home⟩⟩
  rw [← same, ← located, resolveDescriptors]
  cases (Path.ofString text).locate { s with workingDirectory := root } with
  | ok place => exact iff_of_true (isSettled_ok _) ⟨place, rfl⟩
  | error e =>
    constructor
    · rintro (⟨_, ⟨⟩⟩ | ⟨_, ⟨⟩⟩)
    · rintro ⟨_, ⟨⟩⟩

end Config

end CallSiteIds
