import CallSiteIds.Json.Reader

/-!
# What a text can hold

The strict reader gives integers of at most 64 bits only, and an array has no more items than
its text has characters.  Later this bounds the positions and the counts that a pass writes, by
the size of the file that it reads.
-/

set_option autoImplicit false

namespace CallSiteIds.Json

mutual

/-- A document with integers of at most 64 bits and arrays of at most `n` items. -/
def IsBounded (n : Nat) : Value → Prop
  | .int i => fitsWord i = true
  | .array items => items.length ≤ n ∧ AreBounded n items
  | .object fields => HaveBoundedValues n fields
  | _ => True

/-- Bounded items of an array. -/
def AreBounded (n : Nat) : List Value → Prop
  | [] => True
  | v :: vs => IsBounded n v ∧ AreBounded n vs

/-- Fields with bounded values. -/
def HaveBoundedValues (n : Nat) : List (String × Value) → Prop
  | [] => True
  | (_, v) :: fields => IsBounded n v ∧ HaveBoundedValues n fields

end

theorem isBounded_of_field? {n : Nat} {fields : List (String × Value)} {key : String} {v : Value}
    (bounded : HaveBoundedValues n fields) (h : field? key fields = some v) : IsBounded n v := by
  induction fields with
  | nil => cases h
  | cons p fields ih =>
    obtain ⟨k, w⟩ := p
    rw [field?] at h
    split at h
    · injection h with h
      subst h
      exact bounded.1
    · exact ih bounded.2 h

theorem haveBoundedValues_putField {n : Nat} {fields : List (String × Value)} {v : Value}
    (bounded : HaveBoundedValues n fields) (value : IsBounded n v) (key : String) :
    HaveBoundedValues n (putField key v fields) := by
  induction fields with
  | nil => exact ⟨value, trivial⟩
  | cons p fields ih =>
    obtain ⟨k, w⟩ := p
    rw [putField]
    split
    · exact ⟨value, bounded.2⟩
    · exact ⟨bounded.1, ih bounded.2⟩

theorem haveBoundedValues_fieldsOfMembers {n : Nat} {ms : List (String × Value)}
    (bounded : HaveBoundedValues n ms) : HaveBoundedValues n (fieldsOfMembers ms) := by
  have along : ∀ fields, HaveBoundedValues n fields →
      HaveBoundedValues n (ms.foldl (fun fields m => putField m.1 m.2 fields) fields) := by
    induction ms with
    | nil => exact fun _ h => h
    | cons m ms ih =>
      obtain ⟨k, v⟩ := m
      exact fun fields h => ih bounded.2 _ (haveBoundedValues_putField h bounded.1 k)
  exact along [] trivial

/-! ## What is left of a text -/

theorem length_skipGap_le (cs : List Char) : (skipGap cs).length ≤ cs.length :=
  (List.dropWhile_sublist _).length_le

theorem length_of_readUnits {cs rest : List Char} {units : List Nat}
    (h : readUnits cs = some (units, rest)) : rest.length ≤ cs.length := by
  fun_induction readUnits cs generalizing units
  case case1 => cases h
  case case2 =>
    simp only [Option.some.injEq, Prod.mk.injEq] at h
    obtain ⟨-, rfl⟩ := h
    exact Nat.le_succ _
  case case13 => cases h
  -- In all other cases the rest is what is left of a shorter text.
  all_goals
    rename_i ih
    simp +zetaDelta only [Option.bind_eq_bind, Option.bind_eq_some_iff, Prod.exists,
      Option.pure_def, Option.some.injEq, Prod.mk.injEq, exists_eq_left'] at h
  case case3 =>
    obtain ⟨_, -, _, _, read, -, rfl⟩ := h
    exact Nat.le_trans (ih read) (by simp only [List.length_cons]; omega)
  case case14 =>
    obtain ⟨_, _, read, -, rfl⟩ := h
    exact Nat.le_trans (ih read) (Nat.le_succ _)
  case case12 => simp at h
  all_goals
    obtain ⟨_, _, read, -, rfl⟩ := h
    exact Nat.le_trans (ih read) (by simp only [List.length_cons]; omega)

theorem length_of_readString {cs rest : List Char} {s : String}
    (h : readString cs = some (s, rest)) : rest.length ≤ cs.length := by
  simp only [readString, Option.bind_eq_bind, Option.bind_eq_some_iff, Prod.exists,
    Option.pure_def, Option.some.injEq, Prod.mk.injEq] at h
  obtain ⟨units, rest', read, text, -, -, rfl⟩ := h
  exact length_of_readUnits read

theorem length_of_readIntegral {cs digits rest : List Char} {negative : Bool}
    (h : readIntegral cs = some (negative, digits, rest)) : rest.length ≤ cs.length := by
  unfold readIntegral at h
  split at h
  rename_i sign unsigned front
  have shorter : unsigned.length ≤ cs.length := by
    split at front
    · injection front with _ front
      subst front
      exact Nat.le_succ _
    · injection front with _ front
      subst front
      exact Nat.le_refl _
  simp only at h
  split at h
  · cases h
  · cases h
  · simp only [Option.some.injEq, Prod.mk.injEq] at h
    obtain ⟨-, -, rfl⟩ := h
    exact Nat.le_trans (List.dropWhile_sublist _).length_le shorter

theorem length_of_readFraction {cs rest : List Char} {digits : Option (List Char)}
    (h : readFraction cs = some (digits, rest)) : rest.length ≤ cs.length := by
  unfold readFraction at h
  split at h
  · split at h
    · cases h
    · simp only [Option.some.injEq, Prod.mk.injEq] at h
      obtain ⟨-, rfl⟩ := h
      exact Nat.le_trans (List.dropWhile_sublist _).length_le (Nat.le_succ _)
  · simp only [Option.some.injEq, Prod.mk.injEq] at h
    obtain ⟨-, rfl⟩ := h
    exact Nat.le_refl _

theorem length_of_readExponent {cs rest : List Char} {n : Option Int}
    (h : readExponent cs = some (n, rest)) : rest.length ≤ cs.length := by
  unfold readExponent at h
  split at h
  · cases h
    exact Nat.le_refl _
  · rename_i mark tail
    simp only at h
    split at h
    · split at h
      · cases h
      · simp only [Option.some.injEq, Prod.mk.injEq] at h
        obtain ⟨-, rfl⟩ := h
        refine Nat.le_trans (List.dropWhile_sublist _).length_le ?_
        split <;> simp only [List.length_cons] <;> omega
    · cases h
      exact Nat.le_refl _
theorem length_of_dropLiteral {name cs rest : List Char} (h : dropLiteral name cs = some rest) :
    rest.length ≤ cs.length := by
  induction name generalizing cs with
  | nil =>
    injection h with h
    subst h
    exact Nat.le_refl _
  | cons x xs ih =>
    cases cs with
    | nil => cases h
    | cons c cs =>
      rw [dropLiteral] at h
      split at h
      · exact Nat.le_trans (ih h) (Nat.le_succ _)
      · cases h

/-! ## Numbers and words -/

/-- A number is no wide integer, and its text is not longer than what was left. -/
theorem bounded_of_readNumber {n : Nat} {cs rest : List Char} {v : Value}
    (h : readNumber .strict cs = some (v, rest)) : IsBounded n v ∧ rest.length ≤ cs.length := by
  simp only [readNumber, Option.bind_eq_bind, Option.bind_eq_some_iff, Prod.exists] at h
  obtain ⟨negative, whole, rest₁, integral, fraction, rest₂, places, exponent, rest₃, power, h⟩ := h
  have left : rest₃.length ≤ cs.length := Nat.le_trans (length_of_readExponent power)
    (Nat.le_trans (length_of_readFraction places) (length_of_readIntegral integral))
  generalize (if negative = true then _ else (_ : Int)) = i at h
  split at h
  · rename_i small
    cases h
    rw [Bool.and_eq_true] at small
    exact ⟨small.2, left⟩
  · rw [floatValue?] at h
    split at h
    · cases h
      exact ⟨trivial, left⟩
    · cases h

theorem bounded_of_readNamed {n : Nat} {cs rest : List Char} {v : Value}
    (h : readNamed .strict cs = some (v, rest)) : IsBounded n v ∧ rest.length ≤ cs.length := by
  obtain ⟨⟨name, w⟩, mem, found⟩ := List.exists_of_findSome?_eq_some h
  simp only [Option.map_eq_some_iff, Prod.mk.injEq] at found
  obtain ⟨rest', dropped, rfl, rfl⟩ := found
  refine ⟨?_, length_of_dropLiteral dropped⟩
  simp only [namedValues, Rules.strict, Bool.false_eq_true, if_false, List.append_nil,
    List.mem_cons, Prod.mk.injEq, List.not_mem_nil, or_false] at mem
  rcases mem with ⟨-, rfl⟩ | ⟨-, rfl⟩ | ⟨-, rfl⟩ <;> trivial

/-! ## Values -/

/-- With the given fuel every value that is read from at most `n` characters is bounded. -/
def BoundsValues (n fuel : Nat) : Prop :=
  ∀ {depth : Nat} {cs rest : List Char} {v : Value}, cs.length ≤ n →
    readValue .strict fuel depth cs = some (v, rest) → IsBounded n v ∧ rest.length ≤ cs.length

/-- With the given fuel all items that are read from at most `n` characters are bounded, and each
takes a character. -/
def BoundsItems (n fuel : Nat) : Prop :=
  ∀ {depth : Nat} {cs rest : List Char} {vs : List Value}, cs.length ≤ n →
    readItems .strict fuel depth cs = some (vs, rest) →
      AreBounded n vs ∧ vs.length + rest.length ≤ cs.length

/-- With the given fuel all members that are read from at most `n` characters are bounded. -/
def BoundsMembers (n fuel : Nat) : Prop :=
  ∀ {depth : Nat} {cs rest : List Char} {ms : List (String × Value)}, cs.length ≤ n →
    readMembers .strict fuel depth cs = some (ms, rest) →
      HaveBoundedValues n ms ∧ rest.length ≤ cs.length

theorem length_of_skipGap {cs rest : List Char} {c : Char} (h : skipGap cs = c :: rest) :
    rest.length + 1 ≤ cs.length := by
  have := length_skipGap_le cs
  rw [h, List.length_cons] at this
  exact this

theorem boundsValues_succ {n fuel : Nat} (items : BoundsItems n fuel)
    (members : BoundsMembers n fuel) : BoundsValues n (fuel + 1) := by
  intro depth cs rest v short h
  unfold readValue at h
  split at h
  · simp only [Option.map_eq_some_iff, Prod.exists, Prod.mk.injEq] at h
    obtain ⟨s, rest', read, rfl, rfl⟩ := h
    exact ⟨trivial, Nat.le_trans (length_of_readString read) (Nat.le_succ _)⟩
  · rename_i body
    rw [List.length_cons] at short ⊢
    split at h
    · cases h
    split at h
    · rename_i closed
      cases h
      have := length_of_skipGap closed
      exact ⟨⟨Nat.zero_le _, trivial⟩, by omega⟩
    · simp only [Option.map_eq_some_iff, Prod.exists, Prod.mk.injEq] at h
      obtain ⟨vs, rest', read, rfl, rfl⟩ := h
      have skip := length_skipGap_le body
      have ⟨bounded, count⟩ := items (by omega) read
      exact ⟨⟨by omega, bounded⟩, by omega⟩
  · rename_i body
    rw [List.length_cons] at short ⊢
    split at h
    · cases h
    split at h
    · rename_i closed
      cases h
      have := length_of_skipGap closed
      exact ⟨trivial, by omega⟩
    · simp only [Option.map_eq_some_iff, Prod.exists, Prod.mk.injEq] at h
      obtain ⟨ms, rest', read, rfl, rfl⟩ := h
      have skip := length_skipGap_le body
      have ⟨bounded, left⟩ := members (by omega) read
      exact ⟨haveBoundedValues_fieldsOfMembers bounded, by omega⟩
  · rw [Option.or_eq_some_iff] at h
    rcases h with named | ⟨-, number⟩
    · exact bounded_of_readNamed named
    · exact bounded_of_readNumber number

theorem boundsItems_succ {n fuel : Nat} (value : BoundsValues n fuel)
    (items : BoundsItems n fuel) : BoundsItems n (fuel + 1) := by
  intro depth cs rest vs short h
  unfold readItems at h
  split at h
  · cases h
  · rename_i v after read
    have ⟨bounded, left⟩ := value short read
    split at h
    · rename_i skip
      cases h
      have := length_of_skipGap skip
      exact ⟨⟨bounded, trivial⟩, by simp only [List.length_cons, List.length_nil]; omega⟩
    · rename_i gapped skip
      simp only [Option.map_eq_some_iff, Prod.exists, Prod.mk.injEq] at h
      obtain ⟨vs, rest', later, rfl, rfl⟩ := h
      have := length_of_skipGap skip
      have := length_skipGap_le gapped
      have ⟨others, count⟩ := items (by omega) later
      exact ⟨⟨bounded, others⟩, by simp only [List.length_cons]; omega⟩
    · cases h

theorem boundsMembers_succ {n fuel : Nat} (value : BoundsValues n fuel)
    (members : BoundsMembers n fuel) : BoundsMembers n (fuel + 1) := by
  intro depth cs rest ms short h
  unfold readMembers at h
  split at h
  · rename_i body
    rw [List.length_cons] at short ⊢
    split at h
    · cases h
    · rename_i key named name
      have := length_of_readString name
      split at h
      · rename_i gapped colon
        have := length_of_skipGap colon
        have := length_skipGap_le gapped
        split at h
        · cases h
        · rename_i v after read
          have ⟨bounded, left⟩ := value (by omega) read
          split at h
          · rename_i skip
            cases h
            have := length_of_skipGap skip
            exact ⟨⟨bounded, trivial⟩, by omega⟩
          · rename_i next skip
            simp only [Option.map_eq_some_iff, Prod.exists, Prod.mk.injEq] at h
            obtain ⟨ms, rest', later, rfl, rfl⟩ := h
            have := length_of_skipGap skip
            have := length_skipGap_le next
            have ⟨others, left⟩ := members (by omega) later
            exact ⟨⟨bounded, others⟩, by omega⟩
          · cases h
      · cases h
  · cases h

/-- Whatever the fuel, what is read is bounded. -/
theorem bounds_all (n fuel : Nat) :
    BoundsValues n fuel ∧ BoundsItems n fuel ∧ BoundsMembers n fuel := by
  induction fuel with
  | zero =>
    refine ⟨?_, ?_, ?_⟩
    · intro depth cs rest v _ h
      rw [readValue] at h
      cases h
    · intro depth cs rest vs _ h
      rw [readItems] at h
      cases h
    · intro depth cs rest ms _ h
      rw [readMembers] at h
      cases h
  | succ fuel ih =>
    obtain ⟨value, items, members⟩ := ih
    exact ⟨boundsValues_succ items members, boundsItems_succ value items,
      boundsMembers_succ value members⟩

/-- A document is bounded by the length of its text. -/
theorem isBounded_of_parse? {cs : List Char} {v : Value} (h : parse? .strict cs = some v) :
    IsBounded cs.length v := by
  rw [parse?] at h
  split at h
  · rename_i w rest read
    split at h
    · injection h with h
      subst h
      exact ((bounds_all cs.length _).1 (length_skipGap_le cs) read).1
    · cases h
  · cases h

end CallSiteIds.Json
