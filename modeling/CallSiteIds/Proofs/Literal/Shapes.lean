import CallSiteIds.Literal.Derivation
import CallSiteIds.Proofs.Decimal.Digits

/-!
# The shape of a literal

What a literal looks like is fixed by its format alone, whatever the digest: the renderings look
at no more than thirty-two bytes and are defined for all of them.  Each format has a shape
(`HasShape`) that says which characters may stand where and what of the digest they show: a Guid
gives sixteen bytes back when its fields are read, a short hash shows forty-eight bits, an id for
a document starts with a letter, and a timestamp lies in its window at the distance that the
first eight bytes name.  Every rendering has the shape of its format (`hasShape_render`).
-/

set_option autoImplicit false

namespace CallSiteIds.Literal

/-! ## Bytes of numbers -/

/-- The bytes of a number, the least significant first. -/
def littleEndianBytes : Nat → Nat → List UInt8
  | 0, _ => []
  | width + 1, n => UInt8.ofNat (n % 256) :: littleEndianBytes width (n / 256)

/-- The bytes of the number that bytes make up are those bytes. -/
theorem littleEndianBytes_littleEndian (bytes : List UInt8) :
    littleEndianBytes bytes.length (littleEndian bytes) = bytes := by
  induction bytes with
  | nil => rfl
  | cons b rest ih =>
    have small : b.toNat < 256 := b.toNat_lt
    have last : (b.toNat + 256 * littleEndian rest) % 256 = b.toNat := by omega
    have front : (b.toNat + 256 * littleEndian rest) / 256 = littleEndian rest := by omega
    rw [List.length_cons, littleEndian, littleEndianBytes, last, front, ih, UInt8.ofNat_toNat]

theorem littleEndian_lt (bytes : List UInt8) :
    littleEndian bytes < Nat.pow 16 (2 * bytes.length) := by
  induction bytes with
  | nil => decide
  | cons b rest ih =>
    have small : b.toNat < 256 := b.toNat_lt
    rw [littleEndian, List.length_cons, Nat.mul_succ]
    show _ < Nat.pow 16 (2 * rest.length) * 16 * 16
    omega

/-- The hexadecimal digits of bytes, two for each. -/
def byteDigits (bytes : List UInt8) : List Char :=
  bytes.flatMap fun b => Text.hexDigits 2 b.toNat

theorem length_byteDigits (bytes : List UInt8) : (byteDigits bytes).length = 2 * bytes.length := by
  induction bytes with
  | nil => rfl
  | cons b rest ih =>
    have both : byteDigits (b :: rest) = Text.hexDigits 2 b.toNat ++ byteDigits rest := rfl
    rw [both, List.length_append, Text.length_hexDigits, ih, List.length_cons]
    omega

/-- The digits of bytes, the last one first, are the digits of their number. -/
theorem byteDigits_reverse (bytes : List UInt8) :
    byteDigits bytes.reverse = Text.hexDigits (2 * bytes.length) (littleEndian bytes) := by
  induction bytes with
  | nil => rfl
  | cons b rest ih =>
    have small : b.toNat < 256 := b.toNat_lt
    have last : (b.toNat + 256 * littleEndian rest) % 16 = b.toNat % 16 := by omega
    have second : (b.toNat + 256 * littleEndian rest) / 16 % 16 = b.toNat / 16 % 16 := by omega
    have front : (b.toNat + 256 * littleEndian rest) / 16 / 16 = littleEndian rest := by omega
    rw [byteDigits] at ih ⊢
    rw [List.reverse_cons, List.flatMap_append, ih, List.length_cons, Nat.mul_succ, littleEndian]
    simp [Text.hexDigits, last, second, front]

/-- The number whose digits are those of bytes, the last one first, has these bytes. -/
theorem hexNumber?_byteDigits_reverse (bytes : List UInt8) :
    Text.hexNumber? (byteDigits bytes.reverse) = some (littleEndian bytes) := by
  rw [byteDigits_reverse, Text.hexNumber?_hexDigits (littleEndian_lt bytes)]

/-! ## Guids -/

/-- The bytes that a Guid stands for: its first three fields are numbers of four, two and two
bytes that are kept with the least significant byte first, and the other eight bytes follow in
order. -/
def guidBytes? (digits : List Char) : Option (List UInt8) := do
  let first ← Text.hexNumber? (digits.take 8)
  let second ← Text.hexNumber? ((digits.drop 8).take 4)
  let third ← Text.hexNumber? ((digits.drop 12).take 4)
  let rest ← Text.hexNumber? (digits.drop 16)
  return littleEndianBytes 4 first ++ littleEndianBytes 2 second ++ littleEndianBytes 2 third ++
    (littleEndianBytes 8 rest).reverse

/-- The text of a Guid, and the bytes of the digest that are read back from it. -/
structure IsGuid (digest : List UInt8) (text : List Char) : Prop where
  length : text.length = 32
  digits : ∀ c ∈ text, c ∈ "0123456789abcdef".toList
  bytes : guidBytes? text = some (digest.take 16)

/-- Bytes of a digest from a given position on. -/
def field (digest : List UInt8) (start count : Nat) : List UInt8 :=
  (digest.drop start).take count

theorem field_eq_map_getD {digest : List UInt8} {start count : Nat}
    (inside : start + count ≤ digest.length) :
    field digest start count = (List.range' start count).map fun i => digest.getD i 0 := by
  refine List.ext_getElem ?_ ?_
  · simp only [field, List.length_take, List.length_drop, List.length_map, List.length_range']
    omega
  · intro i before after
    have small : i < count := by simpa using after
    have within : start + i < digest.length := by omega
    simp [field, List.getD_eq_getElem?_getD, List.getElem?_eq_getElem within]

theorem length_field {digest : List UInt8} {start count : Nat}
    (inside : start + count ≤ digest.length) : (field digest start count).length = count := by
  rw [field_eq_map_getD inside, List.length_map, List.length_range']

/-- A Guid shows three fields of a digest backwards and the next eight bytes forwards. -/
theorem guidText_eq {digest : List UInt8} (enough : 16 ≤ digest.length) :
    guidText digest =
      byteDigits (field digest 0 4).reverse ++ (byteDigits (field digest 4 2).reverse ++
        (byteDigits (field digest 6 2).reverse ++ byteDigits (field digest 8 8))) := by
  have order : guidOrder = (List.range' 0 4).reverse ++ ((List.range' 4 2).reverse ++
      ((List.range' 6 2).reverse ++ List.range' 8 8)) := by decide
  rw [field_eq_map_getD (by omega), field_eq_map_getD (by omega), field_eq_map_getD (by omega),
    field_eq_map_getD (by omega), guidText, order]
  simp only [byteDigits, List.flatMap_append, ← List.map_reverse, List.flatMap_map]

/-- A field of four, two or eight bytes is read back from its digits. -/
theorem littleEndianBytes_of_length {bytes : List UInt8} {count : Nat}
    (length : bytes.length = count) : littleEndianBytes count (littleEndian bytes) = bytes := by
  rw [← length, littleEndianBytes_littleEndian]

theorem guidBytes?_of_fields {first second third rest : List UInt8} (h₁ : first.length = 4)
    (h₂ : second.length = 2) (h₃ : third.length = 2) (h₄ : rest.length = 8) :
    guidBytes? (byteDigits first.reverse ++ (byteDigits second.reverse ++
      (byteDigits third.reverse ++ byteDigits rest))) =
        some (first ++ second ++ third ++ rest) := by
  have digits₁ : (byteDigits first.reverse).length = 8 := by
    rw [length_byteDigits, List.length_reverse, h₁]
  have digits₂ : (byteDigits second.reverse).length = 4 := by
    rw [length_byteDigits, List.length_reverse, h₂]
  have digits₃ : (byteDigits third.reverse).length = 4 := by
    rw [length_byteDigits, List.length_reverse, h₃]
  have last := hexNumber?_byteDigits_reverse rest.reverse
  rw [List.reverse_reverse] at last
  -- The later fields are cut off one after the other.
  have drop₁₂ (cs : List Char) : cs.drop 12 = (cs.drop 8).drop 4 := by rw [List.drop_drop]
  have drop₁₆ (cs : List Char) : cs.drop 16 = ((cs.drop 8).drop 4).drop 4 := by
    rw [List.drop_drop, List.drop_drop]
  rw [guidBytes?, drop₁₂, drop₁₆, List.take_left' digits₁, List.drop_left' digits₁,
    List.take_left' digits₂, List.drop_left' digits₂, List.take_left' digits₃,
    List.drop_left' digits₃]
  simp only [hexNumber?_byteDigits_reverse, last, Option.bind_eq_bind, Option.bind_some,
    Option.pure_def]
  rw [littleEndianBytes_of_length h₁, littleEndianBytes_of_length h₂,
    littleEndianBytes_of_length h₃, littleEndianBytes_of_length (by simpa using h₄),
    List.reverse_reverse]

theorem isGuid_guidText {digest : List UInt8} (enough : 16 ≤ digest.length) :
    IsGuid digest (guidText digest) where
  length := length_guidText digest
  digits := by
    intro c mem
    obtain ⟨i, -, inside⟩ := List.mem_flatMap.1 mem
    exact Text.forall_mem_hexDigits (by decide) _ _ c inside
  bytes := by
    have whole : digest.take 16 =
        field digest 0 4 ++ field digest 4 2 ++ field digest 6 2 ++ field digest 8 8 := by
      rw [show 16 = 4 + 2 + 2 + 8 from rfl, List.take_add, List.take_add, List.take_add]
      rfl
    rw [guidText_eq enough, guidBytes?_of_fields (length_field (by omega))
      (length_field (by omega)) (length_field (by omega)) (length_field (by omega)), whole]

/-! ## Short hashes -/

/-- The digits of a short hash: numbers below sixty-four as letters and numerals, of which the
first two letters in lower case are used twice. -/
def shortHashAlphabet : List Char :=
  "ABCDEFGHIJKLMNOPQRSTUVWXYZabcdefghijklmnopqrstuvwxyz0123456789ab".toList

def shortHashLetter (n : Nat) : Char :=
  shortHashAlphabet.getD n 'A'

/-- The last digits of a number in base sixty-four, the most significant first. -/
def sextets : Nat → Nat → List Nat
  | 0, _ => []
  | count + 1, n => sextets count (n / 64) ++ [n % 64]

/-- The text of a short hash: the first forty-eight bits of the digest in digits of six bits
each. -/
structure IsShortHash (digest : List UInt8) (text : List Char) : Prop where
  length : text.length = 8
  alphanumeric : ∀ c ∈ text, c.isAlphanum = true
  digits : text = (sextets 8 (littleEndian (digest.take 6).reverse)).map shortHashLetter

@[simp] theorem length_sextets (count n : Nat) : (sextets count n).length = count := by
  induction count generalizing n with
  | zero => rfl
  | succ count ih => simp [sextets, ih]

theorem lt_of_mem_sextets {count n d : Nat} (h : d ∈ sextets count n) : d < 64 := by
  induction count generalizing n with
  | zero => cases h
  | succ count ih =>
    rw [sextets, List.mem_append, List.mem_singleton] at h
    rcases h with h | rfl
    · exact ih h
    · exact Nat.mod_lt _ (by decide)

theorem sextets_append {m n high low : Nat} (small : low < Nat.pow 64 n) :
    sextets (m + n) (high * Nat.pow 64 n + low) = sextets m high ++ sextets n low := by
  induction n generalizing low with
  | zero =>
    obtain rfl : low = 0 := by simpa using small
    simp [sextets]
  | succ n ih =>
    have more : Nat.pow 64 (n + 1) = 64 * Nat.pow 64 n := Nat.pow_succ'
    have front : (high * Nat.pow 64 (n + 1) + low) / 64 = high * Nat.pow 64 n + low / 64 := by
      rw [more, Nat.mul_left_comm, Nat.mul_add_div (by decide)]
    have last : (high * Nat.pow 64 (n + 1) + low) % 64 = low % 64 := by
      rw [more, Nat.mul_left_comm, Nat.mul_add_mod]
    rw [← Nat.add_assoc, sextets, front, last, ih (by omega), sextets, List.append_assoc]

/-- Three bytes are four digits of Base64. -/
theorem base64_cons (a b c : UInt8) (rest : List UInt8) :
    Digest.base64 (a :: b :: c :: rest) =
      (sextets 4 (littleEndian [c, b, a])).map Digest.base64Digit ++ Digest.base64 rest := by
  have := a.toNat_lt
  have := b.toNat_lt
  have := c.toNat_lt
  have first : (c.toNat + 256 * (b.toNat + 256 * (a.toNat + 256 * 0))) / 64 / 64 / 64 % 64 =
      (65536 * a.toNat + 256 * b.toNat + c.toNat) / 262144 := by omega
  have second : (c.toNat + 256 * (b.toNat + 256 * (a.toNat + 256 * 0))) / 64 / 64 % 64 =
      (65536 * a.toNat + 256 * b.toNat + c.toNat) / 4096 % 64 := by omega
  have third : (c.toNat + 256 * (b.toNat + 256 * (a.toNat + 256 * 0))) / 64 % 64 =
      (65536 * a.toNat + 256 * b.toNat + c.toNat) / 64 % 64 := by omega
  have fourth : (c.toNat + 256 * (b.toNat + 256 * (a.toNat + 256 * 0))) % 64 =
      (65536 * a.toNat + 256 * b.toNat + c.toNat) % 64 := by omega
  simp only [Digest.base64, littleEndian, sextets, first, second, third, fourth, List.nil_append,
    List.cons_append, List.map_cons, List.map_nil]

theorem isAlphanum_shortHashLetter (n : Nat) : (shortHashLetter n).isAlphanum = true := by
  have each : ('A' :: shortHashAlphabet).all Char.isAlphanum = true := by decide
  refine List.all_eq_true.1 each _ ?_
  rw [shortHashLetter, List.getD_eq_getElem?_getD]
  cases found : shortHashAlphabet[n]? with
  | none => exact List.mem_cons_self
  | some c => exact List.mem_cons_of_mem _ (List.mem_of_getElem? found)

set_option maxRecDepth 2000 in
/-- No digit is padding, and each has a letter. -/
theorem alphanumeric?_base64Digit {n : Nat} (small : n < 64) :
    alphanumeric? (Digest.base64Digit n) = some (shortHashLetter n) := by
  have each : ∀ m : Fin 64,
      alphanumeric? (Digest.base64Digit m) = some (shortHashLetter m) := by decide
  exact each ⟨n, small⟩

theorem filterMap_base64Digit {ds : List Nat} (small : ∀ d ∈ ds, d < 64) :
    (ds.map Digest.base64Digit).filterMap alphanumeric? = ds.map shortHashLetter := by
  induction ds with
  | nil => rfl
  | cons d ds ih =>
    rw [List.forall_mem_cons] at small
    rw [List.map_cons, List.filterMap_cons_some (alphanumeric?_base64Digit small.1), ih small.2,
      List.map_cons]

/-- Six bytes are all that a short hash shows. -/
theorem shortHashText_cons (a b c d e f : UInt8) (rest : List UInt8) :
    shortHashText (a :: b :: c :: d :: e :: f :: rest) =
      (sextets 8 (littleEndian [f, e, d, c, b, a])).map shortHashLetter := by
  have group : Nat.pow 64 4 = 16777216 := rfl
  have both : littleEndian [f, e, d, c, b, a] =
      littleEndian [c, b, a] * Nat.pow 64 4 + littleEndian [f, e, d] := by
    rw [group]
    simp only [littleEndian]
    omega
  have low : littleEndian [f, e, d] < Nat.pow 64 4 :=
    Nat.lt_of_lt_of_eq (littleEndian_lt [f, e, d]) (by decide : Nat.pow 16 6 = Nat.pow 64 4)
  have split : sextets 8 (littleEndian [f, e, d, c, b, a]) =
      sextets 4 (littleEndian [c, b, a]) ++ sextets 4 (littleEndian [f, e, d]) := by
    rw [both]
    exact sextets_append low
  rw [shortHashText, base64_cons, base64_cons, ← List.append_assoc, ← List.map_append, ← split,
    List.filterMap_append, filterMap_base64Digit fun _ mem => lt_of_mem_sextets mem,
    List.take_left' (by rw [List.length_map, length_sextets, shortHashLength])]

theorem isShortHash_shortHashText {digest : List UInt8} (enough : 6 ≤ digest.length) :
    IsShortHash digest (shortHashText digest) := by
  have six : digest.take 6 = (List.range' 0 6).map fun i => digest.getD i 0 :=
    field_eq_map_getD (by omega : 0 + 6 ≤ digest.length)
  have digits : shortHashText digest =
      (sextets 8 (littleEndian (digest.take 6).reverse)).map shortHashLetter := by
    calc shortHashText digest
        = shortHashText (digest.take 6 ++ digest.drop 6) := by rw [List.take_append_drop]
      _ = (sextets 8 (littleEndian (digest.take 6).reverse)).map shortHashLetter := by
        rw [six]
        exact shortHashText_cons ..
  refine ⟨?_, ?_, digits⟩
  · rw [digits, List.length_map, length_sextets]
  · intro c mem
    rw [digits] at mem
    obtain ⟨n, -, rfl⟩ := List.mem_map.1 mem
    exact isAlphanum_shortHashLetter n

/-! ## Ids for documents -/

/-- The text of an id for a document: the short hash of the same digest, with a letter in front
when it starts with a numeral. -/
structure IsHtmlId (digest : List UInt8) (text : List Char) : Prop where
  length : text.length = 8 ∨ text.length = 9
  alphanumeric : ∀ c ∈ text, c.isAlphanum = true
  letter : ∃ c ∈ text.head?, c.isAlpha = true
  hash : ∃ c rest, shortHashText digest = c :: rest ∧
    text = if c.isDigit then 'x' :: c :: rest else c :: rest

theorem isDigit_eq_false_of_isAlpha {c : Char} (h : c.isAlpha = true) : c.isDigit = false := by
  cases digit : c.isDigit with
  | false => rfl
  | true =>
    have range := Decimal.toNat_of_isDigit digit
    change (decide (65 ≤ c.val ∧ c.val ≤ 90) ||
      decide (97 ≤ c.val) && decide (c.val ≤ 122)) = true at h
    simp only [Bool.or_eq_true, Bool.and_eq_true, decide_eq_true_eq,
      UInt32.le_iff_toNat_le] at h
    change (65 ≤ c.toNat ∧ c.toNat ≤ 90) ∨ (97 ≤ c.toNat ∧ c.toNat ≤ 122) at h
    omega

theorem isHtmlId_htmlIdText {digest : List UInt8} (enough : 6 ≤ digest.length) :
    IsHtmlId digest (htmlIdText digest) := by
  have short := isShortHash_shortHashText enough
  rw [htmlIdText]
  cases hash : shortHashText digest with
  | nil =>
    rw [hash] at short
    cases short.length
  | cons c rest =>
    rw [hash] at short
    have first : c.isAlphanum = true := short.alphanumeric c List.mem_cons_self
    simp only
    by_cases letter : c.isAlpha = true
    · have notDigit : c.isDigit = false := isDigit_eq_false_of_isAlpha letter
      rw [if_pos letter]
      exact ⟨Or.inl short.length, short.alphanumeric, ⟨c, rfl, letter⟩, c, rest, hash,
        by simp [notDigit]⟩
    · have digit : c.isDigit = true := by
        rw [Char.isAlphanum, Bool.or_eq_true] at first
        exact first.resolve_left letter
      rw [if_neg letter]
      refine ⟨Or.inr ?_, ?_, ⟨'x', rfl, by decide⟩, c, rest, hash, by simp [digit]⟩
      · rw [List.length_cons, short.length]
      · intro d mem
        rcases List.mem_cons.1 mem with rfl | mem
        · decide
        · exact short.alphanumeric d mem

/-! ## Timestamps -/

/-- The number that bytes stand for as a signed word of sixty-four bits, the least significant
byte first. -/
def IsSignedWord (bytes : List UInt8) (w : Int) : Prop :=
  -0x8000000000000000 ≤ w ∧ w < 0x8000000000000000 ∧
    (w - littleEndian bytes) % 0x10000000000000000 = 0

/-- The text of a timestamp: a number in the window of timestamps, as far from the start of the
window as the first eight bytes say, whatever their sign. -/
structure IsTimestamp (digest : List UInt8) (text : List Char) : Prop where
  length : text.length = 13
  digits : ∀ c ∈ text, c.isDigit = true
  number : ∃ (n : Nat) (w : Int), text = Decimal.naturalText n ∧
    1700000000000 ≤ n ∧ n < 1800000000000 ∧ IsSignedWord (digest.take 8) w ∧
      n % 100000000000 = w.natAbs % 100000000000

theorem isSignedWord_signedWord {bytes : List UInt8} (few : bytes.length ≤ 8) :
    IsSignedWord bytes (signedWord (littleEndian bytes)) := by
  have below : littleEndian bytes < 0x10000000000000000 :=
    Nat.lt_of_lt_of_le (littleEndian_lt bytes)
      (Nat.pow_le_pow_right (by decide) (by omega : 2 * bytes.length ≤ 16))
  unfold IsSignedWord signedWord
  split <;> omega

theorem isTimestamp_timestampText (digest : List UInt8) :
    IsTimestamp digest (timestampText digest) := by
  have word := isSignedWord_signedWord (List.length_take_le 8 digest)
  have some : timestampText digest = Decimal.naturalText (timestampBase +
      (signedWord (littleEndian (digest.take 8))).natAbs % timestampWindow) := rfl
  generalize signedWord (littleEndian (digest.take 8)) = w at word some
  have least : 1700000000000 ≤ timestampBase + w.natAbs % timestampWindow := by
    simp only [timestampBase, timestampWindow]
    omega
  have less : timestampBase + w.natAbs % timestampWindow < 1800000000000 := by
    simp only [timestampBase, timestampWindow]
    omega
  rw [some]
  refine ⟨?_, fun c mem => Decimal.isDigit_of_mem_naturalText mem, _, w, rfl, least, less, word, ?_⟩
  · exact Decimal.length_naturalText (k := 12) (by decide) (Nat.le_trans (by decide) least)
      (Nat.lt_trans less (by decide))
  · simp only [timestampBase, timestampWindow]
    omega

/-! ## All formats -/

/-- What the base of a literal looks like in a format, and what it shows of the digest. -/
def HasShape : Format → List UInt8 → List Char → Prop
  | .guid => IsGuid
  | .htmlId => IsHtmlId
  | .timestamp => IsTimestamp
  | .shortHash => IsShortHash

theorem hasShape_render (format : Format) {digest : List UInt8} (length : digest.length = 32) :
    HasShape format digest (render format digest) := by
  cases format with
  | guid => exact isGuid_guidText (by omega)
  | htmlId => exact isHtmlId_htmlIdText (by omega)
  | timestamp => exact isTimestamp_timestampText digest
  | shortHash => exact isShortHash_shortHashText (by omega)

/-- Every literal is its lead, if there is one, and a base of the shape of its format; the digest
has a say only through its thirty-two bytes. -/
theorem literal_hasShape :
    (∀ (format : Format) (digest : List UInt8), digest.length = 32 →
      HasShape format digest (render format digest)) ∧
    ∀ (key : String) (ordinal : Int) (format : Format) (lead : Option String), ∃ base,
      literal key ordinal format lead = lead.getD "" ++ String.ofList base ∧
        (digest key ordinal format).length = 32 ∧
          HasShape format (digest key ordinal format) base := by
  constructor
  · intro format digest length
    exact hasShape_render format length
  · intro key ordinal format lead
    have length : (digest key ordinal format).length = 32 := Digest.length_sha256 _
    exact ⟨_, rfl, length, hasShape_render format length⟩

/-- The least signed word, whose absolute value is no signed word, gives a timestamp too. -/
theorem literal_hasShape_least_word :
    let digest : List UInt8 := [0, 0, 0, 0, 0, 0, 0, 0x80] ++ List.replicate 24 0xff
    digest.length = 32 ∧ HasShape .timestamp digest (render .timestamp digest) ∧
      IsSignedWord (digest.take 8) (-0x8000000000000000) ∧
        render .timestamp digest = "1736854775808".toList := by
  intro digest
  have length : digest.length = 32 := by decide
  have shape := literal_hasShape.1 .timestamp digest length
  have least : IsSignedWord (digest.take 8) (-0x8000000000000000) := by
    unfold IsSignedWord
    decide
  exact ⟨length, shape, least, by decide⟩

end CallSiteIds.Literal
