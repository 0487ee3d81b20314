import CallSiteIds.Text.Lines
import CallSiteIds.Text.Utf8

/-!
# Encoding loses nothing

Decoding the encoding of a text gives the text back (`decodeUtf8?_encodeUtf8`), so different
texts have different bytes (`utf8_injective`).  A line feed among the bytes comes from a line feed
in the text, which is why a text without one is one line of a file, and no text has more
characters than its encoding has bytes.
-/

set_option autoImplicit false

namespace CallSiteIds.Text

/-! ## One character -/

/-- A byte made to continue a sequence gives its payload back. -/
theorem continuation?_payload {n : Nat} (h : n < 64) :
    continuation? (UInt8.ofNat (n + 0x80)) = some n := by
  have value : (UInt8.ofNat (n + 0x80)).toNat = n + 0x80 := by
    rw [UInt8.toNat_ofNat']
    omega
  rw [continuation?, value, if_pos (by omega)]
  simp

/-- A number that is the code point of a character is read as that character. -/
theorem ofNat_eq_of_toNat {c : Char} {n : Nat} (h : n = c.toNat) : Char.ofNat n = c := by
  rw [h, Char.ofNat_toNat]

/-- Decoding bytes that start with an encoded character gives that character first.  The cases
are the four lengths of a sequence. -/
theorem decodeUtf8?_append (c : Char) (rest : List UInt8) :
    decodeUtf8? (String.utf8EncodeChar c ++ rest) = (decodeUtf8? rest).map (c :: ·) := by
  have valid : c.toNat < 0xd800 ∨ (0xdfff < c.toNat ∧ c.toNat < 0x110000) := c.valid
  have value : c.val.toNat = c.toNat := rfl
  unfold String.utf8EncodeChar
  simp only [value]
  split
  · have lead : (UInt8.ofNat c.toNat).toNat = c.toNat := by
      rw [UInt8.toNat_ofNat']
      omega
    rw [List.singleton_append, decodeUtf8?.eq_def]
    simp only [lead]
    rw [if_pos (by omega), Char.ofNat_toNat]
  · split
    · have lead : (UInt8.ofNat (c.toNat / 64 % 0x20 + 0xc0)).toNat =
          c.toNat / 64 % 0x20 + 0xc0 := by
        rw [UInt8.toNat_ofNat']
        omega
      simp only [List.cons_append, List.nil_append]
      rw [decodeUtf8?, lead, if_neg (by omega)]
      simp only [continuation?_payload (show c.toNat % 0x40 < 64 by omega)]
      rw [if_neg (by omega), if_pos (by omega), ofNat_eq_of_toNat (c := c) (by omega)]
    · split
      · have lead : (UInt8.ofNat (c.toNat / 4096 % 0x10 + 0xe0)).toNat =
            c.toNat / 4096 % 0x10 + 0xe0 := by
          rw [UInt8.toNat_ofNat']
          omega
        simp only [List.cons_append, List.nil_append]
        rw [decodeUtf8?, lead, if_neg (by omega)]
        simp only [continuation?_payload (show c.toNat % 0x40 < 64 by omega),
          continuation?_payload (show c.toNat / 64 % 0x40 < 64 by omega)]
        rw [if_neg (by omega), if_neg (by omega), if_pos (by omega), if_neg,
          ofNat_eq_of_toNat (c := c) (by omega)]
        simp only [Bool.or_eq_true, Bool.and_eq_true, decide_eq_true_eq]
        omega
      · have lead : (UInt8.ofNat (c.toNat / 262144 % 0x08 + 0xf0)).toNat =
            c.toNat / 262144 % 0x08 + 0xf0 := by
          rw [UInt8.toNat_ofNat']
          omega
        simp only [List.cons_append, List.nil_append]
        rw [decodeUtf8?, lead, if_neg (by omega)]
        simp only [continuation?_payload (show c.toNat % 0x40 < 64 by omega),
          continuation?_payload (show c.toNat / 64 % 0x40 < 64 by omega),
          continuation?_payload (show c.toNat / 4096 % 0x40 < 64 by omega)]
        rw [if_neg (by omega), if_neg (by omega), if_neg (by omega), if_neg,
          ofNat_eq_of_toNat (c := c) (by omega)]
        simp only [Bool.or_eq_true, decide_eq_true_eq]
        omega

/-- A byte of an encoded character is either that character or no ASCII byte. -/
theorem eq_or_ge_of_mem_utf8EncodeChar {c : Char} {b : UInt8}
    (h : b ∈ String.utf8EncodeChar c) : b.toNat = c.toNat ∨ 0x80 ≤ b.toNat := by
  have value : c.val.toNat = c.toNat := rfl
  unfold String.utf8EncodeChar at h
  simp only [value] at h
  split at h
  · obtain rfl := List.mem_singleton.1 h
    left
    rw [UInt8.toNat_ofNat']
    omega
  · right
    -- Every byte of a longer sequence has its highest bit set.
    split at h
    · simp only [List.mem_cons, List.not_mem_nil, or_false] at h
      rcases h with rfl | rfl <;> rw [UInt8.toNat_ofNat'] <;> omega
    · split at h
      · simp only [List.mem_cons, List.not_mem_nil, or_false] at h
        rcases h with rfl | rfl | rfl <;> rw [UInt8.toNat_ofNat'] <;> omega
      · simp only [List.mem_cons, List.not_mem_nil, or_false] at h
        rcases h with rfl | rfl | rfl | rfl <;> rw [UInt8.toNat_ofNat'] <;> omega

/-! ## Texts -/

theorem encodeUtf8_cons (c : Char) (cs : List Char) :
    encodeUtf8 (c :: cs) = String.utf8EncodeChar c ++ encodeUtf8 cs := by
  simp [encodeUtf8]

theorem encodeUtf8_append (cs ds : List Char) :
    encodeUtf8 (cs ++ ds) = encodeUtf8 cs ++ encodeUtf8 ds := by
  simp [encodeUtf8]

/-- Decoding an encoded text gives the text back. -/
theorem decodeUtf8?_encodeUtf8 (cs : List Char) : decodeUtf8? (encodeUtf8 cs) = some cs := by
  induction cs with
  | nil => rfl
  | cons c rest ih => rw [encodeUtf8_cons, decodeUtf8?_append, ih, Option.map_some]

theorem encodeUtf8_injective : Function.Injective encodeUtf8 := by
  intro cs ds h
  have := congrArg decodeUtf8? h
  rwa [decodeUtf8?_encodeUtf8, decodeUtf8?_encodeUtf8, Option.some.injEq] at this

theorem utf8_injective : Function.Injective utf8 := by
  intro s t h
  exact String.toList_inj.1 (encodeUtf8_injective h)

/-- The bytes of a text without a line feed are no line feeds. -/
theorem ne_lineFeed_of_mem_encodeUtf8 {cs : List Char} (h : '\n' ∉ cs) {b : UInt8}
    (hb : b ∈ encodeUtf8 cs) : b ≠ lineFeed := by
  rintro rfl
  obtain ⟨c, hc, hm⟩ := List.mem_flatMap.1 hb
  rcases eq_or_ge_of_mem_utf8EncodeChar hm with e | e
  · have : c = '\n' := Char.toNat_inj.1 e.symm
    exact h (this ▸ hc)
  · exact absurd e (by decide)

/-- A text has no more characters than its bytes. -/
theorem length_le_of_decodeUtf8? {bytes : List UInt8} {cs : List Char}
    (h : decodeUtf8? bytes = some cs) : cs.length ≤ bytes.length := by
  fun_induction decodeUtf8? bytes generalizing cs with
  | case1 => simp_all
  | case2 | case6 | case10 | case14 =>
    -- A sequence of one to four bytes gives one character.
    rename_i ih
    obtain ⟨ds, hds, rfl⟩ := Option.map_eq_some_iff.1 h
    have := ih hds
    simp only [List.length_cons]
    omega
  | _ => cases h

end CallSiteIds.Text
