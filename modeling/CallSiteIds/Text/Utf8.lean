/-!
# Text as bytes

Files hold bytes; text is encoded as UTF-8.  The decoder accepts exactly the well-formed
sequences: no overlong form, no surrogate, nothing above the last code point.
-/

set_option autoImplicit false

namespace CallSiteIds.Text

/-- The UTF-8 encoding of a text. -/
def encodeUtf8 (cs : List Char) : List UInt8 :=
  cs.flatMap String.utf8EncodeChar

/-- The UTF-8 encoding of a string. -/
def utf8 (s : String) : List UInt8 :=
  encodeUtf8 s.toList

/-- Tells whether a byte continues a sequence, and gives its six payload bits. -/
def continuation? (b : UInt8) : Option Nat :=
  if 0x80 ≤ b.toNat ∧ b.toNat < 0xc0 then some (b.toNat - 0x80) else none

/-- The text that a byte sequence encodes, if it is well formed. -/
def decodeUtf8? : List UInt8 → Option (List Char)
  | [] => some []
  | a :: rest =>
    if a.toNat < 0x80 then (decodeUtf8? rest).map (Char.ofNat a.toNat :: ·)
    else match rest with
      | [] => none
      | b :: rest =>
        match continuation? b with
        | none => none
        | some y =>
          if a.toNat < 0xc2 then none
          else if a.toNat < 0xe0 then
            (decodeUtf8? rest).map (Char.ofNat (64 * (a.toNat - 0xc0) + y) :: ·)
          else match rest with
            | [] => none
            | c :: rest =>
              match continuation? c with
              | none => none
              | some z =>
                let three := 4096 * (a.toNat - 0xe0) + 64 * y + z
                if a.toNat < 0xf0 then
                  if three < 0x800 || (0xd800 ≤ three && three < 0xe000) then none
                  else (decodeUtf8? rest).map (Char.ofNat three :: ·)
                else match rest with
                  | [] => none
                  | d :: rest =>
                    match continuation? d with
                    | none => none
                    | some w =>
                      let four := 262144 * (a.toNat - 0xf0) + 4096 * y + 64 * z + w
                      if four < 0x10000 || 0x110000 ≤ four then none
                      else (decodeUtf8? rest).map (Char.ofNat four :: ·)

/-- The string that a byte sequence encodes, if it is well formed. -/
def stringOfUtf8? (bytes : List UInt8) : Option String :=
  (decodeUtf8? bytes).map String.ofList

end CallSiteIds.Text
