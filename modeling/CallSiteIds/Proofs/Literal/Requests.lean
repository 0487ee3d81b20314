import CallSiteIds.Literal.Derivation
import CallSiteIds.Proofs.Location.Keys
import CallSiteIds.Proofs.Text.Encoding

/-!
# Requests are told apart by their bytes

What is hashed for a literal is the key of the call site, the position of the parameter and the
salt of the format, joined without escapes.  The position and the salt hold no separator, so the
bytes determine all three, and with the key the file, the line and the column
(`request_bytes_injective`).  Two requests share a digest only if the digest itself collides.
-/

set_option autoImplicit false

namespace CallSiteIds.Literal

open Location (Position)

theorem salt_injective : Function.Injective Format.salt := by
  have found : ∀ f : Format, Format.all.find? (fun g => g.salt == f.salt) = some f := by
    intro f
    cases f <;> decide
  intro f g h
  have same := found f
  rw [h, found g] at same
  injection same with same
  exact same.symm

theorem separator_notMem_salt (f : Format) : ':' ∉ f.salt.toList := by
  cases f <;> decide

/-- The hashed text determines the key, the position of the parameter and the format. -/
theorem request_injective {key key' : String} {ordinal ordinal' : Int} {f f' : Format}
    (h : request key ordinal f = request key' ordinal' f') :
    key = key' ∧ ordinal = ordinal' ∧ f = f' := by
  have texts := String.ofList_injective h
  have regroup (k : String) (o : Int) (g : Format) : requestText k.toList o g =
      (k.toList ++ ':' :: Decimal.integerText o) ++ ':' :: g.salt.toList := by
    simp [requestText]
  rw [regroup, regroup] at texts
  obtain ⟨front, hs⟩ := Text.append_cons_inj (separator_notMem_salt f)
    (separator_notMem_salt f') texts
  obtain ⟨hk, ho⟩ := Text.append_cons_inj (Location.separator_notMem_integerText ordinal)
    (Location.separator_notMem_integerText ordinal') front
  exact ⟨String.toList_inj.1 hk, Decimal.integerText_injective ho,
    salt_injective (String.toList_inj.1 hs)⟩

/-- Two positions in a file have keys, and the bytes that are hashed for them are equal only if
the files, the lines, the columns, the parameters and the formats are; for texts that are no keys
of positions the bytes still determine the text, the parameter and the format. -/
theorem request_bytes_injective :
    (∀ (p p' : Position) (ordinal ordinal' : Int) (f f' : Format),
      0 ≤ p.line → 0 ≤ p.column → 0 ≤ p'.line → 0 ≤ p'.column →
        ∃ key key', p.key = .ok key ∧ p'.key = .ok key' ∧
          (Text.utf8 (request key ordinal f) = Text.utf8 (request key' ordinal' f') →
            p.file = p'.file ∧ p.line = p'.line ∧ p.column = p'.column ∧
              ordinal = ordinal' ∧ f = f')) ∧
      ∀ (key key' : String) (ordinal ordinal' : Int) (f f' : Format),
        Text.utf8 (request key ordinal f) = Text.utf8 (request key' ordinal' f') →
          key = key' ∧ ordinal = ordinal' ∧ f = f' := by
  constructor
  · intro p p' ordinal ordinal' f f' hl hc hl' hc'
    have hp := Location.key_eq_ok_iff.2 ⟨⟨hl, hc⟩, rfl⟩
    have hp' := Location.key_eq_ok_iff.2 ⟨⟨hl', hc'⟩, rfl⟩
    refine ⟨_, _, hp, hp', ?_⟩
    intro h
    obtain ⟨hk, ho, hf⟩ := request_injective (Text.utf8_injective h)
    obtain rfl := Location.eq_of_key_eq hp (hk ▸ hp')
    exact ⟨rfl, rfl, rfl, ho, hf⟩
  · intro key key' ordinal ordinal' f f' h
    exact request_injective (Text.utf8_injective h)

/-- A path that ends like a line number is told apart from the path before it, although the two
hashed texts `a:1:2:3:4:guid` and `a:1:2:3:guid` agree up to one number. -/
theorem request_bytes_of_numbered_path :
    ∃ key key', Position.key ⟨"a:1", 2, 3⟩ = .ok key ∧ Position.key ⟨"a", 1, 2⟩ = .ok key' ∧
      Text.utf8 (request key 4 .guid) ≠ Text.utf8 (request key' 3 .guid) := by
  obtain ⟨key, key', h, h', separated⟩ := request_bytes_injective.1 ⟨"a:1", 2, 3⟩ ⟨"a", 1, 2⟩ 4 3
    .guid .guid (by decide) (by decide) (by decide) (by decide)
  refine ⟨key, key', h, h', ?_⟩
  intro e
  exact absurd (separated e).1 (by decide)

end CallSiteIds.Literal
