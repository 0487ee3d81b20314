/-!
# Lines of a file

Three conventions for the end of a line are in use.  Descriptor files end a line with a line
feed, a carriage return or both together (`splitLines`); manifests end a line with a line feed
alone (`splitFeeds`); text read for inspection has all three folded into a line feed
(`foldNewlines`).  A line that a terminator ends is a line even when it is empty, and the
text after the last terminator is one only when it is not.
-/

set_option autoImplicit false

namespace CallSiteIds.Text

/-- The line feed as a byte. -/
def lineFeed : UInt8 := 10

/-- The carriage return as a byte. -/
def carriageReturn : UInt8 := 13

/-- Puts a byte in front of the first of the following lines. -/
def pushByte (b : UInt8) : List (List UInt8) → List (List UInt8)
  | [] => [[b]]
  | line :: lines => (b :: line) :: lines

/-- Splits bytes into lines that end with a line feed, a carriage return or both. -/
def splitLines : List UInt8 → List (List UInt8)
  | [] => []
  | b :: rest =>
    if b = lineFeed then [] :: splitLines rest
    else if b = carriageReturn then
      match rest with
      | [] => [[]]
      | c :: rest' => if c = lineFeed then [] :: splitLines rest' else [] :: splitLines (c :: rest')
    else pushByte b (splitLines rest)

/-- Splits bytes into lines that end with a line feed. -/
def splitFeeds : List UInt8 → List (List UInt8)
  | [] => []
  | b :: rest => if b = lineFeed then [] :: splitFeeds rest else pushByte b (splitFeeds rest)

/-- A blank of the ASCII range. -/
def isBlankByte (b : UInt8) : Bool :=
  (9 ≤ b.toNat && b.toNat ≤ 13) || b.toNat == 32

/-- Folds every line terminator into a line feed. -/
def foldNewlines : List Char → List Char
  | [] => []
  | '\r' :: '\n' :: rest => '\n' :: foldNewlines rest
  | '\r' :: rest => '\n' :: foldNewlines rest
  | c :: rest => c :: foldNewlines rest

/-- Splitting what starts with a line and its line feed gives that line first. -/
theorem splitFeeds_append {line : List UInt8} (h : ∀ b ∈ line, b ≠ lineFeed) (rest : List UInt8) :
    splitFeeds (line ++ lineFeed :: rest) = line :: splitFeeds rest := by
  induction line with
  | nil => simp [splitFeeds]
  | cons b line ih =>
    have hb : b ≠ lineFeed := h b (by simp)
    rw [List.cons_append, splitFeeds, if_neg hb, ih fun c hc => h c (by simp [hc])]
    rfl

/-- Text without a carriage return is left as it is. -/
theorem foldNewlines_eq_self {cs : List Char} (h : '\r' ∉ cs) : foldNewlines cs = cs := by
  induction cs with
  | nil => rfl
  | cons c rest ih =>
    have hc : c ≠ '\r' := fun e => h (by simp [e])
    have hr : '\r' ∉ rest := fun e => h (by simp [e])
    unfold foldNewlines
    split
    · rename_i heq; simp_all
    · rename_i heq; simp_all
    · rename_i heq; simp_all
    · rename_i heq
      cases heq
      rw [ih hr]

end CallSiteIds.Text
