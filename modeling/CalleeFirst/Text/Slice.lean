import CalleeFirst.ByteRange

/-! Pieces of a text by byte offsets.

Offsets count bytes of the UTF-8 encoding. A piece exists only if both its ends are
boundaries of characters inside the text. -/
namespace CalleeFirst.Text

/-- The number of bytes of a text. -/
def byteLength : List Char → Nat
  | [] => 0
  | c :: rest => c.utf8Size + byteLength rest

@[simp] theorem byteLength_nil : byteLength [] = 0 := rfl

@[simp] theorem byteLength_cons (c : Char) (text : List Char) :
    byteLength (c :: text) = c.utf8Size + byteLength text := rfl

theorem byteLength_append (a b : List Char) :
    byteLength (a ++ b) = byteLength a + byteLength b := by
  induction a with
  | nil => simp
  | cons c rest ih => simp [ih, Nat.add_assoc]

/-- The text before and behind a byte offset. -/
def splitAtByte : Nat → List Char → Option (List Char × List Char)
  | 0, text => some ([], text)
  | _ + 1, [] => none
  | n + 1, c :: rest =>
    if c.utf8Size ≤ n + 1 then do
      let (before, behind) ← splitAtByte (n + 1 - c.utf8Size) rest
      return (c :: before, behind)
    else none

def slice? (text : List Char) (range : ByteRange) : Option (List Char) := do
  let (_, behind) ← splitAtByte range.start text
  if range.stop < range.start then none
  let (piece, _) ← splitAtByte range.length behind
  return piece

/-- The piece, or nothing where there is none. -/
def slice (text : List Char) (range : ByteRange) : List Char := (slice? text range).getD []

/-- The text with a piece of it replaced. -/
def replaceRange (text : List Char) (range : ByteRange) (replacement : List Char) : List Char :=
  slice text ⟨0, range.start⟩ ++ replacement ++ slice text ⟨range.stop, byteLength text⟩

end CalleeFirst.Text
