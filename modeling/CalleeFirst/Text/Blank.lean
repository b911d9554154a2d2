import CalleeFirst.Text.Table

/-! Blank characters.

The white space of every script, which is what separates words and what indentation
is made of. Source text knows two more separators, the marks that set the writing
direction; they show as nothing at all. -/
namespace CalleeFirst.Text

def blankTable : List (Nat × Nat) :=
  [(0x9, 0xD), (0x20, 0x20), (0x85, 0x85), (0xA0, 0xA0), (0x1680, 0x1680), (0x2000, 0x200A),
   (0x2028, 0x2029), (0x202F, 0x202F), (0x205F, 0x205F), (0x3000, 0x3000)]

def isBlank (c : Char) : Bool := within blankTable c.toNat

/-- What may stand between two tokens of source text. -/
def isSeparator (c : Char) : Bool := isBlank c || c.toNat == 0x200E || c.toNat == 0x200F

def trimStart (text : List Char) : List Char := text.dropWhile isBlank

end CalleeFirst.Text
