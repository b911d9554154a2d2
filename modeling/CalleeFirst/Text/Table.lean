/-! Character properties as tables.

A property of characters that no formula gives is a list of code point intervals,
ascending and apart from each other. Alphabets that alternate capital and small
letters are strides: every second code point of an interval. -/
namespace CalleeFirst.Text

/-- The code points `first`, `first + step`, and so on up to `last`. -/
structure Stride where
  first : Nat
  last : Nat
  step : Nat

def Stride.has (s : Stride) (point : Nat) : Bool :=
  s.first ≤ point && point ≤ s.last && (point - s.first) % s.step == 0

/-- Whether one of the closed intervals holds the code point. -/
def within (table : List (Nat × Nat)) (point : Nat) : Bool :=
  table.any fun (first, last) => first ≤ point && point ≤ last

end CalleeFirst.Text
