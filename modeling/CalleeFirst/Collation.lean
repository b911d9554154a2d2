import CalleeFirst.Text.Lowercase

/-! How names are compared.

`ordinal` is the order of code points. `natural` first compares the names spelled in
lower case throughout, so that `apple` stands before `Banana`; only names that agree
there are told apart by case, and then the first differing character decides, lower
case before the rest. -/
namespace CalleeFirst

inductive Collation where
  | natural
  | ordinal
  deriving Repr, DecidableEq

namespace Collation

/-- The characters of a name, each spelled in lower case. -/
def folded (name : String) : List Char := name.toList.flatMap Text.lowercase

/-- Lower case before the rest, then by code point. -/
def compareCase (a b : Char) : Ordering :=
  (compare (!Text.isLowercase a) (!Text.isLowercase b)).then (compare a b)

def compareNames : Collation → String → String → Ordering
  | ordinal, a, b => List.compareLex compare a.toList b.toList
  | natural, a, b =>
    (List.compareLex compare (folded a) (folded b)).then
      (List.compareLex compareCase a.toList b.toList)

def name : Collation → String
  | natural => "natural"
  | ordinal => "ordinal"

def ofName? (text : String) : Option Collation :=
  [natural, ordinal].find? (·.name == text)

/-- What is said of a text that names no collation. -/
def unknownMessage (text : String) : String :=
  s!"unknown collation '{text}' (expected 'natural' or 'ordinal')"

@[simp] theorem ofName?_name (c : Collation) : ofName? c.name = some c := by
  cases c <;> decide

end Collation

end CalleeFirst
