import CalleeFirst.Text.Identifier

/-! Words: identifiers and keywords.

A word may be marked raw, which takes it out of the keywords; the few words that name
a place in the module tree, and the underscore, cannot be raw. -/
namespace CalleeFirst.Lexeme

open Text (isIdentifierStart isIdentifierContinue)

/-- The longest identifier at the start of the text. -/
def identifierLength : List Char → Option Nat
  | [] => none
  | c :: rest =>
    if isIdentifierStart c then some ((rest.takeWhile isIdentifierContinue).length + 1) else none

/-- Words that cannot be raw. -/
def neverRaw : List String := ["_", "super", "self", "Self", "crate"]

/-- An identifier, raw or not. -/
def anyWordLength : List Char → Option Nat
  | 'r' :: '#' :: rest => do
    let n ← identifierLength rest
    if neverRaw.contains (String.ofList (rest.take n)) then none else some (n + 2)
  | text => identifierLength text

/-- What starts a string or byte literal, so that no word starts there. -/
def quoteOpeners : List (List Char) :=
  [['r', '"'], ['r', '#', '"'], ['r', '#', '#'], ['b', '"'], ['b', '\''], ['b', 'r', '"'],
   ['b', 'r', '#'], ['c', '"'], ['c', 'r', '"'], ['c', 'r', '#']]

def wordLength (text : List Char) : Option Nat :=
  if quoteOpeners.any (·.isPrefixOf text) then none else anyWordLength text

end CalleeFirst.Lexeme
