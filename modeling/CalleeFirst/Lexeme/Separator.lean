import CalleeFirst.Text.Blank

/-! What stands between two tokens: separators and comments.

A line comment runs to the end of its line, a block comment to the delimiter that
matches its own, since block comments nest. Comments of three slashes or with an
exclamation mark document something and are tokens; with four slashes, or three
stars, they are plain comments again. Every function here measures: it says how many
characters of the text belong to what it looks for. -/
namespace CalleeFirst.Lexeme

open Text (isSeparator)

/-- Everything up to the end of the line; a carriage return before the line feed
belongs to the line end. -/
def lineLength : List Char → Nat
  | [] => 0
  | '\n' :: _ => 0
  | '\r' :: '\n' :: _ => 0
  | _ :: rest => lineLength rest + 1

/-- The rest of a block comment in which `depth` comments are open. -/
def blockRestLength : Nat → List Char → Option Nat
  | _, [] => none
  | depth, '/' :: '*' :: rest => (blockRestLength (depth + 1) rest).map (· + 2)
  | depth, '*' :: '/' :: rest =>
    if depth ≤ 1 then some 2 else (blockRestLength (depth - 1) rest).map (· + 2)
  | depth, _ :: rest => (blockRestLength depth rest).map (· + 1)

/-- A block comment; none if it is not closed. -/
def blockLength : List Char → Option Nat
  | '/' :: '*' :: rest => (blockRestLength 1 rest).map (· + 2)
  | _ => none

/-- A comment that documents nothing. -/
def commentLength : List Char → Option Nat
  | '/' :: '/' :: '!' :: _ => none
  | '/' :: '/' :: '/' :: '/' :: rest => some (lineLength rest + 4)
  | '/' :: '/' :: '/' :: _ => none
  | '/' :: '/' :: rest => some (lineLength rest + 2)
  | '/' :: '*' :: '!' :: _ => none
  | '/' :: '*' :: '*' :: '/' :: _ => some 4
  | '/' :: '*' :: '*' :: '*' :: rest => blockLength ('/' :: '*' :: '*' :: '*' :: rest)
  | '/' :: '*' :: '*' :: _ => none
  | text => blockLength text

/-- Separators and comments in any order. -/
def gapLength : List Char → Nat
  | [] => 0
  | c :: rest =>
    if isSeparator c then gapLength rest + 1
    else match commentLength (c :: rest) with
      | some n => gapLength (rest.drop (n - 1)) + n
      | none => 0
  termination_by text => text.length
  decreasing_by
    · simp
    · simp only [List.length_drop, List.length_cons]; omega

end CalleeFirst.Lexeme
