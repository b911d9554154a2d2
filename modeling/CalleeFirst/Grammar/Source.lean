import CalleeFirst.Grammar.Item

/-! Whole texts.

The rules are tied together by a bound on how often they may go through each other,
which the number of tokens of a text always satisfies: between two uses of a rule at the
same place at most a few others are gone through. The body of a macro is read as a text of
its own. -/
namespace CalleeFirst.Grammar

open Lexeme (Position Tree)
open Reader Rule
open Syntax (Block Item MemberKind Node VisibilityMark)

/-- Reads all of the trees. What is left over in a group or in the end is a failure. -/
def readAll (reader : Reader α) (trees : List Tree) : Except Position α := do
  let (value, s) ← reader.run { rest := trees, stop := .start }
  match s.stray, s.rest with
  | some place, _ => throw place
  | none, tree :: _ => throw tree.start
  | none, [] => return value

/-- The rules, going through each other at most `depth` times. -/
def rules (arguments : List Tree → List Node) : (depth : Nat) → Rules
  | 0 =>
    { type := fun _ => failHere
      bound := fun _ _ => failHere
      expression := fun _ => failHere
      operand := fun _ => failHere
      operators := fun _ _ _ => failHere
      standing := failHere
      pattern := failHere
      alternatives := failHere
      statements := failHere
      item := fun _ => failHere
      useTree := fun _ => failHere
      arguments }
  | depth + 1 =>
    { type := fun plus => deferred fun _ => type (rules arguments depth) plus
      bound := fun capturing constant => deferred fun _ =>
        bound (rules arguments depth) capturing constant
      expression := fun structs => deferred fun _ => expression (rules arguments depth) structs
      operand := fun structs => deferred fun _ => operand (rules arguments depth) structs
      operators := fun left structs base => deferred fun _ =>
        operators (rules arguments depth) left structs base
      standing := deferred fun _ => standing (rules arguments depth)
      pattern := deferred fun _ => pattern (rules arguments depth)
      alternatives := deferred fun _ => alternatives (rules arguments depth)
      statements := deferred fun _ => statements (rules arguments depth)
      item := fun attributes => deferred fun _ => item (rules arguments depth) attributes
      useTree := fun root => deferred fun _ => useTree (rules arguments depth) root
      arguments }

/-- A bound that fits the trees. -/
def depthFor (trees : List Tree) : Nat := 64 * (Lexeme.weight trees + 4)

/-- The expressions that trees are a list of, with commas between them and perhaps behind the
last. The body of a macro among them is lighter than the trees. -/
def expressionList (trees : List Tree) : Except Position (List Node) :=
  let arguments (inner : List Tree) :=
    if Lexeme.weight inner < Lexeme.weight trees then (expressionList inner).toOption.getD []
    else []
  let g := rules arguments (depthFor trees)
  readAll (commas (one (g.expression true))) trees
termination_by Lexeme.weight trees

/-- The rules for a whole text. -/
def rulesFor (trees : List Tree) : Rules :=
  rules (fun inner => (expressionList inner).toOption.getD []) (depthFor trees)

/-- The implementation blocks of a source text, in order. -/
def blocks (trees : List Tree) : Except Position (List Block) :=
  let g := rulesFor trees
  readAll (do
    let _ ← innerAttributes g
    let items ← Reader.untilEnd do g.item (← outerAttributes g)
    return items.flatMap Item.blocks) trees

/-- A single function of a block. -/
def function (trees : List Tree) : Except Position MemberKind :=
  let g := rulesFor trees
  readAll (do
    let _ ← outerAttributes g
    memberFunction g false) trees

/-- A single visibility; the empty text is one. -/
def visibilityMark (trees : List Tree) : Except Position VisibilityMark :=
  readAll (return (← visibility).1) trees

end CalleeFirst.Grammar
