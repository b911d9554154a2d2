import CalleeFirst.Grammar.Rules

/-! Attributes, and paths of plain words.

An attribute is a path, alone, with tokens in a group, or with a value. -/
namespace CalleeFirst.Grammar

open Reader Rule
open Syntax (Form Node)

/-- Words that may be a segment of a plain path. -/
def plainSegment : Look := .or .identifier (.words ["super", "self", "Self", "crate"])

def isSegment : Node → Bool
  | .phrase (.segment _) _ => true
  | _ => false

/-- A path whose segments have no arguments. -/
def plainPath : Rule := do
  let root ← optionalOp "::"
  let segments ← repeated do
    if ← look plainSegment then
      let (name, node) ← takeWord
      let segment := Node.phrase (.segment name) [node]
      if ← look (.op "::") then return (segment :: (← op "::"), true)
      else return ([segment], false)
    else return ([], false)
  match segments.getLast? with
  | some last => if isSegment last then return root ++ segments else failHere
  | none => failHere

/-- The path of an attribute; `unsafe` may stand in its place. -/
def attributePath : Rule := do
  if ← look (.word "unsafe") then word "unsafe" else plainPath

/-- A value that is a single literal stands alone; any other is an expression, which must
not start with an attribute. -/
def attributeValue (g : Rules) : Rule := do
  let sole ← ahead do
    let value ← literal
    if ← look .end_ then return value else failHere
  if sole.isSome then literal
  else if ← look (.and (.op "#") (.second .bracket)) then failHere
  else one (g.expression true)

def attributeBody (g : Rules) : Rule := do
  let path ← attributePath
  let rest ← choose [
    (.any [.paren, .bracket, .brace], anyGroup),
    (.op "=", seq [op "=", attributeValue g]),
    (fun _ => true, empty)]
  return path ++ rest

def outerAttribute (g : Rules) : Rule := seq [op "#", brackets (attributeBody g)]

def innerAttribute (g : Rules) : Rule := seq [op "#", op "!", brackets (attributeBody g)]

/-- Attributes of what follows. -/
def outerAttributes (g : Rules) : Rule := whileLook (.op "#") (outerAttribute g)

/-- Attributes of what encloses them. -/
def innerAttributes (g : Rules) : Rule :=
  whileLook (.and (.op "#") (.second (.op "!"))) (innerAttribute g)

/-- The arguments of a macro with this body. -/
def bodyArguments (g : Rules) : Lexeme.Tree → List Node
  | .group _ inner _ => g.arguments inner
  | _ => []

/-- A macro behind its path: the exclamation mark and a group. -/
def invocation (g : Rules) (path : List Node) : Reader Node := do
  let bang ← op "!"
  let body ← treeIf (Look.any [.paren, .bracket, .brace])
  return .invocation body.isBrace (path ++ bang ++ [.token body]) (bodyArguments g body)

/-- Whether a macro's exclamation mark follows, and not a comparison. -/
def bangAhead : Look := .and (.op "!") (.not (.op "!="))

end CalleeFirst.Grammar
