import CalleeFirst.Grammar.Type

/-! Patterns. -/
namespace CalleeFirst.Grammar

open Reader Rule
open Syntax (Node)

/-! ### Ranges -/

/-- The operator of a range, and whether it includes the upper end. Three dots are an old
way to write an including range, legal only where `obsolete` says so. -/
def rangeOperator (obsolete : Bool) : Reader (Bool × List Node) := do
  if ← look (.op "..=") then return (true, ← op "..=")
  else if ← look (.op "...") then
    if obsolete then return (true, ← takeMarks "..=".toList) else failHere
  else return (false, ← op "..")

def constantBlock (g : Rules) : Rule := seq [word "const", blockBody g]

/-- What stands for a path of a value at the start of an operand or of a bound. -/
def valuePathStart : Look :=
  .any [.identifier, .ops ["::", "<"], .words ["self", "Self", "super", "crate"]]

def valuePath (g : Rules) : Reader Node := do
  let (qualified, parts) ← qualifiedPath g true
  return .phrase (.path .value qualified) parts

/-- One end of a range, or nothing before what ends a pattern. -/
def rangeBound (g : Rules) : Rule := do
  if ← look (.any [.end_, .ops ["|", "=", ",", ";"], .word "if",
      .and (.op ":") (.not (.op "::"))]) then empty
  else choose [(.literal, literal), (valuePathStart, one (valuePath g)),
    (.word "const", do return [.phrase .plain (← constantBlock g)])]

/-- The rest of a range pattern behind its lower end. -/
def rangeRest (g : Rules) (lower : List Node) : Reader Node := do
  let (closed, sign) ← rangeOperator true
  let upper ← rangeBound g
  if closed && upper.isEmpty then failHere
  return .phrase (if upper.isEmpty then .openRange else .plain) (lower ++ sign ++ upper)

/-- A range without lower end; two dots alone stand for any number of elements. -/
def rangeFromDots (g : Rules) : Reader Node := do
  let (closed, sign) ← rangeOperator false
  let upper ← rangeBound g
  if closed && upper.isEmpty then failHere
  return .phrase (if upper.isEmpty then .plain else .openRange) (sign ++ upper)

/-! ### Fields -/

/-- A whole number without suffix that fits in 32 bits. -/
def fieldIndex? (text : String) : Option Nat :=
  match wholeNumber? text with
  | some (value, []) => if value ≤ 4294967295 then some value else none
  | _ => none

/-- The name or the number of a field; the name is returned. -/
def fieldName : Reader (Option String × Node) := do
  if ← look .identifier then
    let (name, node) ← takeIdentifier
    return (some name, node)
  let place ← here
  match ← treeIf .whole with
  | .literal text span =>
    if (fieldIndex? text).isSome then return (none, .token (.literal text span)) else failAt place
  | _ => failAt place

/-- A field of a struct pattern: a binding of the field's name, or the field and a pattern. -/
def fieldPattern (g : Rules) : Rule := do
  let modifiers ← seq [optionalWord "box", optionalWord "ref", optionalWord "mut"]
  if !modifiers.isEmpty then return modifiers ++ (← identifier)
  let (name, node) ← fieldName
  if name.isNone || (← look (.op ":")) then
    return node :: (← seq [op ":", one g.alternatives])
  return [node]

def structPattern (g : Rules) : Rule := braces <| repeated do
  if ← look .end_ then return ([], false)
  let attributes ← outerAttributes g
  if ← look (.op "..") then return (attributes ++ (← op ".."), false)
  let field ← fieldPattern g
  if ← look .end_ then return (attributes ++ field, false)
  return (attributes ++ field ++ (← op ","), true)

/-! ### Patterns -/

/-- A pattern that starts with a path: a macro, a struct, a tuple, a range or the path. -/
def pathPattern (g : Rules) : Reader Node := do
  let (qualified, parts) ← qualifiedPath g true
  let head := Node.phrase (.path .other qualified) parts
  if !qualified && Node.isPlainPath parts && (← look bangAhead) then invocation g [head]
  else if ← look .brace then return .phrase .plain (head :: (← structPattern g))
  else if ← look .paren then
    return .phrase .plain (head :: (← parens (commas (one g.alternatives))))
  else
    let value := Node.phrase (.path .value qualified) parts
    if ← look (.op "..") then rangeRest g [value] else return value

def bindingPattern (g : Rules) : Rule :=
  seq [optionalWord "ref", optionalWord "mut",
    choose [(.word "self", word "self"), (fun _ => true, identifier)],
    onlyIf (.op "@") (seq [op "@", one g.pattern])]

/-- Where the operator of a range pattern stands. -/
def rangePlace (parts : List Node) : Option Lexeme.Position :=
  parts.findSome? fun
    | .token (.mark '.' _ span) => some span.start
    | _ => none

/-- An element of a slice; a range that lacks an end needs parentheses there. -/
def sliceElement (g : Rules) : Rule := do
  let element ← g.alternatives
  match element with
  | .phrase .openRange parts =>
    match rangePlace parts with
    | some place => failAt place
    | none => failHere
  | _ => return [element]

def pattern (g : Rules) : Reader Node := do
  let pathStart := Look.any [
    .and .identifier (.second (.any [.ops ["::", "!", ".."], .brace, .paren])),
    .and (.word "self") (.second (.op "::")),
    .ops ["::", "<"], .words ["Self", "super", "crate"]]
  if ← look pathStart then pathPattern g
  else if ← look (.word "_") then node .plain (word "_")
  else if ← look (.word "box") then node .plain (asWritten (seq [word "box", one g.pattern]))
  else if ← look (.any [.op "-", .literal, .word "const"]) then
    let lower ← rangeBound g
    if ← look (.op "..") then rangeRest g lower else return .phrase .plain lower
  else if ← look (.or .identifier (.words ["ref", "mut", "self"])) then
    node .plain (bindingPattern g)
  else if ← look (.op "&") then
    node .plain (seq [op "&", optionalWord "mut", one g.pattern])
  else if ← look .paren then node .plain (parens (commas (one g.alternatives)))
  else if ← look .bracket then node .plain (brackets (commas (sliceElement g)))
  else if ← look (.and (.op "..") (.not (.op "..."))) then rangeFromDots g
  else failHere

/-- A bar between two alternatives, and no other operator that starts with one. -/
def soleBar : Look := .and (.op "|") (.not (.ops ["||", "|="]))

def alternatives (g : Rules) : Reader Node := do
  let bar ← optionalOp "|"
  let first ← g.pattern
  if bar.isEmpty && !(← look soleBar) then return first
  let more ← whileLook soleBar (seq [op "|", one g.pattern])
  return .phrase .plain (bar ++ first :: more)

end CalleeFirst.Grammar
