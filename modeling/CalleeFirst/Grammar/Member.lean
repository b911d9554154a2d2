import CalleeFirst.Grammar.Function

/-! Implementation blocks.

A block implements a type, or a trait for a type. Functions without a body, constants
without a value and the like are accepted, because a macro may make sense of them, but
nothing is known of such a member. The same holds for a block with a visibility, a
constant block, and one whose trait is not a path: it is no block at all. -/
namespace CalleeFirst.Grammar

open Lexeme (Tree)
open Reader Rule
open Syntax (Block Item Member MemberKind Node VisibilityMark)

/-- Fails at the first of some trees further ahead. -/
def failBefore (trees : List Tree) : Reader α := do
  match trees with
  | tree :: _ => failAt tree.start
  | [] => failAt (← stream).stop

/-- What a macro among items starts with. -/
def macroStart : Look := .any [.identifier, .words ["self", "super", "crate"], .op "::"]

/-- A macro among items; without braces it needs a semicolon. -/
def macroItem (g : Rules) : Reader (List Node × List Node) := do
  let path ← plainPath
  let whole ← invocation g [.phrase (.path .other false) path]
  let semicolon ← if needsEnd whole then op ";" else empty
  return (path, whole :: semicolon)
where
  needsEnd : Node → Bool
    | .invocation braces _ _ => !braces
    | _ => true

/-- A constant behind its visibility. -/
structure Constant where
  name : String
  defined : Bool
  /-- Whether it has neither parameters nor conditions. -/
  plain : Bool
  nodes : List Node

def constantDefinition (g : Rules) : Reader Constant := do
  let keyword ← word "const"
  let (name, nameNode) ← wordIf (.or .identifier (.word "_"))
  let generics ← optionalGenerics g
  let type ← seq [op ":", one (g.type true)]
  let value ← onlyIf (.op "=") (seq [op "=", one (g.expression true)])
  let conditions ← optionalWhere g
  let semicolon ← op ";"
  return { name, defined := !value.isEmpty, plain := generics.isEmpty && conditions.isEmpty
           nodes := keyword ++ nameNode :: generics ++ type ++ value ++ conditions ++ semicolon }

/-- Where the conditions of a type alias may stand. -/
inductive ConditionPlace where
  | beforeValue
  | afterValue
  | either
  deriving DecidableEq

/-- A type alias behind its visibility. -/
structure Alias where
  name : String
  bounded : Bool
  defined : Bool
  nodes : List Node

def aliasDefinition (g : Rules) (place : ConditionPlace) : Reader Alias := do
  let keyword ← word "type"
  let (name, nameNode) ← takeIdentifier
  let generics ← optionalGenerics g
  let boundsEnd := Look.or (.word "where") (.ops ["=", ";"])
  let bounds ← onlyIf (.op ":") (seq [op ":", upTo boundsEnd (boundNodes g false true) "+"])
  let early ← if place = .afterValue then empty else optionalWhere g
  let value ← onlyIf (.op "=") (seq [op "=", one (g.type true)])
  let late ← if place = .beforeValue || !early.isEmpty then empty else optionalWhere g
  let semicolon ← op ";"
  return { name, bounded := !bounds.isEmpty, defined := !value.isEmpty
           nodes := keyword ++ nameNode :: generics ++ bounds ++ early ++ value ++ late
             ++ semicolon }

/-! ### Members -/

/-- The body of a function: its statements, the attributes in it apart. -/
def functionBody (g : Rules) : Rule := do
  let (nodes, _) ← inGroup .brace do
    let _ ← innerAttributes g
    g.statements
  return nodes

/-- A function of a block behind its attributes; `omitted` says whether the body may be
missing. -/
def memberFunction (g : Rules) (omitted : Bool) : Reader MemberKind := do
  let _ ← visibility
  let _ ← optionalWord "default"
  let (signature, _) ← signature g false
  if omitted && (← look (.op ";")) then
    let _ ← op ";"
    return .unknown
  return .function signature (← functionBody g)

/-- What stands behind the visibility of a member and behind the word that makes it a
default. -/
structure MemberHead where
  visibility : VisibilityMark
  isDefault : Bool
  rest : List Tree

/-- Looks at the head of a member without taking it. -/
def memberHead : Reader MemberHead := peek do
  let (visibility, _) ← visibility
  let isDefault ← look (.and (.word "default") (.not (.second (.op "!"))))
  let _ ← if isDefault then word "default" else empty
  return { visibility, isDefault, rest := (← stream).rest }

def memberKind (g : Rules) (head : MemberHead) : Reader MemberKind := do
  if signatureAhead false head.rest then memberFunction g true
  else if Look.word "const" head.rest then
    let _ ← visibility
    let _ ← if head.isDefault then word "default" else empty
    let found ← constantDefinition g
    return if found.defined && found.plain then .constant found.name else .unknown
  else if Look.word "type" head.rest then
    let _ ← visibility
    let _ ← optionalWord "default"
    let found ← aliasDefinition g .afterValue
    return if found.defined && !found.bounded then .alias found.name else .unknown
  else if head.visibility = .absent && !head.isDefault && macroStart head.rest then
    return .invocation (← macroItem g).1
  else failBefore head.rest

def member (g : Rules) : Reader Member := do
  let start ← here
  let _ ← outerAttributes g
  let head ← memberHead
  let kind ← memberKind g head
  return { kind, visibility := head.visibility, span := ⟨start, ← behindLast⟩ }

/-! ### Blocks -/

/-- The first character inside a group. -/
def insideOf (span : Lexeme.Span) : Lexeme.Position := ⟨span.start.line, span.start.column + 1⟩

/-- Whether a type can be the trait of an implementation. -/
def isTrait : Node → Bool
  | .phrase (.path .type false) _ => true
  | _ => false

/-- An implementation up to its brace. -/
structure BlockHead where
  start : Lexeme.Position
  selfType : Node
  trait : Option Node
  /-- Whether it is no input of a macro. -/
  plain : Bool

def blockHead (g : Rules) : Reader BlockHead := do
  let (mark, _) ← visibility
  let _ ← optionalWord "default"
  let _ ← optionalWord "unsafe"
  let start ← here
  let _ ← word "impl"
  let _ ← onlyIf genericsAhead (genericParameters g)
  let isConstant ← look (.or (.word "const") (.and (.op "?") (.second (.word "const"))))
  if isConstant then
    let _ ← optionalOp "?"
    let _ ← word "const"
  let signPlace ← here
  let isNegative ← look (.and (.op "!") (.not (.second .brace)))
  if isNegative then
    let _ ← op "!"
  let first ← g.type true
  let isFor ← look (.word "for")
  if isNegative && !isFor then failAt signPlace
  let selfType ← if isFor then do
      let _ ← word "for"
      g.type true
    else pure first
  let _ ← optionalWhere g
  return { start, selfType, trait := if isFor then some first else none
           plain := mark = .absent && !isConstant && (!isFor || isTrait first) }

/-- An implementation behind its attributes. -/
def implementation (g : Rules) : Reader (Option Block) := do
  let head ← blockHead g
  let (members, span) ← inGroup .brace do
    let _ ← innerAttributes g
    Reader.untilEnd (member g)
  if head.plain then
    return some { selfType := head.selfType, trait := head.trait, start := head.start
                  inside := insideOf span, members }
  else return none

end CalleeFirst.Grammar
