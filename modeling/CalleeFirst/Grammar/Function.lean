import CalleeFirst.Grammar.Generics
import CalleeFirst.Grammar.Operand

/-! Function signatures.

Only the first parameter can be the receiver, and only once. -/
namespace CalleeFirst.Grammar

open Lexeme (Position Tree)
open Reader Rule
open Syntax (Node Signature)

/-- A parameter: where its `self` stands if it is a receiver, else its type. -/
structure Parameter where
  receiver : Option Position := none
  type : Option Node := none
  nodes : List Node

def receiver (g : Rules) : Reader Parameter := do
  let reference ← onlyIf (.op "&") (seq [op "&", optionalLifetime])
  let mutable ← optionalWord "mut"
  let place ← here
  let keyword ← word "self"
  let type ← if reference.isEmpty then onlyIf (.op ":") (seq [op ":", one (g.type true)]) else empty
  return { receiver := some place, nodes := reference ++ mutable ++ keyword ++ type }

/-- Three dots for any number of further parameters; at most a comma follows. -/
def variadic : Rule :=
  seq [op "...", onlyIf (.not .end_) (op ",")]

/-- A parameter and whether others may follow. A type with arguments may stand without a
pattern. -/
def parameter (g : Rules) : Reader (Parameter × Bool) := do
  let attributes ← outerAttributes g
  if ← look (.op "...") then return ({ nodes := attributes ++ (← variadic) }, false)
  match ← attempt (receiver g) with
  | some self => return ({ self with nodes := attributes ++ self.nodes }, true)
  | none =>
    if ← look (.and .identifier (.second (.op "<"))) then
      let type ← g.type true
      return ({ type := some type, nodes := attributes ++ [type] }, true)
    let head ← seq [one g.pattern, op ":"]
    if ← look (.op "...") then return ({ nodes := attributes ++ head ++ (← variadic) }, false)
    let type ← g.type true
    return ({ type := some type, nodes := attributes ++ head ++ [type] }, true)

/-- The parameters behind those that were `found`. -/
def parametersUpTo (g : Rules) : (bound : Nat) → (found : List Parameter) → Reader (List Parameter)
  | 0, found => return found
  | bound + 1, found => do
    if ← look .end_ then return found
    let (next, more) ← parameter g
    match next.receiver with
    | some place => if !found.isEmpty then failAt place
    | none => pure ()
    if !more || (← look .end_) then return found ++ [next]
    let comma ← op ","
    parametersUpTo g bound (found ++ [{ next with nodes := next.nodes ++ comma }])

def parameters (g : Rules) : Reader (List Parameter) := do
  parametersUpTo g ((← stream).rest.length + 1) []

/-- Words before the keyword of a function; `safe` may be one of them where it is allowed. -/
def qualifiers (safe : Bool) : Rule :=
  let safety := if safe then Look.words ["unsafe", "safe"] else .word "unsafe"
  seq [optionalWord "const", optionalWord "async", onlyIf safety anyWord, optionalConvention]

/-- Whether a signature follows. -/
def signatureAhead (safe : Bool) : Look := fun trees =>
  match (qualifiers safe).run { rest := trees, stop := .start } with
  | .ok (_, s) => Look.word "fn" s.rest
  | .error _ => false

def signature (g : Rules) (safe : Bool) : Reader (Signature × List Node) := do
  let head ← seq [qualifiers safe, word "fn"]
  let (name, nameNode) ← takeIdentifier
  let generics ← optionalGenerics g
  let (found, span) ← inGroup .paren (parameters g)
  let output ←
    if ← look (.op "->") then pure (some (← op "->", ← g.type true)) else pure none
  let conditions ← optionalWhere g
  let nodes := head ++ nameNode :: generics
    ++ .group .paren span (found.flatMap Parameter.nodes)
    :: ((output.map fun (arrow, type) => arrow ++ [type]).getD []) ++ conditions
  return ({ name
            hasReceiver := found.head?.any (·.receiver.isSome)
            parameters := found.filterMap Parameter.type
            output := output.map Prod.snd }, nodes)

end CalleeFirst.Grammar
