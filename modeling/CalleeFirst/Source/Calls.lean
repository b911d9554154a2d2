import CalleeFirst.NameSet
import CalleeFirst.Syntax.Node

/-! What a function calls.

A function refers to a sibling by calling it as a method of `self` or by naming it as
`Self::name`, whether it is called there or passed on. Calls through any other receiver
or path are not calls of siblings. Functions and implementations inside the body are
scopes of their own; everything else is looked into, macros where their body is a list
of expressions. -/
namespace CalleeFirst.Source

open Syntax (Node)

mutual

/-- Whether an expression is `self`, perhaps in parentheses. -/
def isSelfValue : Node → Bool
  | .phrase (.path .value false) parts => Node.isSoleWord "self" parts
  | .phrase .paren [.group _ _ [inner]] => isSelfValue inner
  | .phrase .attributed parts => lastIsSelfValue parts
  | _ => false

def lastIsSelfValue : List Node → Bool
  | [] => false
  | [last] => isSelfValue last
  | _ :: next :: rest => lastIsSelfValue (next :: rest)

end

/-- The name that a path refers to among the siblings. -/
def siblingOfPath (parts : List Node) : List String :=
  match Node.segmentNames parts with
  | ["Self", name] => [name]
  | _ => []

mutual

/-- The names of siblings that a node refers to, with repetitions. -/
def references : Node → List String
  | .token _ => []
  | .group _ _ inner => referencesAll inner
  | .phrase .nested _ => []
  | .phrase (.path .value false) parts => siblingOfPath parts ++ referencesAll parts
  | .phrase _ parts => referencesAll parts
  | .methodCall receiver method rest =>
    (if isSelfValue receiver then [method] else []) ++ references receiver ++ referencesAll rest
  | .invocation _ _ arguments => referencesAll arguments

def referencesAll : List Node → List String
  | [] => []
  | node :: rest => references node ++ referencesAll rest

end

/-- The names of siblings that a body refers to. -/
def callsOf (body : List Node) : NameSet := .ofList (referencesAll body)

end CalleeFirst.Source
