import CalleeFirst.Lexeme.Tree

/-! Syntax trees.

A node is a token, a delimited group of nodes, or a phrase: a few nodes that belong
together, with the form that says what they are. Most phrases have no form of their
own, because nobody asks what they are; the forms are those that decide how the text
goes on, what a type is called, and what a function calls.

Nodes keep the order of the source. `Node.trees` are the tokens of a node as they are
written out again: in generic arguments lifetimes come first. -/
namespace CalleeFirst.Syntax

open Lexeme (Delimiter Tree Span)

/-- What a path stands for. -/
inductive PathRole where
  /-- A value, in an expression or a pattern. -/
  | value
  | type
  /-- A trait, a macro, a constructor and so on. -/
  | other
  deriving Repr, DecidableEq

/-- What a generic argument is. -/
inductive ArgumentRole where
  | lifetime
  | type
  /-- A constant, a binding or a constraint. -/
  | other
  deriving Repr, DecidableEq

inductive Form where
  | plain
  /-- Attributes, and last what they stand on. -/
  | attributed
  /-- An expression in parentheses. -/
  | paren
  /-- `qualified` if it starts with a type in angle brackets. -/
  | path (role : PathRole) (qualified : Bool)
  | segment (name : String)
  /-- Generic arguments: the opening tokens, every argument, the closing token. -/
  | arguments
  /-- A generic argument with the comma behind it. -/
  | argument (role : ArgumentRole)
  /-- A trait object type without keyword that is a single bound. -/
  | loneBound
  | range
  /-- A range pattern that lacks one of its ends. -/
  | openRange
  | comparison
  /-- An expression that ends a statement without a semicolon. -/
  | blockLike
  /-- An item whose body is a scope of its own: a function or an implementation. -/
  | nested
  /-- Tokens as they are written, of which only a macro could make sense. -/
  | unread
  deriving Repr, DecidableEq

inductive Node where
  | token (tree : Tree)
  | group (delimiter : Delimiter) (span : Span) (inner : List Node)
  | phrase (form : Form) (parts : List Node)
  /-- A method call: the receiver, the method, and the tokens from the dot on. -/
  | methodCall (receiver : Node) (method : String) (rest : List Node)
  /-- A macro with its body as written. The arguments are those of a body that is a list
  of expressions; of any other body there are none. -/
  | invocation (braces : Bool) (written : List Node) (arguments : List Node)

instance : Inhabited Node := ⟨.phrase .plain []⟩

namespace Node

/-- The node without the attributes that stand on it. -/
def bare : Node → Node
  | phrase .attributed parts => parts.getLastD (phrase .attributed parts)
  | node => node

/-- Attributes of what is not read are lost. -/
def attributed (attributes : List Node) : Node → Node
  | phrase .unread parts => phrase .unread parts
  | node => if attributes.isEmpty then node else phrase .attributed (attributes ++ [node])

def form? : Node → Option Form
  | phrase form _ => some form
  | _ => none

def isForm (node : Node) (form : Form) : Bool := node.bare.form? == some form

/-! ### Paths -/

/-- The names of the segments among the parts of a path. -/
def segmentNames (parts : List Node) : List String :=
  parts.filterMap fun
    | phrase (.segment name) _ => some name
    | _ => none

/-- Whether a path has one segment, nothing before it and no arguments. -/
def isSoleWord (name : String) : List Node → Bool
  | [phrase (.segment text) [_]] => text == name
  | _ => false

/-- Whether every segment is a word without arguments. -/
def isPlainPath (parts : List Node) : Bool :=
  parts.all fun
    | phrase (.segment _) parts => parts.length == 1
    | _ => true

/-! ### Writing a node out again -/

/-- Puts arguments that are lifetimes before the others. -/
def lifetimesFirst (arguments : List (Bool × List Tree)) : List (List Tree) :=
  (arguments.filter Prod.fst ++ arguments.filter (!·.1)).map Prod.snd

def isComma : Tree → Bool
  | .mark ',' _ _ => true
  | _ => false

/-- Arguments one after the other, with a comma wherever one is missing in between. -/
def joinArguments : List (List Tree) → List Tree
  | [] => []
  | [last] => last
  | first :: second :: rest =>
    let comma := if first.getLast?.any isComma then [] else [.mark ',' false default]
    first ++ comma ++ joinArguments (second :: rest)

def isArgument : Node → Bool
  | phrase (.argument _) _ => true
  | _ => false

def isLifetimeArgument : Node → Bool
  | phrase (.argument .lifetime) _ => true
  | _ => false

mutual

def trees : Node → List Tree
  | token tree => [tree]
  | group delimiter span inner => [.group delimiter (treesAll inner) span]
  | phrase .arguments parts =>
    let tagged := treesEach parts
    let before := (tagged.takeWhile (!·.1)).flatMap (·.2.2)
    let after := ((tagged.dropWhile (!·.1)).dropWhile (·.1)).flatMap (·.2.2)
    let arguments := (tagged.filter (·.1)).map Prod.snd
    before ++ joinArguments (lifetimesFirst arguments) ++ after
  | phrase _ parts => treesAll parts
  | methodCall receiver _ rest => trees receiver ++ treesAll rest
  | invocation _ written _ => treesAll written

def treesAll : List Node → List Tree
  | [] => []
  | node :: rest => trees node ++ treesAll rest

/-- The trees of every node, with whether it is a generic argument and a lifetime. -/
def treesEach : List Node → List (Bool × Bool × List Tree)
  | [] => []
  | node :: rest => (node.isArgument, node.isLifetimeArgument, trees node) :: treesEach rest

end

/-- Attributes of a nested item belong to the item's own scope, and those of one that is not
read are not read either. -/
def attributedItem (attributes : List Node) : Node → Node
  | phrase .nested parts => phrase .nested (attributes ++ parts)
  | phrase .unread parts => phrase .unread ((treesAll attributes).map token ++ parts)
  | node => attributed attributes node

/-- A node in one line. -/
def text (node : Node) : String := Lexeme.render node.trees

end Node

end CalleeFirst.Syntax
