import CalleeFirst.Grammar.Type

/-! Generic parameters, where clauses and visibilities. -/
namespace CalleeFirst.Grammar

open Reader Rule
open Syntax (Node VisibilityMark)

/-! ### Parameters -/

def lifetimeParameter : Rule :=
  seq [lifetime,
    onlyIf (.op ":") (seq [op ":", chain (.or .end_ (.ops [",", ">"])) lifetime "+"])]

def typeParameter (g : Rules) : Rule :=
  seq [identifier,
    onlyIf (.op ":") (seq [op ":",
      chain (.or .end_ (.ops [",", ">", "="])) (boundNodes g false true) "+"]),
    onlyIf (.op "=") (seq [op "=", one (g.type true)])]

def constantParameter (g : Rules) : Rule :=
  seq [word "const", identifier, op ":", one (g.type true),
    onlyIf (.op "=") (seq [op "=", constantArgument g])]

def genericParameters (g : Rules) : Rule :=
  let parameter := seq [outerAttributes g, choose [
    (.lifetime, lifetimeParameter),
    (.identifier, typeParameter g),
    (.word "const", constantParameter g),
    (.word "_", word "_")]]
  seq [op "<", upTo (.op ">") parameter ",", op ">"]

def optionalGenerics (g : Rules) : Rule := onlyIf (.op "<") (genericParameters g)

/-- Behind the keyword of an implementation an angle bracket may open parameters or the
type of a path. Parameters start with a lifetime or name that something other than a
path follows, with an attribute, with a constant, or are none at all. -/
def genericsAhead : Look :=
  let name := Look.or (.second .lifetime) (.second .identifier)
  let sign := Look.or (.third (.ops [">", ",", "="]))
    (.and (.third (.op ":")) (.not (.third (.op "::"))))
  .and (.op "<") (.any [.second (.ops [">", "#"]), .and name sign, .second (.word "const")])

/-! ### Where clauses -/

/-- A colon that is not the start of a path separator. -/
def soleColon : Look := .and (.op ":") (.not (.op "::"))

/-- What ends a where clause and the bounds in it. -/
def whereEnd : Look := .any [.end_, .brace, .ops [",", ";", "="], soleColon]

def wherePredicate (g : Rules) : Rule := do
  if ← look (.and .lifetime (.second (.op ":"))) then
    seq [lifetime, op ":", chain (.any [.end_, .brace, .ops [",", ";", ":", "="]]) lifetime "+"]
  else
    seq [optionalBinder g, one (g.type true), op ":",
      chain whereEnd (boundNodes g false true) "+"]

def optionalWhere (g : Rules) : Rule :=
  onlyIf (.word "where") (seq [word "where", chain whereEnd (wherePredicate g) ","])

/-! ### Visibilities -/

/-- The keyword may be followed by a scope in parentheses. Parentheses that hold anything
else than a scope are not a part of the visibility: they can be a type. -/
def visibility : Reader (VisibilityMark × List Node) := do
  if !(← look (.word "pub")) then return (.absent, [])
  let keyword ← word "pub"
  match (← stream).rest with
  | .group .paren [.word scope _] _ :: _ =>
    if ["crate", "self", "super"].contains scope then
      return (.within (scope == "crate"), keyword ++ (← parens anyWord))
    else if scope == "in" then
      return (.within false, keyword ++ (← parens (seq [word "in", plainPath])))
    else return (.everywhere, keyword)
  | .group .paren (.word "in" _ :: _) _ :: _ =>
    let ((mark, nodes), span) ← inGroup .paren do
      let keyword ← word "in"
      let scope ← plainPath
      return (VisibilityMark.within (Node.isSoleWord "crate" scope), keyword ++ scope)
    return (mark, keyword ++ [.group .paren span nodes])
  | _ => return (.everywhere, keyword)

end CalleeFirst.Grammar
