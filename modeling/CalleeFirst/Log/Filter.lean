import CalleeFirst.Log.Event

/-! Which events are shown.

A filter is a list of rules, each a beginning of an area's name and how verbose that
area may be. Of the rules that fit an area the one with the longest beginning counts.
The rule without a beginning is the user's to override for areas, but its verbosity is
set by the program. -/
namespace CalleeFirst.Log

structure Rule where
  /-- How the names of the areas begin that the rule is about. -/
  areas : String
  /-- The most verbose level that is shown, zero for none. -/
  verbosity : Nat
  deriving Repr, DecidableEq

abbrev Filter := List Rule

namespace Filter

/-- How verbose a word or a digit says to be. -/
def verbosity? (text : String) : Option Nat :=
  ["off", "error", "warn", "info", "debug", "trace"].idxOf? text.toLower
    <|> ["0", "1", "2", "3", "4", "5"].idxOf? text

/-- One item of a filter: a level, an area, or both. An area alone shows everything. -/
def rule? (item : String) : Option Rule :=
  match item.splitOn "=" with
  | [single] =>
    match verbosity? single with
    | some verbosity => some ⟨"", verbosity⟩
    | none => if single = "" then none else some ⟨single, Level.trace.verbosity⟩
  | [areas, level] => (verbosity? level).map (⟨areas, ·⟩)
  | _ => none

/-- The filter with a rule set. -/
def put (filter : Filter) (rule : Rule) : Filter :=
  filter.filter (fun old => old.areas != rule.areas) ++ [rule]

/-- Reads a filter; items that mean nothing are passed over, and the rule for all areas
is the default. -/
def ofText (default : Level) (text : String) : Filter :=
  let rules := (text.splitOn ",").filterMap rule?
  (rules.foldl put []).put ⟨"", default.verbosity⟩

/-- The rule with the longest beginning of those that fit an area. -/
def ruleFor? (filter : Filter) (area : Area) : Option Rule :=
  filter.foldl
    (fun best rule =>
      if !rule.areas.toList.isPrefixOf area.name.toList then best
      else match best with
        | some old => if old.areas.length < rule.areas.length then some rule else some old
        | none => some rule)
    none

def admits (filter : Filter) (e : Event) : Bool :=
  match filter.ruleFor? e.area with
  | some rule => e.level.verbosity ≤ rule.verbosity
  | none => false

end Filter

end CalleeFirst.Log
