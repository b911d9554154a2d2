import CalleeFirst.Condensation

/-! Components in an order that puts what is called before its callers.

A component is ready when all that it depends on is placed. Of the ready components
the one whose best member has the lowest rank goes next; `pending` counts, for every
component, the dependencies that are still to be placed. -/
namespace CalleeFirst

/-- A placed component, its members best rank first. -/
structure Group where
  component : Nat
  members : List Nat
  cyclic : Bool
  deriving Repr, DecidableEq

namespace Sequencer

structure State where
  /-- By component: dependencies not placed yet. -/
  pending : Array Nat
  ready : List Nat
  placed : List Group
  deriving Repr, DecidableEq

variable (c : Condensation) (rank : Nat → Nat)

def group (number : Nat) (component : Component) : Group where
  component := number
  members := component.members.mergeSort fun a b => rank a ≤ rank b
  cyclic := component.cyclic

/-- The rank of a group's best member. -/
def representative (g : Group) : Nat := (g.members.head?.map rank).getD 0

def groups : Array Group :=
  (c.components.zipIdx.map fun (component, number) => group rank number component).toArray

/-- Nothing is placed, and what depends on nothing is ready. -/
def start : State where
  pending := (c.components.map fun component => component.dependencies.length).toArray
  ready := c.components.zipIdx.filterMap fun (component, number) =>
    if component.dependencies.isEmpty then some number else none
  placed := []

/-- Whether the first component goes before the second. -/
def precedes (key : Nat → Nat) (a b : Nat) : Bool :=
  key a < key b || (key a == key b && a < b)

/-- The first of the components in the order of `precedes`. -/
def best (key : Nat → Nat) : List Nat → Option Nat
  | [] => none
  | first :: rest => some (rest.foldl (fun a b => if precedes key b a then b else a) first)

/-- Marks one dependency of a component as placed; the component may become ready. -/
def release (s : State) (dependent : Nat) : State :=
  let left := s.pending.getD dependent 0 - 1
  { s with
    pending := s.pending.setIfInBounds dependent left
    ready := if left == 0 then dependent :: s.ready else s.ready }

/-- Places a ready component. -/
def place (all : Array Group) (s : State) (number : Nat) : State :=
  let s := { s with ready := s.ready.erase number }
  let dependents := (c.components[number]?.map Component.dependents).getD []
  let s := dependents.foldl release s
  { s with placed := s.placed ++ all[number]?.toList }

/-- Polls once for every placed component. `steps` bounds the components to place. -/
def run (probe : Probe) (all : Array Group) : Nat → State → Polling (List Group)
  | 0, s => pure s.placed
  | steps + 1, s =>
    match best (fun number => (all[number]?.map (representative rank)).getD 0) s.ready with
    | none => pure s.placed
    | some number => do
      Polling.checkpoint probe
      run probe all steps (place c all s number)

/-- Every component once, after all that it depends on. -/
def sequence (probe : Probe) : Polling (List Group) :=
  run c rank probe (groups c rank) c.size (start c)

end Sequencer

end CalleeFirst
