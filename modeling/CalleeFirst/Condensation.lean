import CalleeFirst.CallGraph

/-! Cycles of calls as units.

Declarations that call each other, directly or through others, form a component. Who
reaches whom is computed pivot by pivot: a row is the set of nodes that a node
reaches, kept as the bits of a number, and admitting a pivot joins the pivot's row to
every row that holds it. Components are numbered by their smallest member. -/
namespace CalleeFirst

namespace CallGraph

/-- Bit `j` of row `i` is set when `i` calls `j`. -/
def adjacency (g : CallGraph) : List Nat :=
  let rows := g.edges.foldl
    (fun rows e => rows.modify e.caller (· ||| (1 <<< e.callee))) (Array.replicate g.nodes 0)
  rows.toList

/-- Lets paths go through one more node. -/
def admitPivot (rows : List Nat) (pivot : Nat) : List Nat :=
  let through := rows.getD pivot 0
  rows.map fun row => if row.testBit pivot then row ||| through else row

/-- Bit `j` of row `i` is set when a path of at least one call leads from `i` to `j`. -/
def reachability (g : CallGraph) : List Nat :=
  (List.range g.nodes).foldl admitPivot g.adjacency

end CallGraph

structure Component where
  /-- Ascending. -/
  members : List Nat
  /-- Whether a member calls itself, directly or through others. -/
  cyclic : Bool
  /-- The other components that members call. -/
  dependencies : List Nat
  /-- The other components whose members call into this one. -/
  dependents : List Nat
  deriving Repr, DecidableEq

structure Condensation where
  components : List Component
  /-- The component of every node. -/
  labels : Array Nat
  deriving Repr, DecidableEq

namespace Condensation

def size (c : Condensation) : Nat := c.components.length

def isEmpty (c : Condensation) : Bool := c.components.isEmpty

def componentOf (c : Condensation) (node : Nat) : Nat := c.labels.getD node 0

/-- The smallest node that `node` shares its component with. -/
def leader (rows : Array Nat) (node : Nat) : Nat :=
  let row := rows.getD node 0
  ((List.range node).find? fun other =>
    row.testBit other && (rows.getD other 0).testBit node).getD node

def ofGraph (g : CallGraph) : Condensation :=
  let rows := g.reachability.toArray
  let nodes := List.range g.nodes
  let leaders := nodes.map (leader rows)
  let roots := nodes.filter fun node => leaders.getD node 0 == node
  let labels := (leaders.map roots.idxOf).toArray
  let links := (g.edges.map fun e => (labels.getD e.caller 0, labels.getD e.callee 0)).filter
    fun link => link.1 != link.2
  let numbers := List.range roots.length
  let component (number : Nat) : Component :=
    let members := nodes.filter fun node => labels.getD node 0 == number
    let out := (links.filter fun link => link.1 == number).map Prod.snd
    let into := (links.filter fun link => link.2 == number).map Prod.fst
    { members
      cyclic := members.any fun node => (rows.getD node 0).testBit node
      dependencies := numbers.filter out.contains
      dependents := numbers.filter into.contains }
  { components := numbers.map component, labels }

end Condensation

end CalleeFirst
