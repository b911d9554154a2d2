import CalleeFirst.Cancellation

/-! The call graph of a batch.

Nodes are the indices of the batch. A call by name goes to every callable sibling of
that name, so a call of an overloaded name depends on all overloads, and a name that
no sibling has is no call at all. -/
namespace CalleeFirst

structure Edge where
  caller : Nat
  callee : Nat
  deriving Repr, DecidableEq

structure CallGraph where
  nodes : Nat
  edges : List Edge
  deriving Repr, DecidableEq

namespace CallGraph

/-- The callable declarations of a name, ascending. -/
def targets (batch : List Declaration) (name : String) : List Nat :=
  batch.zipIdx.filterMap fun (d, index) => if d.callable && d.name == name then some index else none

/-- The calls of one declaration, by called name and then by callee. -/
def callsOf (batch : List Declaration) (d : Declaration) : List Nat :=
  if d.callable then d.calls.toList.flatMap (targets batch) else []

def ofBatch (batch : List Declaration) : CallGraph where
  nodes := batch.length
  edges := batch.zipIdx.flatMap fun (d, caller) => (callsOf batch d).map (Edge.mk caller)

/-- Polls once for every declaration. -/
def build (probe : Probe) (batch : List Declaration) : Polling CallGraph := do
  Polling.checkpoints probe batch.length
  return ofBatch batch

end CallGraph

end CalleeFirst
