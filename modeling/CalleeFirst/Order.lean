import CalleeFirst.Batch
import CalleeFirst.Ranking
import CalleeFirst.Sequencer

/-! The order of a batch.

What is called comes before its callers, cycles stay together, and where calls leave
the order open the ranking decides. -/
namespace CalleeFirst

/-- The groups of a batch in their order. An invalid batch is refused before the first
poll; a valid one polls once for every declaration, once more, and once for every
group. -/
def orderGroups (probe : Probe) (settings : Settings) (batch : List Declaration) :
    Polling (List Group) := do
  match Batch.check batch with
  | .error defect => throw (Fault.invalid defect)
  | .ok () =>
    let graph ← CallGraph.build probe batch
    let condensation := Condensation.ofGraph graph
    Polling.checkpoint probe
    let ranks := (settings.ranks batch).toArray
    Sequencer.sequence condensation (fun node => ranks.getD node 0) probe

/-- The order as a permutation: entry `k` is the index of the declaration at place `k`. -/
def computeOrder (probe : Probe) (settings : Settings) (batch : List Declaration) :
    Polling (List Nat) := do
  let groups ← orderGroups probe settings batch
  return groups.flatMap Group.members

end CalleeFirst
