import CalleeFirst.Proofs.Bytes
import CalleeFirst.Proofs.Polling
import CalleeFirst.Proofs.Reachability

/-! The edges of a call graph, in their order.

Edges are listed by caller, then by the called name byte by byte, then by callee (`Edge.Before`):
the callers are visited in turn, each visits the names that it calls in turn, and each name leads to
the declarations of that name in turn. Nothing comes before itself, so that no edge is listed twice.

`build_edges`: a build that is not cancelled returns a graph with one node for each declaration and
exactly the calls as its edges, each once and in that order. -/
namespace CalleeFirst

namespace Batch
variable {batch : List Declaration}

/-- The name of a declaration of a batch, as bytes. -/
def nameBytes (batch : List Declaration) (i : Nat) : List UInt8 :=
  Text.bytes ((batch[i]?.map Declaration.name).getD "").toList

/-- By the bytes of the names, then by the order of the batch. -/
def NamedBefore (batch : List Declaration) (i j : Nat) : Prop :=
  nameBytes batch i < nameBytes batch j ∨ nameBytes batch i = nameBytes batch j ∧ i < j

theorem NamedBefore.ne {i j : Nat} (h : NamedBefore batch i j) : i ≠ j := by
  intro heq
  subst heq
  rcases h with h | ⟨_, h⟩
  · exact List.lt_irrefl _ h
  · exact Nat.lt_irrefl i h

theorem nameBytes_eq {i : Nat} {d : Declaration} (h : batch[i]? = some d) :
    nameBytes batch i = Text.bytes d.name.toList := by
  rw [nameBytes, h, Option.map_some, Option.getD_some]

theorem pairwise_zipIdx (batch : List Declaration) :
    batch.zipIdx.Pairwise fun a b => a.2 < b.2 := by
  rw [← List.pairwise_map, List.zipIdx_map_snd]
  exact List.pairwise_lt_range'

end Batch

/-- By caller, then by callee. -/
def Edge.Before (batch : List Declaration) (e f : Edge) : Prop :=
  e.caller < f.caller ∨ e.caller = f.caller ∧ Batch.NamedBefore batch e.callee f.callee

theorem Edge.Before.ne {batch : List Declaration} {e f : Edge} (h : e.Before batch f) : e ≠ f := by
  intro heq
  subst heq
  rcases h with h | ⟨_, h⟩
  · exact Nat.lt_irrefl _ h
  · exact h.ne rfl

namespace CallGraph
variable (batch : List Declaration)

theorem targets_sorted (name : String) : (targets batch name).Pairwise (· < ·) := by
  refine (Batch.pairwise_zipIdx batch).filterMap _ fun a b hab i hi j hj => ?_
  obtain ⟨_, hi⟩ := Option.ite_none_right_eq_some.mp hi
  obtain ⟨_, hj⟩ := Option.ite_none_right_eq_some.mp hj
  rwa [← Option.some.inj hi, ← Option.some.inj hj]

theorem nameBytes_of_mem_targets {name : String} {j : Nat} (h : j ∈ targets batch name) :
    Batch.nameBytes batch j = Text.bytes name.toList := by
  obtain ⟨b, hb, _, rfl⟩ := mem_targets.mp h
  exact Batch.nameBytes_eq hb

theorem callsOf_sorted (d : Declaration) :
    (callsOf batch d).Pairwise (Batch.NamedBefore batch) := by
  rw [callsOf]
  split
  · rw [List.pairwise_flatMap]
    constructor
    · intro name _
      refine (targets_sorted batch name).imp_of_mem fun hi hj hij => .inr ⟨?_, hij⟩
      rw [nameBytes_of_mem_targets batch hi, nameBytes_of_mem_targets batch hj]
    · refine d.calls.ascending.imp fun hnames i hi j hj => .inl ?_
      rw [nameBytes_of_mem_targets batch hi, nameBytes_of_mem_targets batch hj,
        Text.bytes_lt_bytes_iff]
      exact String.lt_iff.mp hnames
  · exact .nil

theorem edges_sorted : (ofBatch batch).edges.Pairwise (Edge.Before batch) := by
  rw [ofBatch, List.pairwise_flatMap]
  constructor
  · intro (d, caller) _
    rw [List.pairwise_map]
    exact (callsOf_sorted batch d).imp fun hij => .inr ⟨rfl, hij⟩
  · refine (Batch.pairwise_zipIdx batch).imp fun hcallers e he f hf => ?_
    obtain ⟨_, _, rfl⟩ := List.mem_map.mp he
    obtain ⟨_, _, rfl⟩ := List.mem_map.mp hf
    exact .inl hcallers

/-- **The call graph of any batch.** -/
theorem build_edges {probe : Probe} {polls : Nat}
    (hquiet : ∀ k < batch.length, probe (polls + k) = false) :
    ∃ g, (build probe batch).outcome polls = (.ok g, polls + batch.length) ∧
      g.nodes = batch.length ∧ (∀ i j, ⟨i, j⟩ ∈ g.edges ↔
        ∃ a ∈ batch[i]?, ∃ b ∈ batch[j]?, a.callable = true ∧ b.callable = true ∧
          b.name ∈ a.calls) ∧
      g.edges.Nodup ∧ g.edges.Pairwise (Edge.Before batch) := by
  have hsorted := edges_sorted batch
  refine ⟨ofBatch batch, Polling.outcome_polled_of_quiet _ hquiet, rfl, fun i j => ?_, ?_, hsorted⟩
  · exact mem_edges_ofBatch
  · exact hsorted.imp Edge.Before.ne

/-- Two overloads, a constant of their name, and a name whose first byte is above those of ASCII. -/
def sampleBatch : List Declaration :=
  [⟨0, .method, "é", 0, [], 0, .ofList ["z", "é", "log", "none"]⟩,
    ⟨1, .method, "log", 0, ["u8"], 1, ∅⟩, ⟨2, .other, "log", 0, [], 2, .ofList ["z"]⟩,
      ⟨3, .constructor, "log", 0, [], 3, .ofList ["é"]⟩,
    ⟨4, .method, "z", 0, [], 4, .ofList ["log"]⟩]

theorem build_edges_sample :
    (∀ k < sampleBatch.length, Probe.fromPoll 5 (0 + k) = false) ∧
      (ofBatch sampleBatch).edges.map (fun e => (e.caller, e.callee)) =
        [(0, 1), (0, 3), (0, 4), (0, 0), (3, 0), (4, 1), (4, 3)] ∧
      ∃ g, (build (Probe.fromPoll 5) sampleBatch).outcome 0 = (.ok g, 0 + sampleBatch.length) ∧
        g.edges.Pairwise (Edge.Before sampleBatch) := by
  have hquiet : ∀ k < sampleBatch.length, Probe.fromPoll 5 (0 + k) = false := by decide
  obtain ⟨g, hbuild, _, _, _, hsorted⟩ := build_edges sampleBatch hquiet
  exact ⟨hquiet, by decide +kernel, g, hbuild, hsorted⟩

end CallGraph

end CalleeFirst
