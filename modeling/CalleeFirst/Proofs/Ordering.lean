import CalleeFirst.Order
import CalleeFirst.Proofs.Comparison
import CalleeFirst.Proofs.Sequence
import CalleeFirst.Proofs.Validity

/-! What the order of a batch is.

A batch that passes the check is ordered whatever it calls and however its declarations
compare: the ordering is a number of polls followed by groups that depend on the batch and
the settings alone (`orderGroups_eq`). The groups are an arrangement of the batch
(`orderedGroups_arranged`), and all that is known about their order comes from there.

`computeOrder_callees_first`: exactly the valid batches are ordered; what is called comes
before its callers, and declarations that reach each other stand together, sorted. -/
namespace CalleeFirst

variable (s : Settings) (batch : List Declaration)

/-- The groups of a valid batch, without the polls. -/
def orderedGroups : List Group :=
  let c := Condensation.ofGraph (CallGraph.ofBatch batch)
  (Sequencer.order c (s.rankOf batch)).map (Sequencer.groupOf c (s.rankOf batch))

/-- The indices of a valid batch in their order. -/
def ordering : List Nat := (orderedGroups s batch).flatMap Group.members

/-- How often a valid batch is polled. -/
def Batch.pollCount : Nat :=
  batch.length + ((Condensation.ofGraph (CallGraph.ofBatch batch)).size + 1)

/-! ### Polls and faults -/

theorem orderGroups_of_error (probe : Probe) {defect : Defect}
    (h : Batch.check batch = .error defect) :
    orderGroups probe s batch = throw (Fault.invalid defect) := by
  rw [orderGroups, h]

theorem orderGroups_eq (probe : Probe) {batch : List Declaration} (hv : Batch.Valid batch) :
    orderGroups probe s batch = Polling.polled probe (Batch.pollCount batch)
      (orderedGroups s batch) := by
  let c := Condensation.ofGraph (CallGraph.ofBatch batch)
  have hc := Condensation.describes_ofGraph (CallGraph.inside_ofBatch batch)
  have hsequence : Sequencer.sequence c (s.rankOf batch) probe =
      Polling.polled probe c.size (orderedGroups s batch) :=
    Sequencer.sequence_eq hc (s.rankOf_inj batch) probe
  rw [Batch.pollCount, ← Polling.checkpoints_bind_polled, Polling.polled_succ, ← hsequence]
  simp only [orderGroups, (Batch.check_eq_ok_iff batch).mpr hv, CallGraph.build, bind_assoc,
    pure_bind]
  rfl

theorem outcome_orderGroups_iff {groups : List Group} :
    ((orderGroups Probe.never s batch).outcome 0).1 = .ok groups ↔
      Batch.Valid batch ∧ orderedGroups s batch = groups := by
  rw [← Batch.check_eq_ok_iff]
  cases h : Batch.check batch with
  | error defect =>
    rw [orderGroups_of_error s batch Probe.never h]
    constructor
    · intro hok
      cases hok
    · rintro ⟨hok, _⟩
      cases hok
  | ok =>
    rw [orderGroups_eq s Probe.never ((Batch.check_eq_ok_iff batch).mp h),
      Polling.outcome_polled_never, Except.ok.injEq]
    exact (and_iff_right rfl).symm

theorem outcome_computeOrder_iff {order : List Nat} :
    ((computeOrder Probe.never s batch).outcome 0).1 = .ok order ↔
      Batch.Valid batch ∧ ordering s batch = order := by
  rw [computeOrder, Polling.outcome_map]
  constructor
  · intro h
    cases hgroups : ((orderGroups Probe.never s batch).outcome 0).1 with
    | error fault =>
      rw [hgroups] at h
      cases h
    | ok groups =>
      rw [hgroups] at h
      obtain ⟨hv, rfl⟩ := (outcome_orderGroups_iff s batch).mp hgroups
      exact ⟨hv, Except.ok.inj h⟩
  · rintro ⟨hv, rfl⟩
    rw [(outcome_orderGroups_iff s batch).mpr ⟨hv, rfl⟩]
    rfl

theorem computeOrder_eq (probe : Probe) {batch : List Declaration} (hv : Batch.Valid batch) :
    computeOrder probe s batch = Polling.polled probe (Batch.pollCount batch)
      (ordering s batch) := by
  rw [computeOrder, orderGroups_eq s probe hv, Polling.polled, bind_assoc]
  rfl

/-- Under a probe of any kind a batch is ordered only if it is valid, and only one way. -/
theorem eq_ordering_of_outcome {probe : Probe} {polls : Nat} {order : List Nat}
    (h : ((computeOrder probe s batch).outcome polls).1 = .ok order) :
    Batch.Valid batch ∧ ordering s batch = order := by
  cases hcheck : Batch.check batch with
  | error defect =>
    rw [computeOrder, orderGroups_of_error s batch probe hcheck] at h
    cases h
  | ok =>
    have hv := (Batch.check_eq_ok_iff batch).mp hcheck
    rw [computeOrder_eq s probe hv] at h
    exact ⟨hv, Polling.eq_of_outcome_polled h⟩

/-! ### The arrangement -/

theorem orderedGroups_arranged {batch : List Declaration} (hv : Batch.Valid batch) :
    Arranged (Batch.Calls batch) (Batch.Before s batch) (List.range batch.length)
      ((orderedGroups s batch).map Group.circle) := by
  have hc := Condensation.describes_ofGraph (CallGraph.inside_ofBatch batch)
  have hranked := Sequencer.sequence_arranged hc (s.rankOf_inj batch)
  rw [CallGraph.calls_ofBatch] at hranked
  refine hranked.of_before List.nodup_range fun i hi j hj => ?_
  exact (s.rankOf_lt_iff batch hv.indices (List.mem_range.mp hi) (List.mem_range.mp hj)).mp

theorem flatMap_circle_members :
    ((orderedGroups s batch).map Group.circle).flatMap Circle.members = ordering s batch := by
  rw [List.flatMap_map]
  rfl

/-- Inside a batch, to reach is to reach along calls between its declarations. -/
theorem reaches_range : Reaches (Batch.Calls batch) (List.range batch.length) =
      Batch.Reaches batch :=
  reaches_of_inside fun i j h => by
    rw [List.mem_range, List.mem_range]
    exact h.lt

section Valid
variable {batch} (hv : Batch.Valid batch)
include hv

theorem ordering_perm : (ordering s batch).Perm (List.range batch.length) := by
  rw [← flatMap_circle_members]
  exact (orderedGroups_arranged s hv).perm

theorem ordering_nodup : (ordering s batch).Nodup :=
  (ordering_perm s hv).nodup_iff.mpr List.nodup_range

theorem mem_ordering {i : Nat} : i ∈ ordering s batch ↔ i < batch.length :=
  (ordering_perm s hv).mem_iff.trans List.mem_range

theorem ordering_callees_first :
    (ordering s batch).Pairwise fun i j => Batch.Reaches batch i j → Batch.Reaches batch j i := by
  have hfirst := (orderedGroups_arranged s hv).callees_first List.nodup_range
  rwa [reaches_range, flatMap_circle_members] at hfirst

theorem idxOf_ordering_lt {i j : Nat} (hij : Batch.Reaches batch i j)
    (hji : ¬ Batch.Reaches batch j i) :
    (ordering s batch).idxOf j < (ordering s batch).idxOf i := by
  have hi := (mem_ordering s hv).mpr hij.lt.1
  have hj := (mem_ordering s hv).mpr hij.lt.2
  rcases Nat.lt_trichotomy ((ordering s batch).idxOf i) ((ordering s batch).idxOf j) with hlt | heq
    | hgt
  · exact absurd (rel_of_idxOf_lt (ordering_callees_first s hv) hj hlt hij) hji
  · obtain rfl := (List.idxOf_inj hi).mp heq
    exact absurd hij hji
  · exact hgt

theorem ordering_segment {i : Nat} (hi : i < batch.length) :
    ∃ front segment back, ordering s batch = front ++ segment ++ back ∧
      (∀ j, j ∈ segment ↔ Together (Batch.Reaches batch) i j) ∧
      segment.Pairwise (Batch.Before s batch) := by
  have hsegment := (orderedGroups_arranged s hv).exists_segment (List.mem_range.mpr hi)
  rwa [reaches_range, flatMap_circle_members] at hsegment

end Valid

/-- **What is called comes first.** A batch is ordered exactly when it is valid. Its order
is a permutation, in which a declaration stands after all that it reaches without being
reached back, and what reaches each other stands together, sorted. -/
theorem computeOrder_callees_first :
    ((∃ order, ((computeOrder Probe.never s batch).outcome 0).1 = .ok order) ↔ Batch.Valid batch) ∧
    ∀ order, ((computeOrder Probe.never s batch).outcome 0).1 = .ok order →
      order.Perm (List.range batch.length) ∧
      (∀ i j, Batch.Reaches batch i j → ¬ Batch.Reaches batch j i → order.idxOf j < order.idxOf i) ∧
      ∀ i < batch.length, ∃ front segment back, order = front ++ segment ++ back ∧
        (∀ j, j ∈ segment ↔ Together (Batch.Reaches batch) i j) ∧
        segment.Pairwise (Batch.Before s batch) := by
  simp only [outcome_computeOrder_iff]
  refine ⟨⟨fun ⟨_, h⟩ => h.1, fun hv => ⟨_, hv, rfl⟩⟩, ?_⟩
  rintro order ⟨hv, rfl⟩
  exact ⟨ordering_perm s hv, fun i j => idxOf_ordering_lt s hv, fun i => ordering_segment s hv⟩

theorem computeOrder_sample : Batch.Valid Batch.sample ∧ ∃ order,
    ((computeOrder Probe.never {} Batch.sample).outcome 0).1 = .ok order ∧
      order.Perm (List.range 5) ∧ order.idxOf 4 < order.idxOf 0 ∧ order.idxOf 1 < order.idxOf 0 ∧
      ∃ front segment back, order = front ++ segment ++ back ∧
        1 ∈ segment ∧ 3 ∈ segment ∧ 4 ∉ segment := by
  have hv := Batch.valid_sample
  obtain ⟨hiff, hordered⟩ := computeOrder_callees_first {} Batch.sample
  obtain ⟨order, hok⟩ := hiff.mpr hv
  obtain ⟨hperm, hfirst, hsegment⟩ := hordered order hok
  obtain ⟨front, segment, back, hsplit, hmem, _⟩ := hsegment 1 (by decide)
  refine ⟨hv, order, hok, hperm, hfirst 0 4 (by decide +kernel) (by decide +kernel),
    hfirst 0 1 (by decide +kernel) (by decide +kernel), front, segment, back, hsplit, ?_⟩
  rw [hmem, hmem, hmem]
  decide +kernel

end CalleeFirst
