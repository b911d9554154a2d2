import CalleeFirst.Proofs.Ordering

/-! Ordering what is already ordered.

Once a batch is put in its order and read again, every declaration has a new id and a new
source index: its place. That changes the comparison where source indices break a tie,
but only in favour of the order at hand (`Settings.Less.renumber`). So the arrangement of the
batch, read by place, is one of the renumbered batch (`renumbered_arranged`), and there is no
other.

`computeOrder_renumbered`: the second ordering moves nothing. -/
namespace CalleeFirst

/-- The declaration with a place for id and source index. -/
def Declaration.renumber (d : Declaration) (place : Nat) : Declaration :=
  { d with id := place, sourceIndex := place }

/-- The declarations of a batch in an order, renumbered. -/
def Batch.renumbered (batch : List Declaration) (order : List Nat) : List Declaration :=
  (order.filterMap fun i => batch[i]?).mapIdx fun place d => d.renumber place

/-- Of two declarations the lesser one stays less at an earlier place. -/
theorem Settings.Less.renumber {s : Settings} {a b : Declaration} (h : s.Less a b) {i j : Nat}
    (hij : i < j) : s.Less (a.renumber i) (b.renumber j) := by
  have hplaces : compare i j = .lt := Nat.compare_eq_lt.mpr hij
  unfold Settings.Less at h ⊢
  cases ha : a.callable <;> cases hb : b.callable <;>
    have ha' : (a.renumber i).callable = _ := ha <;> have hb' : (b.renumber j).callable = _ := hb
  · rw [compareDeclarations_anchored ha' hb']
    exact hplaces
  · rw [compareDeclarations_anchored_callable ha hb] at h
    rwa [compareDeclarations_anchored_callable ha' hb']
  · rw [compareDeclarations_callable_anchored ha hb] at h
    rwa [compareDeclarations_callable_anchored ha' hb']
  · rw [compareDeclarations_callable ha hb] at h
    rw [compareDeclarations_callable ha' hb']
    simp only [compareMembers, Ordering.then_eq_lt] at h ⊢
    -- Only the last criterion has changed, and it decides for the earlier place.
    rcases h with hrank | ⟨hrank, hname | ⟨hname, hparameters | ⟨hparameters, _⟩⟩⟩
    · exact .inl hrank
    · exact .inr ⟨hrank, .inl hname⟩
    · exact .inr ⟨hrank, .inr ⟨hname, .inl hparameters⟩⟩
    · exact .inr ⟨hrank, .inr ⟨hname, .inr ⟨hparameters, hplaces⟩⟩⟩

namespace Batch
variable {batch : List Declaration} {order : List Nat}

theorem map_some_filterMap (horder : ∀ i ∈ order, i < batch.length) :
    (order.filterMap fun i => batch[i]?).map some = order.map fun i => batch[i]? := by
  induction order with
  | nil => rfl
  | cons i rest ih =>
    have hi := List.getElem?_eq_getElem (horder i List.mem_cons_self)
    rw [List.filterMap_cons_some hi, List.map_cons, List.map_cons, hi,
      ih fun j hj => horder j (List.mem_cons_of_mem i hj)]

theorem renumbered_length (horder : ∀ i ∈ order, i < batch.length) :
    (renumbered batch order).length = order.length := by
  rw [renumbered, List.length_mapIdx]
  simpa only [List.length_map] using congrArg List.length (map_some_filterMap horder)

/-- The declaration that was at `i` is now at the place of `i`. -/
theorem getElem?_renumbered (horder : ∀ i ∈ order, i < batch.length) {i : Nat} (hi : i ∈ order) :
    (renumbered batch order)[order.idxOf i]? =
      batch[i]?.map fun d => d.renumber (order.idxOf i) := by
  have hplaces := congrArg (fun l => l[order.idxOf i]?) (map_some_filterMap horder)
  simp only [List.getElem?_map, List.getElem?_idxOf hi, Option.map_some] at hplaces
  obtain ⟨d, hd, hdi⟩ := Option.map_eq_some_iff.mp hplaces
  rw [renumbered, List.getElem?_mapIdx, hd, hdi]

theorem map_renumbered (batch : List Declaration) (order : List Nat) {f : Declaration → Nat}
    (hf : ∀ (d : Declaration) place, f (d.renumber place) = place) :
    (renumbered batch order).map f = List.range (renumbered batch order).length := by
  rw [renumbered, List.length_mapIdx, List.mapIdx_eq_zipIdx_map, List.map_map, List.range_eq_range',
    ← List.zipIdx_map_snd]
  exact List.map_congr_left fun p _ => hf p.1 p.2

theorem renumbered_valid (hv : Valid batch) (order : List Nat) :
    Valid (renumbered batch order) where
  ids := by
    rw [map_renumbered batch order fun _ _ => rfl]
    exact List.nodup_range
  indices := by
    rw [map_renumbered batch order fun _ _ => rfl]
    exact List.nodup_range
  names d hd := by
    obtain ⟨place, hplace, rfl⟩ := List.mem_mapIdx.mp hd
    obtain ⟨i, _, hi⟩ := List.mem_filterMap.mp (List.getElem_mem hplace)
    have hnamed := hv.names _ (List.mem_of_getElem? hi)
    exact hnamed

section
variable (horder : ∀ i ∈ order, i < batch.length) {i j : Nat} (hi : i ∈ order) (hj : j ∈ order)
include horder hi hj

theorem calls_renumbered_iff :
    Calls (renumbered batch order) (order.idxOf i) (order.idxOf j) ↔ Calls batch i j := by
  rw [Calls, getElem?_renumbered horder hi, getElem?_renumbered horder hj]
  simp only [Both, Option.mem_def, Option.map_eq_some_iff, exists_exists_and_eq_and]
  exact Iff.rfl

theorem before_renumbered {s : Settings} (hij : order.idxOf i < order.idxOf j)
    (h : Before s batch i j) :
    Before s (renumbered batch order) (order.idxOf i) (order.idxOf j) := by
  rw [Before, getElem?_renumbered horder hi, getElem?_renumbered horder hj]
  obtain ⟨a, ha, b, hb, hab⟩ := h
  exact ⟨_, Option.mem_map_of_mem _ ha, _, Option.mem_map_of_mem _ hb, hab.renumber hij⟩

end

end Batch

theorem map_idxOf_self {l : List Nat} (hn : l.Nodup) : l.map l.idxOf = List.range l.length := by
  refine List.ext_getElem (by simp) fun i _ _ => ?_
  rw [List.getElem_map, hn.idxOf_getElem, List.getElem_range]

variable (s : Settings) {batch : List Declaration}

/-- Renaming every declaration to its place arranges the renumbered batch. -/
theorem renumbered_arranged (hv : Batch.Valid batch) :
    Arranged (Batch.Calls (Batch.renumbered batch (ordering s batch)))
      (Batch.Before s (Batch.renumbered batch (ordering s batch)))
      ((List.range batch.length).map (ordering s batch).idxOf)
      (((orderedGroups s batch).map Group.circle).map (Circle.map (ordering s batch).idxOf)) := by
  have horder : ∀ i ∈ ordering s batch, i < batch.length := fun i => (mem_ordering s hv).mp
  have hmem : ∀ i ∈ List.range batch.length, i ∈ ordering s batch := fun i hi =>
    (ordering_perm s hv).symm.subset hi
  have hplaces : (ordering s batch).Pairwise fun i j =>
      (ordering s batch).idxOf i < (ordering s batch).idxOf j := by
    rw [← List.pairwise_map (R := (· < ·)), map_idxOf_self (ordering_nodup s hv)]
    exact List.pairwise_lt_range
  refine (orderedGroups_arranged s hv).relabel List.nodup_range (fun i hi j _ h => ?_)
    (fun i hi j hj => ?_) ?_
  · exact (List.idxOf_inj (hmem i hi)).mp h
  · exact Batch.calls_renumbered_iff horder (hmem i hi) (hmem j hj)
  · rw [flatMap_circle_members]
    exact hplaces.imp_of_mem fun hi hj hij => Batch.before_renumbered horder hi hj hij

theorem ordering_renumbered (hv : Batch.Valid batch) :
    ordering s (Batch.renumbered batch (ordering s batch)) = List.range batch.length := by
  have hlength : (ordering s batch).length = batch.length := by
    rw [(ordering_perm s hv).length_eq, List.length_range]
  have hplaces : (ordering s batch).map (ordering s batch).idxOf = List.range batch.length := by
    rw [map_idxOf_self (ordering_nodup s hv), hlength]
  have hperm : ((List.range batch.length).map (ordering s batch).idxOf).Perm
      (List.range (Batch.renumbered batch (ordering s batch)).length) := by
    rw [Batch.renumbered_length fun i => (mem_ordering s hv).mp, hlength]
    exact hplaces ▸ ((ordering_perm s hv).map (ordering s batch).idxOf).symm
  have hsecond := orderedGroups_arranged s (Batch.renumbered_valid hv (ordering s batch))
  have hcircles := (renumbered_arranged s hv).unique hsecond hperm
    (hperm.nodup_iff.mpr List.nodup_range) fun _ _ _ _ => Both.asymm Settings.Less.asymm
  rw [← flatMap_circle_members, ← hcircles, Circle.flatMap_map_members, flatMap_circle_members,
    hplaces]

/-- **An ordered batch is left as it is.** Put a batch in its order and number it anew by
place: the result is a valid batch, and its order is the one it has. -/
theorem computeOrder_renumbered (hv : Batch.Valid batch) :
    ∃ order, ((computeOrder Probe.never s batch).outcome 0).1 = .ok order ∧
      Batch.Valid (Batch.renumbered batch order) ∧
      ((computeOrder Probe.never s (Batch.renumbered batch order)).outcome 0).1 =
        .ok (List.range batch.length) := by
  have hvalid := Batch.renumbered_valid hv (ordering s batch)
  refine ⟨ordering s batch, (outcome_computeOrder_iff s batch).mpr ⟨hv, rfl⟩, hvalid, ?_⟩
  exact (outcome_computeOrder_iff s _).mpr ⟨hvalid, ordering_renumbered s hv⟩

theorem computeOrder_renumbered_sample : Batch.Valid Batch.sample ∧
    ∃ order, ((computeOrder Probe.never {} Batch.sample).outcome 0).1 = .ok order ∧
      ((computeOrder Probe.never {} (Batch.renumbered Batch.sample order)).outcome 0).1 =
        .ok [0, 1, 2, 3, 4] := by
  obtain ⟨order, hok, _, hagain⟩ := computeOrder_renumbered {} Batch.valid_sample
  exact ⟨Batch.valid_sample, order, hok, hagain⟩

end CalleeFirst
