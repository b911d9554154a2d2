import CalleeFirst.Proofs.Ordering

/-! The order does not depend on how a batch is listed.

Groups hold indices, and the indices of a declaration differ from one listing of a batch
to the other. Read as declarations, though, the groups of either listing are an
arrangement of the same items (`orderedGroups_read`), and a batch has only one.

`orderGroups_rearranged`: read by id, the groups and the order of a batch are those of
every rearrangement of it. -/
namespace CalleeFirst

/-- The declarations of a group. -/
def Group.read (batch : List Declaration) (group : Group) : Circle (Option Declaration) :=
  group.circle.map fun i => batch[i]?

/-- The ids of a group. -/
def Group.ids (batch : List Declaration) (group : Group) : Circle (Option Nat) :=
  group.circle.map fun i => batch[i]?.map Declaration.id

theorem Group.ids_eq (batch : List Declaration) (group : Group) :
    group.ids batch = (group.read batch).map (Option.map Declaration.id) := by
  rw [ids, read, Circle.map, Circle.map, Circle.map_members, List.map_map]
  rfl

theorem map_getElem?_range (batch : List Declaration) :
    (List.range batch.length).map (fun i => batch[i]?) = batch.map some := by
  refine List.ext_getElem (by simp) fun i hi _ => ?_
  rw [List.length_map, List.length_range] at hi
  simp [hi]

variable (s : Settings) {batch other : List Declaration}

theorem orderedGroups_read (hv : Batch.Valid batch) :
    Arranged (Both Declaration.Calls) (Both s.Less) (batch.map some)
      ((orderedGroups s batch).map (Group.read batch)) := by
  have hread : (orderedGroups s batch).map (Group.read batch) =
      ((orderedGroups s batch).map Group.circle).map (Circle.map fun i => batch[i]?) := by
    rw [List.map_map]
    rfl
  rw [hread, ← map_getElem?_range]
  refine (orderedGroups_arranged s hv).relabel List.nodup_range (fun i hi j _ h => ?_)
    (fun _ _ _ _ => Iff.rfl) (List.pairwise_of_forall_mem_list fun _ _ _ _ => id)
  exact (List.getElem?_inj (List.mem_range.mp hi) hv.nodup).mp h

theorem orderedGroups_read_perm (hv : Batch.Valid batch) (hp : batch.Perm other) :
    (orderedGroups s batch).map (Group.read batch) =
      (orderedGroups s other).map (Group.read other) := by
  refine (orderedGroups_read s hv).unique (orderedGroups_read s (hv.perm hp)) (hp.map some) ?_
    fun _ _ _ _ => Both.asymm Settings.Less.asymm
  exact hv.nodup.map fun _ _ => Option.some.inj

theorem map_ids (batch : List Declaration) (groups : List Group) :
    groups.map (Group.ids batch) =
      (groups.map (Group.read batch)).map (Circle.map (Option.map Declaration.id)) := by
  rw [List.map_map]
  exact List.map_congr_left fun group _ => group.ids_eq batch

theorem flatMap_ids (batch : List Declaration) (groups : List Group) :
    (groups.map (Group.ids batch)).flatMap Circle.members =
      (groups.flatMap Group.members).map fun i => batch[i]?.map Declaration.id := by
  rw [List.flatMap_map, List.map_flatMap]
  rfl

/-- **A batch may be listed in any order.** Its groups, read by id, stay the same, and so
does the order. -/
theorem orderGroups_rearranged (hv : Batch.Valid batch) (hp : batch.Perm other) :
    (∃ groups groups', ((orderGroups Probe.never s batch).outcome 0).1 = .ok groups ∧
      ((orderGroups Probe.never s other).outcome 0).1 = .ok groups' ∧
      groups'.map (Group.ids other) = groups.map (Group.ids batch)) ∧
    ∃ order order', ((computeOrder Probe.never s batch).outcome 0).1 = .ok order ∧
      ((computeOrder Probe.never s other).outcome 0).1 = .ok order' ∧
      (order'.map fun i => other[i]?.map Declaration.id) =
        order.map fun i => batch[i]?.map Declaration.id := by
  have hgroups : (orderedGroups s other).map (Group.ids other) =
      (orderedGroups s batch).map (Group.ids batch) := by
    rw [map_ids, map_ids, orderedGroups_read_perm s hv hp]
  refine ⟨⟨_, _, (outcome_orderGroups_iff s batch).mpr ⟨hv, rfl⟩,
    (outcome_orderGroups_iff s other).mpr ⟨hv.perm hp, rfl⟩, hgroups⟩,
    ⟨_, _, (outcome_computeOrder_iff s batch).mpr ⟨hv, rfl⟩,
      (outcome_computeOrder_iff s other).mpr ⟨hv.perm hp, rfl⟩, ?_⟩⟩
  rw [ordering, ordering, ← flatMap_ids, ← flatMap_ids, hgroups]

theorem orderGroups_rearranged_sample : Batch.Valid Batch.sample ∧
    ∃ groups groups', ((orderGroups Probe.never {} Batch.sample).outcome 0).1 = .ok groups ∧
      ((orderGroups Probe.never {} Batch.sample.reverse).outcome 0).1 = .ok groups' ∧
      groups'.map (Group.ids Batch.sample.reverse) = groups.map (Group.ids Batch.sample) :=
  ⟨Batch.valid_sample,
    (orderGroups_rearranged {} Batch.valid_sample Batch.sample.reverse_perm.symm).1⟩

end CalleeFirst
