import CalleeFirst.Proofs.Waiting

/-! The groups of a sequence.

Ranks that differ give components different lowest ranks, so of the ready components
there is always one best. `sequence_eq`: a sequence lists the components in the order of
the run's choices, each as a group with its members sorted, whatever the probe answers.
`sequence_arranged`: read as circles of nodes, these groups are the arrangement of the
graph. -/
namespace CalleeFirst

/-- The members of a group without its number. -/
def Group.circle (g : Group) : Circle Nat := ⟨g.members, g.cyclic⟩

namespace Sequencer

variable {c : Condensation} {g : CallGraph}

/-! ### Groups -/

/-- A component as the group it is placed as. -/
def groupOf (c : Condensation) (rank : Nat → Nat) (k : Nat) : Group where
  component := k
  members := (c.members k).mergeSort fun a b => rank a ≤ rank b
  cyclic := c.isCyclic k

theorem getElem?_groups (c : Condensation) (rank : Nat → Nat) {k : Nat} (hk : k < c.size) :
    (groups c rank)[k]? = some (groupOf c rank k) := by
  have hk' : c.components[k]? = some c.components[k] := List.getElem?_eq_getElem hk
  rw [groups, List.getElem?_toArray, List.getElem?_map, List.getElem?_zipIdx, hk']
  simp only [groupOf, Condensation.members, Condensation.isCyclic, hk']
  simp [group]

theorem groupOf_members_perm (c : Condensation) (rank : Nat → Nat) (k : Nat) :
    (groupOf c rank k).members.Perm (c.members k) :=
  List.mergeSort_perm ..

theorem groupOf_members_sorted (c : Condensation) (rank : Nat → Nat) (k : Nat) :
    (groupOf c rank k).members.Pairwise fun a b => rank a ≤ rank b := by
  refine List.Pairwise.imp of_decide_eq_true (List.pairwise_mergeSort ?_ ?_ (c.members k))
  · intro a b d hab hbd
    rw [decide_eq_true_eq] at *
    exact Nat.le_trans hab hbd
  · intro a b
    rw [Bool.or_eq_true, decide_eq_true_eq, decide_eq_true_eq]
    exact Nat.le_total (rank a) (rank b)

/-- The lowest rank among the members of a component. -/
def lowestRank (c : Condensation) (rank : Nat → Nat) (k : Nat) : Nat :=
  ((c.members k).map rank).min?.getD 0

/-- The first member of a group is the one of the lowest rank. -/
theorem exists_head (hc : c.Describes g) (rank : Nat → Nat) {k : Nat} (hk : k < c.size) :
    ∃ i ∈ c.members k, (groupOf c rank k).members.head? = some i ∧
      lowestRank c rank k = rank i := by
  have hperm := groupOf_members_perm c rank k
  have hsorted := groupOf_members_sorted c rank k
  cases hmembers : (groupOf c rank k).members with
  | nil => exact absurd (hmembers ▸ hperm).nil_eq.symm (hc.members_ne_nil k hk)
  | cons i rest =>
    rw [hmembers] at hperm hsorted
    have hi : i ∈ c.members k := hperm.subset (List.mem_cons_self ..)
    have hleast : ∀ j ∈ c.members k, rank i ≤ rank j := by
      intro j hj
      rcases List.mem_cons.mp (hperm.symm.subset hj) with rfl | hj
      · exact Nat.le_refl _
      · exact (List.pairwise_cons.mp hsorted).1 j hj
    have hmin : ((c.members k).map rank).min? = some (rank i) := by
      refine List.min?_eq_some_iff.mpr ⟨List.mem_map_of_mem hi, fun r hr => ?_⟩
      obtain ⟨j, hj, rfl⟩ := List.mem_map.mp hr
      exact hleast j hj
    refine ⟨i, hi, rfl, ?_⟩
    rw [lowestRank, hmin, Option.getD_some]

/-- The representative of a group has the lowest rank of its component. -/
theorem representative_groupOf (hc : c.Describes g) (rank : Nat → Nat) {k : Nat} (hk : k < c.size) :
    representative rank (groupOf c rank k) = lowestRank c rank k := by
  obtain ⟨i, _, hhead, hlowest⟩ := exists_head hc rank hk
  rw [representative, hhead, hlowest]
  rfl

theorem key_eq (hc : c.Describes g) (rank : Nat → Nat) {k : Nat} (hk : k < c.size) :
    key rank (groups c rank) k = lowestRank c rank k := by
  rw [key, getElem?_groups c rank hk, Option.map_some, Option.getD_some,
    representative_groupOf hc rank hk]

/-- The components in the order in which a sequence lists them. -/
def order (c : Condensation) (rank : Nat → Nat) : List Nat :=
  choices c rank (groups c rank) c.size (start c)

section Ranked
variable (hc : c.Describes g) {rank : Nat → Nat}
  (hrank : ∀ i < g.nodes, ∀ j < g.nodes, rank i = rank j → i = j)
include hc hrank

/-- Distinct ranks give distinct components distinct lowest ranks. -/
theorem lowestRank_inj {a b : Nat} (ha : a < c.size) (hb : b < c.size)
    (h : lowestRank c rank a = lowestRank c rank b) : a = b := by
  obtain ⟨i, hi, _, hia⟩ := exists_head hc rank ha
  obtain ⟨j, hj, _, hjb⟩ := exists_head hc rank hb
  obtain ⟨hi, hia'⟩ := (hc.mem_members a ha i).mp hi
  obtain ⟨hj, hjb'⟩ := (hc.mem_members b hb j).mp hj
  have hij : i = j := hrank i hi j hj (by rw [← hia, h, hjb])
  rw [← hia', hij, hjb']

theorem order_perm_greedy :
    (order c rank).Perm (List.range c.size) ∧
      Greedy (fun k d => d ∈ c.dependencies k)
        (fun a b => lowestRank c rank a < lowestRank c rank b) (order c rank) := by
  have hkey : ∀ a < c.size, ∀ b < c.size,
      key rank (groups c rank) a = key rank (groups c rank) b → a = b := by
    intro a ha b hb h
    rw [key_eq hc rank ha, key_eq hc rank hb] at h
    exact lowestRank_inj hc hrank ha hb h
  obtain ⟨hperm, hgreedy⟩ := choices_greedy hc rank (groups c rank) hkey (waiting_start hc)
  rw [List.length_range] at hperm hgreedy
  refine ⟨hperm, ?_⟩
  have hlt : ∀ k ∈ order c rank, k < c.size := fun k hk => List.mem_range.mp (hperm.subset hk)
  refine hgreedy.mono (List.pairwise_of_forall_mem_list fun a ha b hb h => ?_)
  rw [key_eq hc rank (hlt a ha), key_eq hc rank (hlt b hb)] at h
  exact h

theorem order_lt {k : Nat} (hk : k ∈ order c rank) : k < c.size :=
  List.mem_range.mp ((order_perm_greedy hc hrank).1.subset hk)

/-- A sequence polls once for every component, and its result does not depend on the answers. -/
theorem sequence_eq (probe : Probe) :
    sequence c rank probe = Polling.polled probe c.size ((order c rank).map (groupOf c rank)) := by
  have hlength : (order c rank).length = c.size := by
    rw [(order_perm_greedy hc hrank).1.length_eq, List.length_range]
  have hgroups : ((order c rank).flatMap fun k => (groups c rank)[k]?.toList) =
      (order c rank).map (groupOf c rank) := by
    rw [List.map_eq_flatMap]
    refine List.flatMap_congr fun k hk => ?_
    rw [getElem?_groups c rank (order_lt hc hrank hk)]
    rfl
  rw [sequence, run_eq]
  show Polling.polled probe (order c rank).length ([] ++ _) = _
  rw [hlength, List.nil_append, ← hgroups]
  rfl

/-! ### The sequence as an arrangement -/

omit hc hrank in
theorem mem_groupOf {k i : Nat} : i ∈ (groupOf c rank k).members ↔ i ∈ c.members k :=
  (groupOf_members_perm c rank k).mem_iff

omit hrank in
/-- Two components share no node. -/
theorem eq_of_mem_groupOf {a b i : Nat} (ha : a < c.size) (hb : b < c.size)
    (hia : i ∈ (groupOf c rank a).members) (hib : i ∈ (groupOf c rank b).members) : a = b := by
  rw [← ((hc.mem_members a ha i).mp (mem_groupOf.mp hia)).2,
    ((hc.mem_members b hb i).mp (mem_groupOf.mp hib)).2]

theorem order_members_perm :
    ((order c rank).flatMap fun k => (groupOf c rank k).members).Perm (List.range g.nodes) := by
  have hperm := (order_perm_greedy hc hrank).1
  have hnodup : ((order c rank).flatMap fun k => (groupOf c rank k).members).Nodup := by
    refine List.nodup_flatMap.mpr ⟨fun k hk => ?_, ?_⟩
    · exact (groupOf_members_perm c rank k).nodup_iff.mpr
        (hc.members_nodup k (order_lt hc hrank hk))
    · refine (hperm.nodup_iff.mpr List.nodup_range).imp_of_mem fun ha hb hne i hia hib => hne ?_
      exact eq_of_mem_groupOf hc (order_lt hc hrank ha) (order_lt hc hrank hb) hia hib
  refine (List.perm_ext_iff_of_nodup hnodup List.nodup_range).mpr fun i => ?_
  rw [List.mem_flatMap, List.mem_range]
  constructor
  · rintro ⟨k, hk, hi⟩
    exact ((hc.mem_members k (order_lt hc hrank hk) i).mp (mem_groupOf.mp hi)).1
  · intro hi
    have hlt := hc.componentOf_lt i hi
    refine ⟨c.componentOf i, hperm.symm.subset (List.mem_range.mpr hlt), mem_groupOf.mpr ?_⟩
    exact (hc.mem_members _ hlt i).mpr ⟨hi, rfl⟩

theorem groupOf_sorted {k : Nat} (hk : k < c.size) :
    (groupOf c rank k).members.Pairwise fun i j => rank i < rank j := by
  have hnodup := (groupOf_members_perm c rank k).nodup_iff.mpr (hc.members_nodup k hk)
  refine ((groupOf_members_sorted c rank k).and hnodup).imp_of_mem fun hi hj hij => ?_
  refine Nat.lt_of_le_of_ne hij.1 fun heq => hij.2 ?_
  exact hrank _ ((hc.mem_members k hk _).mp (mem_groupOf.mp hi)).1 _
    ((hc.mem_members k hk _).mp (mem_groupOf.mp hj)).1 heq

omit hrank in
theorem calls_groupOf_iff {a b : Nat} (ha : a < c.size) (hb : b < c.size) (hab : a ≠ b) :
    (groupOf c rank a).circle.Calls g.Calls (groupOf c rank b).circle ↔ b ∈ c.dependencies a := by
  rw [hc.mem_dependencies a ha b]
  constructor
  · rintro ⟨i, hi, j, hj, hij⟩
    exact ⟨hab.symm, i, j, hij, ((hc.mem_members a ha i).mp (mem_groupOf.mp hi)).2,
      ((hc.mem_members b hb j).mp (mem_groupOf.mp hj)).2⟩
  · rintro ⟨_, i, j, hij, hi, hj⟩
    exact ⟨i, mem_groupOf.mpr ((hc.mem_members a ha i).mpr ⟨(hc.inside i j hij).1, hi⟩), j,
      mem_groupOf.mpr ((hc.mem_members b hb j).mpr ⟨(hc.inside i j hij).2, hj⟩), hij⟩

omit hrank in
theorem leads_groupOf {a b : Nat} (ha : a < c.size) (hb : b < c.size)
    (h : lowestRank c rank a < lowestRank c rank b) :
    (groupOf c rank a).circle.Leads (fun i j => rank i < rank j) (groupOf c rank b).circle := by
  obtain ⟨i, _, hhead, hi⟩ := exists_head hc rank ha
  obtain ⟨j, _, hhead', hj⟩ := exists_head hc rank hb
  rw [hi, hj] at h
  exact ⟨i, hhead, j, hhead', h⟩

theorem sequence_arranged :
    Arranged g.Calls (fun i j => rank i < rank j) (List.range g.nodes)
      (((order c rank).map (groupOf c rank)).map Group.circle) := by
  have hreach : Reaches g.Calls (List.range g.nodes) = g.Reaches :=
    reaches_of_inside fun i j hij => by
      rw [List.mem_range, List.mem_range]
      exact hc.inside i j hij
  have hlt := fun k (hk : k ∈ order c rank) => order_lt hc hrank hk
  rw [List.map_map]
  constructor
  case perm =>
    rw [List.flatMap_map]
    exact order_members_perm hc hrank
  case nonempty =>
    simp only [List.forall_mem_map]
    intro k hk hnil
    obtain ⟨i, hi, _⟩ := exists_head hc rank (hlt k hk)
    exact absurd (mem_groupOf.mpr hi) (List.eq_nil_iff_forall_not_mem.mp hnil i)
  case together =>
    simp only [List.forall_mem_map]
    intro k hk i hi j hj
    obtain ⟨hi, hik⟩ := (hc.mem_members k (hlt k hk) i).mp (mem_groupOf.mp hi)
    have hj := List.mem_range.mp hj
    rw [hreach, ← hc.componentOf_eq_iff i hi j hj, hik]
    refine mem_groupOf.trans ((hc.mem_members k (hlt k hk) j).trans ?_)
    exact ⟨fun h => h.2.symm, fun h => ⟨hj, h.symm⟩⟩
  case sorted =>
    simp only [List.forall_mem_map]
    exact fun k hk => groupOf_sorted hc hrank (hlt k hk)
  case cyclic =>
    simp only [List.forall_mem_map]
    intro k hk
    refine (hc.isCyclic_iff k (hlt k hk)).trans ?_
    rw [hreach]
    exact exists_congr fun i => and_congr_left fun _ => mem_groupOf.symm
  case greedy =>
    refine (order_perm_greedy hc hrank).2.map (fun a ha b hb heq => ?_)
      (fun a ha b hb hab => calls_groupOf_iff hc (hlt a ha) (hlt b hb) hab)
      (List.pairwise_of_forall_mem_list fun a ha b hb h => leads_groupOf hc (hlt a ha) (hlt b hb) h)
    obtain ⟨i, hi, _⟩ := exists_head hc rank (hlt a ha)
    have hmembers : (groupOf c rank a).members = (groupOf c rank b).members :=
      congrArg Circle.members heq
    have hib : i ∈ (groupOf c rank b).members := hmembers ▸ mem_groupOf.mpr hi
    exact eq_of_mem_groupOf hc (hlt a ha) (hlt b hb) (mem_groupOf.mpr hi) hib

end Ranked

end Sequencer

end CalleeFirst
