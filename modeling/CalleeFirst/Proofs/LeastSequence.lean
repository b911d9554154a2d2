import CalleeFirst.Proofs.Sequence
import CalleeFirst.Proofs.Validity

/-! Of all orders that respect dependencies, the least.

A dependency order (`DependencyOrder`) lists every component once, after all that it
depends on. Among the dependency orders one has lexicographically least ranks
(`LexicographicallyLeast`), and one takes at every step the lowest rank among the components
that could come next (`LeastAtEveryStep`). `sequence_least`: the two are the same order, and a
sequence lists the components in it. -/
namespace CalleeFirst.Sequencer

/-- Every component once, after all that it depends on. -/
structure DependencyOrder (c : Condensation) (order : List Nat) : Prop where
  perm : order.Perm (List.range c.size)
  first : ∀ placed k rest, order = placed ++ k :: rest → ∀ d ∈ c.dependencies k, d ∈ placed

/-- No dependency order has a lexicographically smaller list of lowest ranks. -/
def LexicographicallyLeast (c : Condensation) (rank : Nat → Nat) (order : List Nat) : Prop :=
  ∀ other, DependencyOrder c other →
    order.map (lowestRank c rank) ≤ other.map (lowestRank c rank)

/-- Every component has the lowest rank among those that are not placed before it while all
that they depend on is. -/
def LeastAtEveryStep (c : Condensation) (rank : Nat → Nat) (order : List Nat) : Prop :=
  ∀ placed k rest, order = placed ++ k :: rest → ∀ m < c.size, m ∉ placed →
    (∀ d ∈ c.dependencies m, d ∈ placed) → lowestRank c rank k ≤ lowestRank c rank m

variable {c : Condensation} {g : CallGraph} {rank : Nat → Nat} {order : List Nat}

namespace DependencyOrder

theorem nodup (h : DependencyOrder c order) : order.Nodup := h.perm.nodup_iff.mpr List.nodup_range

theorem lt (h : DependencyOrder c order) {k : Nat} (hk : k ∈ order) : k < c.size :=
  List.mem_range.mp (h.perm.subset hk)

/-- What is placed does not come again. -/
theorem not_placed (h : DependencyOrder c order) {placed rest : List Nat} {k m : Nat}
    (heq : order = placed ++ k :: rest) (hm : m ∈ k :: rest) : m ∉ placed := by
  have hn := h.nodup
  rw [heq] at hn
  exact fun hplaced => (List.nodup_append.mp hn).2.2 m hplaced m hm rfl

/-- A component is ready among those to come exactly when all it depends on is placed. -/
theorem ready_iff (hc : c.Describes g) (h : DependencyOrder c order) {placed rest : List Nat}
    {k m : Nat} (heq : order = placed ++ k :: rest) (hm : m < c.size) :
    Ready (fun a d => d ∈ c.dependencies a) (k :: rest) m ↔ ∀ d ∈ c.dependencies m, d ∈ placed := by
  constructor
  · intro hready d hd
    have hmem : d ∈ order := h.perm.symm.subset (List.mem_range.mpr (hc.dependencies_lt hm hd))
    rw [heq] at hmem
    refine (List.mem_append.mp hmem).resolve_right fun hlater => ?_
    obtain rfl := hready d hlater hd
    exact hc.acyclic d (.single ⟨hm, hd⟩)
  · intro hplaced d hd hdep
    exact absurd (hplaced d hdep) (h.not_placed heq hd)

theorem needsFirst (h : DependencyOrder c order) :
    NeedsFirst (fun a d => d ∈ c.dependencies a) order := by
  refine pairwise_iff_turns.mpr fun placed k rest heq d hd hdep => ?_
  exact h.not_placed heq (List.mem_cons_of_mem k hd) (h.first placed k rest heq d hdep)

/-- The greedy order of all components respects dependencies. -/
theorem of_greedy {prefers : Nat → Nat → Prop} (hc : c.Describes g)
    (hperm : order.Perm (List.range c.size))
    (h : Greedy (fun a d => d ∈ c.dependencies a) prefers order) : DependencyOrder c order := by
  refine ⟨hperm, fun placed k rest heq d hd => ?_⟩
  have hk : k < c.size := List.mem_range.mp (hperm.subset (heq ▸ by simp))
  have hmem : d ∈ order := hperm.symm.subset (List.mem_range.mpr (hc.dependencies_lt hk hd))
  rw [heq] at hmem
  refine (List.mem_append.mp hmem).resolve_right fun hlater => ?_
  obtain rfl := (greedy_iff_turns.mp h placed k rest heq).1 d hlater hd
  exact hc.acyclic d (.single ⟨hk, hd⟩)

end DependencyOrder

section Ranked
variable (hc : c.Describes g) (hrank : ∀ i < g.nodes, ∀ j < g.nodes, rank i = rank j → i = j)
include hc hrank

/-- To take the lowest rank at every step is to be greedy. -/
theorem leastAtEveryStep_iff (h : DependencyOrder c order) :
    LeastAtEveryStep c rank order ↔ Greedy (fun a d => d ∈ c.dependencies a)
      (fun a b => lowestRank c rank a < lowestRank c rank b) order := by
  rw [greedy_iff_turns]
  constructor
  · intro hleast placed k rest heq
    have hk : k < c.size := h.lt (heq ▸ by simp)
    refine ⟨(h.ready_iff hc heq hk).mpr (h.first placed k rest heq), fun m hm hready => ?_⟩
    have hmsize : m < c.size := h.lt (heq ▸ by simp [hm])
    have hle := hleast placed k rest heq m hmsize (h.not_placed heq (List.mem_cons_of_mem k hm))
      ((h.ready_iff hc heq hmsize).mp hready)
    refine Nat.lt_of_le_of_ne hle fun hsame => ?_
    obtain rfl := lowestRank_inj hc hrank hk hmsize hsame
    have hn := h.nodup
    rw [heq] at hn
    exact (List.nodup_cons.mp (List.nodup_append.mp hn).2.1).1 hm
  · intro hturns placed k rest heq m hmsize hmplaced hdeps
    have hmem : m ∈ order := h.perm.symm.subset (List.mem_range.mpr hmsize)
    rw [heq] at hmem
    rcases List.mem_cons.mp ((List.mem_append.mp hmem).resolve_left hmplaced) with rfl | hm
    · exact Nat.le_refl _
    · exact Nat.le_of_lt ((hturns placed k rest heq).2 m hm ((h.ready_iff hc heq hmsize).mpr hdeps))

/-- Lowest ranks tell orders of components apart. -/
theorem eq_of_map_lowestRank_eq {other : List Nat} (h : ∀ k ∈ order, k < c.size)
    (hother : ∀ k ∈ other, k < c.size)
    (heq : order.map (lowestRank c rank) = other.map (lowestRank c rank)) : order = other := by
  have hlength : order.length = other.length := by
    simpa only [List.length_map] using congrArg List.length heq
  refine List.ext_getElem hlength fun i hi hi' => ?_
  refine lowestRank_inj hc hrank (h _ (List.getElem_mem hi)) (hother _ (List.getElem_mem hi')) ?_
  rw [← List.getElem_map (lowestRank c rank), ← List.getElem_map (lowestRank c rank)]
  · simp only [heq]
  all_goals simpa only [List.length_map]

theorem order_dependencyOrder : DependencyOrder c (Sequencer.order c rank) :=
  .of_greedy hc (order_perm_greedy hc hrank).1 (order_perm_greedy hc hrank).2

theorem order_lexicographicallyLeast : LexicographicallyLeast c rank (Sequencer.order c rank) := by
  intro other hother
  obtain ⟨hperm, hgreedy⟩ := order_perm_greedy hc hrank
  exact hgreedy.map_le (hperm.trans hother.perm.symm) hother.needsFirst

/-- Either way of being least singles out one and the same order. -/
theorem lexicographicallyLeast_iff (h : DependencyOrder c order) :
    LexicographicallyLeast c rank order ↔ order = Sequencer.order c rank := by
  refine ⟨fun hleast => ?_, fun heq => heq ▸ order_lexicographicallyLeast hc hrank⟩
  have hdep := order_dependencyOrder hc hrank
  refine eq_of_map_lowestRank_eq hc hrank (fun _ => h.lt) (fun _ => hdep.lt) ?_
  exact le_antisymm (hleast _ hdep) (order_lexicographicallyLeast hc hrank order h)

theorem leastAtEveryStep_iff_eq (h : DependencyOrder c order) :
    LeastAtEveryStep c rank order ↔ order = Sequencer.order c rank := by
  obtain ⟨hperm, hgreedy⟩ := order_perm_greedy hc hrank
  rw [leastAtEveryStep_iff hc hrank h]
  constructor
  · intro hgreedy'
    exact hgreedy'.unique hgreedy (h.perm.trans hperm.symm) fun _ _ _ _ => Nat.lt_asymm
  · rintro rfl
    exact hgreedy

end Ranked

theorem map_component_groupOf (c : Condensation) (rank : Nat → Nat) (order : List Nat) :
    (order.map (groupOf c rank)).map Group.component = order := by
  rw [List.map_map]
  exact List.map_id order

/-- **The sequence of components is the least.** It lists every component once, as a group
of its members, in the one dependency order whose lowest ranks are lexicographically least,
which is the one that takes the lowest possible rank at every step. -/
theorem sequence_least (batch : List Declaration) (rank : Nat → Nat)
    (hrank : ∀ i < batch.length, ∀ j < batch.length, rank i = rank j → i = j) :
    let c := Condensation.ofGraph (CallGraph.ofBatch batch)
    ∃ groups, ((sequence c rank Probe.never).outcome 0).1 = .ok groups ∧
      (∀ group ∈ groups, group.members.Perm (c.members group.component)) ∧
      DependencyOrder c (groups.map Group.component) ∧
      groups.map (representative rank) = (groups.map Group.component).map (lowestRank c rank) ∧
      LexicographicallyLeast c rank (groups.map Group.component) ∧
      LeastAtEveryStep c rank (groups.map Group.component) ∧
      ∀ order, DependencyOrder c order →
        (LexicographicallyLeast c rank order ↔ LeastAtEveryStep c rank order) := by
  intro c
  have hc := Condensation.describes_ofGraph (CallGraph.inside_ofBatch batch)
  have hdep := order_dependencyOrder hc hrank
  refine ⟨(order c rank).map (groupOf c rank), ?_, ?_, ?_⟩
  · rw [sequence_eq hc hrank, Polling.outcome_polled_never]
  · exact List.forall_mem_map.mpr fun k _ => groupOf_members_perm c rank k
  rw [map_component_groupOf]
  refine ⟨hdep, ?_, order_lexicographicallyLeast hc hrank,
    (leastAtEveryStep_iff_eq hc hrank hdep).mpr rfl, fun other hother => ?_⟩
  · rw [List.map_map]
    exact List.map_congr_left fun k hk => representative_groupOf hc rank (hdep.lt hk)
  · rw [lexicographicallyLeast_iff hc hrank hother, leastAtEveryStep_iff_eq hc hrank hother]

theorem sequence_least_sample :
    let c := Condensation.ofGraph (CallGraph.ofBatch Batch.sample)
    let rank := fun i => 10 - i
    (∀ i < 5, ∀ j < 5, rank i = rank j → i = j) ∧
    ∃ groups, ((sequence c rank Probe.never).outcome 0).1 = .ok groups ∧
      DependencyOrder c (groups.map Group.component) ∧
      LexicographicallyLeast c rank (groups.map Group.component) ∧
      LeastAtEveryStep c rank (groups.map Group.component) := by
  intro c rank
  have hrank : ∀ i < 5, ∀ j < 5, rank i = rank j → i = j := by decide
  obtain ⟨groups, hok, _, hdep, _, hlexicographic, hstep, _⟩ :=
    sequence_least Batch.sample rank hrank
  exact ⟨hrank, groups, hok, hdep, hlexicographic, hstep⟩

end CalleeFirst.Sequencer
