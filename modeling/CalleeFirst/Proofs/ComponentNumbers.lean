import CalleeFirst.Proofs.Sequence

/-! Components under other numbers.

A graph does not say how its components are numbered, in which order a component lists its
members, and in which order the components around it are met. Condensations that agree up to
that (`Renumbered`) describe the same graph, and since a graph has one arrangement, their
sequences hold the same groups in the same order (`sequence_renumbered`): the number that
breaks ties between ready components is never asked for. -/
namespace CalleeFirst

namespace Condensation

/-- The same components: number `k` of `c` is number `number k` of `c'`, and whatever a component
lists may stand in another order. -/
@[mk_iff]
structure Renumbered (c c' : Condensation) (number : Nat → Nat) : Prop where
  size : c'.size = c.size
  lt : ∀ k < c.size, number k < c.size
  inj : ∀ a < c.size, ∀ b < c.size, number a = number b → a = b
  labels : c'.labels = c.labels.map number
  members : ∀ k < c.size, (c'.members (number k)).Perm (c.members k)
  cyclic : ∀ k < c.size, c'.isCyclic (number k) = c.isCyclic k
  dependencies : ∀ k < c.size, (c'.dependencies (number k)).Perm ((c.dependencies k).map number)
  dependents : ∀ k < c.size, (c'.dependents (number k)).Perm ((c.dependents k).map number)

instance (c c' : Condensation) (number : Nat → Nat) : Decidable (c.Renumbered c' number) :=
  decidable_of_iff' _ (renumbered_iff c c' number)

namespace Renumbered
variable {c c' : Condensation} {g : CallGraph} {number : Nat → Nat}

/-- Every number is in use. -/
theorem exists_eq (h : c.Renumbered c' number) {k : Nat} (hk : k < c'.size) :
    ∃ old < c.size, number old = k := by
  have hn : ((List.range c.size).map number).Nodup :=
    List.Nodup.map_on (fun a ha b hb => h.inj a (List.mem_range.mp ha) b (List.mem_range.mp hb))
      List.nodup_range
  have hsub : (List.range c.size).map number ⊆ List.range c.size := by
    intro x hx
    obtain ⟨old, hold, rfl⟩ := List.mem_map.mp hx
    exact List.mem_range.mpr (h.lt old (List.mem_range.mp hold))
  have hperm := (List.subperm_of_subset hn hsub).perm_of_length_le (by rw [List.length_map])
  have hmem := hperm.symm.subset (List.mem_range.mpr (h.size ▸ hk))
  obtain ⟨old, hold, heq⟩ := List.mem_map.mp hmem
  exact ⟨old, List.mem_range.mp hold, heq⟩

/-- To show something of every component it is enough to show it under the new numbers. -/
theorem forall_lt (h : c.Renumbered c' number) {motive : Nat → Prop}
    (hmotive : ∀ k < c.size, motive (number k)) : ∀ k < c'.size, motive k := by
  intro k hk
  obtain ⟨old, hold, rfl⟩ := h.exists_eq hk
  exact hmotive old hold

theorem componentOf (h : c.Renumbered c' number) {i : Nat} (hi : i < c.labels.size) :
    c'.componentOf i = number (c.componentOf i) := by
  rw [Condensation.componentOf, Condensation.componentOf, h.labels]
  simp [hi]

theorem mem_dependencies (h : c.Renumbered c' number) (hc : c.Describes g) {k d : Nat}
    (hk : k < c.size) (hd : d < c.size) : number d ∈ c'.dependencies (number k) ↔
      d ∈ c.dependencies k := by
  rw [(h.dependencies k hk).mem_iff, List.mem_map]
  refine ⟨fun ⟨e, he, heq⟩ => ?_, fun hmem => ⟨d, hmem, rfl⟩⟩
  exact h.inj e (hc.dependencies_lt hk he) d hd heq ▸ he

theorem mem_dependents (h : c.Renumbered c' number) (hc : c.Describes g) {k d : Nat}
    (hk : k < c.size) (hd : d < c.size) : number k ∈ c'.dependents (number d) ↔
      k ∈ c.dependents d := by
  rw [(h.dependents d hd).mem_iff, List.mem_map]
  refine ⟨fun ⟨e, he, heq⟩ => ?_, fun hmem => ⟨k, hmem, rfl⟩⟩
  exact h.inj e (hc.dependents_lt d hd e he) k hk heq ▸ he

/-- What describes a graph describes it under other numbers too. -/
theorem describes (h : c.Renumbered c' number) (hc : c.Describes g)
    (hlabels : g.nodes ≤ c.labels.size) :
    c'.Describes g := by
  have hlabel : ∀ i < g.nodes, c'.componentOf i = number (c.componentOf i) := fun i hi =>
    h.componentOf (Nat.lt_of_lt_of_le hi hlabels)
  have hlabel_iff : ∀ i < g.nodes, ∀ k < c.size, c'.componentOf i = number k ↔
      c.componentOf i = k := by
    intro i hi k hk
    rw [hlabel i hi]
    exact ⟨h.inj _ (hc.componentOf_lt i hi) k hk, congrArg number⟩
  constructor
  case inside => exact hc.inside
  case componentOf_lt =>
    intro i hi
    rw [hlabel i hi, h.size]
    exact h.lt _ (hc.componentOf_lt i hi)
  case componentOf_eq_iff =>
    intro i hi j hj
    rw [hlabel j hj, hlabel_iff i hi _ (hc.componentOf_lt j hj), hc.componentOf_eq_iff i hi j hj]
  case mem_members =>
    refine h.forall_lt fun k hk i => ?_
    rw [(h.members k hk).mem_iff, hc.mem_members k hk]
    exact and_congr_right fun hi => (hlabel_iff i hi k hk).symm
  case members_ne_nil =>
    refine h.forall_lt fun k hk hnil => hc.members_ne_nil k hk ?_
    exact (hnil ▸ h.members k hk).nil_eq.symm
  case members_nodup => exact h.forall_lt fun k hk =>
    (h.members k hk).nodup_iff.mpr (hc.members_nodup k hk)
  case isCyclic_iff =>
    refine h.forall_lt fun k hk => ?_
    rw [h.cyclic k hk, hc.isCyclic_iff k hk]
    exact exists_congr fun i => and_congr_left fun _ => (h.members k hk).mem_iff.symm
  case mem_dependencies =>
    refine h.forall_lt fun k hk d => ?_
    constructor
    · intro hd
      obtain ⟨e, he, rfl⟩ := List.mem_map.mp ((h.dependencies k hk).subset hd)
      obtain ⟨hne, i, j, hij, hi, hj⟩ := (hc.mem_dependencies k hk e).mp he
      obtain ⟨hilt, hjlt⟩ := hc.inside i j hij
      have helt := hc.dependencies_lt hk he
      exact ⟨fun heq => hne (h.inj e helt k hk heq), i, j, hij, (hlabel_iff i hilt k hk).mpr hi,
        (hlabel_iff j hjlt e helt).mpr hj⟩
    · rintro ⟨hne, i, j, hij, hi, rfl⟩
      obtain ⟨hilt, hjlt⟩ := hc.inside i j hij
      have hclt := hc.componentOf_lt j hjlt
      rw [hlabel j hjlt] at hne ⊢
      refine (h.mem_dependencies hc hk hclt).mpr ((hc.mem_dependencies k hk _).mpr ?_)
      exact ⟨fun heq => hne (congrArg number heq), i, j, hij, (hlabel_iff i hilt k hk).mp hi, rfl⟩
  case dependencies_nodup =>
    refine h.forall_lt fun k hk => (h.dependencies k hk).nodup_iff.mpr ?_
    exact List.Nodup.map_on (fun a ha b hb =>
      h.inj a (hc.dependencies_lt hk ha) b (hc.dependencies_lt hk hb))
      (hc.dependencies_nodup k hk)
  case mem_dependents =>
    refine h.forall_lt fun k hk => h.forall_lt fun d hd => ?_
    rw [h.mem_dependents hc hk hd, h.mem_dependencies hc hk hd, hc.mem_dependents k hk d hd]
  case dependents_nodup =>
    refine h.forall_lt fun d hd => (h.dependents d hd).nodup_iff.mpr ?_
    exact List.Nodup.map_on (fun a ha b hb =>
      h.inj a (hc.dependents_lt d hd a ha) b (hc.dependents_lt d hd b hb))
      (hc.dependents_nodup d hd)
  case dependents_lt =>
    refine h.forall_lt fun d hd k hk => ?_
    obtain ⟨e, he, rfl⟩ := List.mem_map.mp ((h.dependents d hd).subset hk)
    rw [h.size]
    exact h.lt e (hc.dependents_lt d hd e he)

end Renumbered

theorem size_labels_ofGraph (g : CallGraph) : (ofGraph g).labels.size = g.nodes := by
  simp [ofGraph]

theorem describes_of_renumbered {g : CallGraph} (hg : g.Inside) {c : Condensation}
    {number : Nat → Nat} (h : (ofGraph g).Renumbered c number) : c.Describes g :=
  h.describes (describes_ofGraph hg) (Nat.le_of_eq (size_labels_ofGraph g).symm)

end Condensation

namespace Sequencer

/-- Two condensations of one graph have the same sequence, apart from numbers. -/
theorem circles_order_eq {c c' : Condensation} {g : CallGraph} {rank : Nat → Nat}
    (hc : c.Describes g) (hc' : c'.Describes g)
    (hrank : ∀ i < g.nodes, ∀ j < g.nodes, rank i = rank j → i = j) :
    ((order c rank).map (groupOf c rank)).map Group.circle =
      ((order c' rank).map (groupOf c' rank)).map Group.circle :=
  (sequence_arranged hc hrank).unique (sequence_arranged hc' hrank) (.refl _) List.nodup_range
    fun _ _ _ _ => Nat.lt_asymm

/-- **The numbers of components do not matter.** Take any two condensations of a graph that differ
in the numbers of the components, in the order of the members of a component, and in the order of
its dependencies and dependents: their sequences hold the same groups in the same order, whatever
the probe answers, and without a probe there is such a sequence. -/
theorem sequence_renumbered {g : CallGraph} (hg : g.Inside) {rank : Nat → Nat}
    (hrank : ∀ i < g.nodes, ∀ j < g.nodes, rank i = rank j → i = j) {c c' : Condensation}
    {number number' : Nat → Nat} (h : (Condensation.ofGraph g).Renumbered c number)
    (h' : (Condensation.ofGraph g).Renumbered c' number') :
    (∃ groups groups', ((sequence c rank Probe.never).outcome 0).1 = .ok groups ∧
      ((sequence c' rank Probe.never).outcome 0).1 = .ok groups' ∧
      groups.map Group.circle = groups'.map Group.circle) ∧
    ∀ probe polls,
      ((sequence c rank probe).outcome polls).1.map (List.map Group.circle) =
        ((sequence c' rank probe).outcome polls).1.map (List.map Group.circle) ∧
      ((sequence c rank probe).outcome polls).2 = ((sequence c' rank probe).outcome polls).2 := by
  have hc := Condensation.describes_of_renumbered hg h
  have hc' := Condensation.describes_of_renumbered hg h'
  have hcircles := circles_order_eq hc hc' hrank
  have hsize : c'.size = c.size := h'.size.trans h.size.symm
  refine ⟨⟨_, _, ?_, ?_, hcircles⟩, fun probe polls => ?_⟩
  · rw [sequence_eq hc hrank, Polling.outcome_polled_never]
  · rw [sequence_eq hc' hrank, Polling.outcome_polled_never]
  · have hleft := Polling.outcome_polled_map probe c.size (List.map Group.circle)
      ((order c rank).map (groupOf c rank)) polls
    have hright := Polling.outcome_polled_map probe c.size (List.map Group.circle)
      ((order c' rank).map (groupOf c' rank)) polls
    rw [sequence_eq hc hrank, sequence_eq hc' hrank, hsize]
    exact Prod.mk.inj (hleft.symm.trans (hcircles ▸ hright))

/-- Two callers of a cycle. -/
def cycleGraph : CallGraph := ⟨4, [⟨0, 2⟩, ⟨1, 2⟩, ⟨2, 3⟩, ⟨3, 2⟩]⟩

/-- The cycle is found first, and all is listed the other way round. -/
def cycleFirst : Condensation where
  components := [⟨[3, 2], true, [], [1, 2]⟩, ⟨[1], false, [0], []⟩, ⟨[0], false, [0], []⟩]
  labels := #[2, 1, 0, 0]

theorem sequence_renumbered_sample :
    cycleGraph.Inside ∧ (Condensation.ofGraph cycleGraph).Renumbered cycleFirst (2 - ·) ∧
    ∃ groups groups',
      ((sequence (Condensation.ofGraph cycleGraph) (5 - ·) Probe.never).outcome 0).1 = .ok groups ∧
      ((sequence cycleFirst (5 - ·) Probe.never).outcome 0).1 = .ok groups' ∧
      groups.map Group.circle = groups'.map Group.circle := by
  have hg : cycleGraph.Inside := by
    intro i j hij
    simp only [CallGraph.Calls, cycleGraph, List.mem_cons, Edge.mk.injEq, List.not_mem_nil,
      or_false] at hij
    show i < 4 ∧ j < 4
    omega
  have hself :
      (Condensation.ofGraph cycleGraph).Renumbered (Condensation.ofGraph cycleGraph) id := by
    decide +kernel
  have hfirst : (Condensation.ofGraph cycleGraph).Renumbered cycleFirst (2 - ·) := by decide +kernel
  exact ⟨hg, hfirst, (sequence_renumbered hg (by decide) hself hfirst).1⟩

end Sequencer

end CalleeFirst
