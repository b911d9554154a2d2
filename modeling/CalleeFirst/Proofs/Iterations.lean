import CalleeFirst.Proofs.Sequence
import CalleeFirst.Proofs.Validity

/-! The loop that places components, one iteration after the other.

An iteration places the best of the ready components (`step`), and the loop ends when nothing
is ready. `InTurn` is what holds of its state before every iteration: the counter of each
component, placed or not, is the number of its dependencies that are not placed, and ready
are the components that are not placed and whose counter is zero. Ranks may be equal: they
choose among what is ready, and nothing here depends on the choice.

`InTurn.pending_pos`: while a component is placed no counter is taken below zero.
`sequence_iterations`: the loop ends after one iteration for every component, with all placed. -/
namespace CalleeFirst.Sequencer

/-- The numbers of the placed components. -/
def State.emitted (s : State) : List Nat := s.placed.map Group.component

/-- One iteration of the loop; nothing if no component is ready. -/
def step (c : Condensation) (rank : Nat → Nat) (s : State) : Option State :=
  (best (key rank (groups c rank)) s.ready).map (place c (groups c rank) s)

/-- The state after a number of iterations, if the loop gets that far. -/
def stateAfter (c : Condensation) (rank : Nat → Nat) : Nat → State → Option State
  | 0, s => some s
  | n + 1, s => (step c rank s).bind (stateAfter c rank n)

/-- What holds before every iteration. -/
structure InTurn (c : Condensation) (rank : Nat → Nat) (s : State) : Prop where
  emitted_nodup : s.emitted.Nodup
  emitted_lt : ∀ k ∈ s.emitted, k < c.size
  /-- A group has all members of its component. -/
  placed : s.placed = s.emitted.map (groupOf c rank)
  pending : ∀ k < c.size, s.pending[k]? = some ((c.dependencies k).countP (· ∉ s.emitted))
  ready_nodup : s.ready.Nodup
  mem_ready : ∀ k, k ∈ s.ready ↔ k < c.size ∧ k ∉ s.emitted ∧ s.pending[k]? = some 0

/-- The components that are not placed, ascending. -/
def remaining (c : Condensation) (s : State) : List Nat :=
  (List.range c.size).filter (· ∉ s.emitted)

theorem mem_remaining {c : Condensation} {s : State} {k : Nat} :
    k ∈ remaining c s ↔ k < c.size ∧ k ∉ s.emitted := by
  simp [remaining]

/-! ### The counters -/

theorem foldl_release_size (ds : List Nat) (s : State) :
    (ds.foldl release s).pending.size = s.pending.size := by
  induction ds generalizing s with
  | nil => rfl
  | cons d ds ih =>
    rw [List.foldl_cons, ih]
    exact Array.size_setIfInBounds

theorem place_emitted (c : Condensation) (rank : Nat → Nat) (s : State) {number : Nat}
    (h : number < c.size) :
    (place c (groups c rank) s number).emitted = s.emitted ++ [number] := by
  rw [State.emitted, place, foldl_release_placed, getElem?_groups c rank h, List.map_append]
  rfl

theorem getElem?_pending {s : State} {k : Nat} (h : k < s.pending.size) :
    s.pending[k]? = some (s.pending.getD k 0) := by
  rw [Array.getD_eq_getD_getElem?, Array.getElem?_eq_getElem h, Option.getD_some]

/-- A state of the loop, told by the components that wait. -/
structure Underway (c : Condensation) (rank : Nat → Nat) (s : State) : Prop where
  waiting : Waiting c (remaining c s) s
  emitted_nodup : s.emitted.Nodup
  emitted_lt : ∀ k ∈ s.emitted, k < c.size
  placed : s.placed = s.emitted.map (groupOf c rank)
  size : s.pending.size = c.size
  /-- Nothing is left of the counter of a placed component. -/
  settled : ∀ k ∈ s.emitted, s.pending.getD k 0 = 0

variable {c : Condensation} {g : CallGraph} {rank : Nat → Nat} {s : State}

theorem underway_start (hc : c.Describes g) (rank : Nat → Nat) : Underway c rank (start c) where
  waiting := by
    have hall : remaining c (start c) = List.range c.size := List.filter_eq_self.mpr fun k _ => rfl
    rw [hall]
    exact waiting_start hc
  emitted_nodup := List.nodup_nil
  emitted_lt _ hk := absurd hk List.not_mem_nil
  placed := rfl
  size := by
    rw [start, List.size_toArray, List.length_map]
    rfl
  settled _ hk := absurd hk List.not_mem_nil

namespace Underway

theorem place (hc : c.Describes g) (h : Underway c rank s) {number : Nat} (hn : number ∈ s.ready) :
    Underway c rank (Sequencer.place c (groups c rank) s number) := by
  obtain ⟨hwaits, hfree⟩ := (h.waiting.mem_ready number).mp hn
  obtain ⟨hlt, hnew⟩ := mem_remaining.mp hwaits
  have hemitted := place_emitted c rank s hlt
  have hpending : ∀ k, (Sequencer.place c (groups c rank) s number).pending.getD k 0 =
      s.pending.getD k 0 - if k ∈ c.dependents number then 1 else 0 :=
    foldl_release_pending (hc.dependents_nodup number hlt) _
  constructor
  case waiting =>
    have hleft : remaining c (Sequencer.place c (groups c rank) s number) =
        (remaining c s).erase number := by
      rw [h.waiting.nodup.erase_eq_filter, remaining, remaining, List.filter_filter, hemitted]
      refine List.filter_congr fun k _ => ?_
      rw [Bool.eq_iff_iff]
      simp [and_comm]
    rw [hleft]
    exact h.waiting.place hc hn (groups c rank)
  case emitted_nodup =>
    rw [hemitted]
    exact List.nodup_append.mpr ⟨h.emitted_nodup, List.nodup_singleton number, by
      rintro k hk _ hsame rfl
      exact hnew (List.mem_singleton.mp hsame ▸ hk)⟩
  case emitted_lt =>
    rw [hemitted]
    simpa [or_imp, forall_and] using ⟨h.emitted_lt, hlt⟩
  case placed =>
    rw [hemitted, List.map_append, ← h.placed, Sequencer.place, foldl_release_placed,
      getElem?_groups c rank hlt]
    rfl
  case size => exact (foldl_release_size _ _).trans h.size
  case settled =>
    intro k hk
    rw [hemitted, List.mem_append, List.mem_singleton] at hk
    rw [hpending]
    rcases hk with hk | rfl
    · rw [h.settled k hk, Nat.zero_sub]
    · rw [h.waiting.pending k hwaits, List.countP_eq_zero.mpr (by simpa using hfree), Nat.zero_sub]

/-- What a placed component depends on is placed as well. -/
theorem dependency_emitted (hc : c.Describes g) (h : Underway c rank s) {k d : Nat}
    (hk : k ∈ s.emitted) (hd : d ∈ c.dependencies k) : d ∈ s.emitted := by
  by_contra hnot
  have hlt := h.emitted_lt k hk
  have hwaits := h.waiting.closed k hlt d hd (mem_remaining.mpr ⟨hc.dependencies_lt hlt hd, hnot⟩)
  exact (mem_remaining.mp hwaits).2 hk

theorem inTurn (hc : c.Describes g) (h : Underway c rank s) : InTurn c rank s := by
  have hpending : ∀ k < c.size, s.pending[k]? =
      some ((c.dependencies k).countP (· ∉ s.emitted)) := by
    intro k hk
    rw [getElem?_pending (h.size ▸ hk), Option.some.injEq]
    by_cases hplaced : k ∈ s.emitted
    · rw [h.settled k hplaced, List.countP_eq_zero.mpr]
      intro d hd
      simpa using h.dependency_emitted hc hplaced hd
    · rw [h.waiting.pending k (mem_remaining.mpr ⟨hk, hplaced⟩)]
      refine List.countP_congr fun d hd => ?_
      simp [mem_remaining, hc.dependencies_lt hk hd]
  refine ⟨h.emitted_nodup, h.emitted_lt, h.placed, hpending, h.waiting.ready_nodup, fun k => ?_⟩
  rw [h.waiting.mem_ready, mem_remaining, and_assoc]
  refine and_congr_right fun hk => and_congr_right fun _ => ?_
  rw [hpending k hk, Option.some.injEq, List.countP_eq_zero]
  refine forall₂_congr fun d hd => ?_
  simp [mem_remaining, hc.dependencies_lt hk hd]

/-- As long as a component is not placed there is one to place. -/
theorem step_eq_none_iff (hc : c.Describes g) (h : Underway c rank s) :
    step c rank s = none ↔ s.emitted.length = c.size := by
  have hcount : (remaining c s).length + s.emitted.length = c.size := by
    have hperm : (remaining c s ++ s.emitted).Perm (List.range c.size) := by
      refine (List.perm_ext_iff_of_nodup ?_ List.nodup_range).mpr fun k => ?_
      · refine List.nodup_append.mpr ⟨h.waiting.nodup, h.emitted_nodup, ?_⟩
        rintro k hk _ hplaced rfl
        exact (mem_remaining.mp hk).2 hplaced
      · rw [List.mem_append, mem_remaining, List.mem_range]
        have := h.emitted_lt k
        tauto
    have := hperm.length_eq
    rwa [List.length_append, List.length_range] at this
  rw [step, Option.map_eq_none_iff, best_eq_none_iff]
  constructor
  · intro hready
    have hnil : remaining c s = [] := by
      by_contra hne
      exact h.waiting.exists_ready hc hne hready
    rw [← hcount, hnil, List.length_nil, Nat.zero_add]
  · intro hall
    have hnil : remaining c s = [] := List.eq_nil_of_length_eq_zero (by omega)
    refine List.eq_nil_iff_forall_not_mem.mpr fun k hk => ?_
    have hwaits := ((h.waiting.mem_ready k).mp hk).1
    rw [hnil] at hwaits
    exact absurd hwaits List.not_mem_nil

theorem step (hc : c.Describes g) (h : Underway c rank s) {next : State}
    (hstep : step c rank s = some next) :
    Underway c rank next ∧ next.emitted.length = s.emitted.length + 1 := by
  obtain ⟨number, hbest, rfl⟩ := Option.map_eq_some_iff.mp hstep
  have hn := (best_spec hbest).1
  have hlt := (mem_remaining.mp ((h.waiting.mem_ready number).mp hn).1).1
  refine ⟨h.place hc hn, ?_⟩
  rw [place_emitted c rank s hlt, List.length_append, List.length_singleton]

theorem stateAfter (hc : c.Describes g) (h : Underway c rank s) {n : Nat} {later : State}
    (hlater : stateAfter c rank n s = some later) :
    Underway c rank later ∧ later.emitted.length = s.emitted.length + n := by
  induction n generalizing s with
  | zero =>
    obtain rfl := Option.some.inj hlater
    exact ⟨h, rfl⟩
  | succ n ih =>
    obtain ⟨next, hstep, hrest⟩ := Option.bind_eq_some_iff.mp hlater
    obtain ⟨hnext, hlength⟩ := h.step hc hstep
    obtain ⟨hlater, hcount⟩ := ih hnext hrest
    exact ⟨hlater, by omega⟩

/-- There is an iteration for every component that is not placed, and no other. -/
theorem isSome_stateAfter (hc : c.Describes g) (h : Underway c rank s) (n : Nat) :
    (Sequencer.stateAfter c rank n s).isSome = true ↔ s.emitted.length + n ≤ c.size := by
  induction n generalizing s with
  | zero =>
    have hsub := List.subperm_of_subset h.emitted_nodup fun k hk =>
      List.mem_range.mpr (h.emitted_lt k hk)
    have hle := hsub.length_le
    rw [List.length_range] at hle
    exact iff_of_true rfl hle
  | succ n ih =>
    rw [Sequencer.stateAfter]
    cases hstep : Sequencer.step c rank s with
    | none =>
      have := (h.step_eq_none_iff hc).mp hstep
      exact iff_of_false Bool.false_ne_true (by omega)
    | some next =>
      obtain ⟨hnext, hlength⟩ := h.step hc hstep
      rw [Option.bind_some, ih hnext, hlength, Nat.add_right_comm, Nat.add_assoc]

end Underway

/-! ### Placing a component -/

/-- The counter of a dependent is positive when its turn comes to be counted down, because
dependents are the converse of dependencies and none is there twice. -/
theorem InTurn.pending_pos (hc : c.Describes g) (h : InTurn c rank s) {number : Nat}
    (hn : number ∈ s.ready) {done rest : List Nat} {d : Nat}
    (hsplit : c.dependents number = done ++ d :: rest) :
    ∃ left, (done.foldl release { s with ready := s.ready.erase number }).pending[d]? =
      some (left + 1) := by
  obtain ⟨hlt, hnew, _⟩ := (h.mem_ready number).mp hn
  have hmem : d ∈ c.dependents number := by simp [hsplit]
  have hdlt := hc.dependents_lt number hlt d hmem
  have hdep := (hc.mem_dependents d hdlt number hlt).mp hmem
  obtain ⟨hdone, hsecond⟩ : done.Nodup ∧ d ∉ done := by
    have hnodup := hc.dependents_nodup number hlt
    rw [hsplit] at hnodup
    obtain ⟨hfirst, _, hapart⟩ := List.nodup_append.mp hnodup
    exact ⟨hfirst, fun hd => hapart d hd d List.mem_cons_self rfl⟩
  have hpos : 0 < (c.dependencies d).countP (· ∉ s.emitted) :=
    List.countP_pos_iff.mpr ⟨number, hdep, by simpa using hnew⟩
  have hsize : d < s.pending.size := (Array.getElem?_eq_some_iff.mp (h.pending d hdlt)).1
  have hbefore : s.pending.getD d 0 = (c.dependencies d).countP (· ∉ s.emitted) := by
    have := h.pending d hdlt
    rwa [getElem?_pending hsize, Option.some.injEq] at this
  refine ⟨(c.dependencies d).countP (· ∉ s.emitted) - 1, ?_⟩
  rw [getElem?_pending (by rwa [foldl_release_size]), foldl_release_pending hdone, if_neg hsecond,
    Nat.sub_zero, Nat.sub_add_cancel hpos]
  exact congrArg some hbefore

/-! ### The whole loop -/

/-- A run is in a state of the loop after as many polls as there were iterations. -/
theorem run_of_stateAfter {n : Nat} {later : State} (h : stateAfter c rank n s = some later)
    (probe : Probe) (steps : Nat) :
    run c rank probe (groups c rank) (n + steps) s =
      Polling.checkpoints probe n >>= fun _ => run c rank probe (groups c rank) steps later := by
  induction n generalizing s with
  | zero =>
    obtain rfl := Option.some.inj h
    rw [Nat.zero_add, Polling.checkpoints, pure_bind]
  | succ n ih =>
    obtain ⟨next, hstep, hrest⟩ := Option.bind_eq_some_iff.mp h
    obtain ⟨number, hbest, rfl⟩ := Option.map_eq_some_iff.mp hstep
    have hrun : run c rank probe (groups c rank) (n + steps + 1) s =
        Polling.checkpoint probe >>= fun _ =>
          run c rank probe (groups c rank) (n + steps) (place c (groups c rank) s number) := by
      unfold key at hbest
      rw [run, hbest]
    rw [Nat.add_right_comm, hrun, ih hrest, Polling.checkpoints, bind_assoc]

theorem run_of_step_eq_none (h : step c rank s = none) (probe : Probe) (steps : Nat) :
    run c rank probe (groups c rank) steps s = pure s.placed := by
  cases steps with
  | zero => rfl
  | succ steps =>
    have hbest := Option.map_eq_none_iff.mp h
    unfold key at hbest
    rw [run, hbest]

/-- **The loop does what its counters say.** Before every iteration they are exact and the
ready components are those that may come next, each once. No component is placed
twice, no counter is taken below zero, and after one iteration for every component nothing is
ready and everything is placed, however many more iterations a run allows for. -/
theorem sequence_iterations (hc : c.Describes g) (rank : Nat → Nat) :
    (∀ n s, stateAfter c rank n (start c) = some s →
      InTurn c rank s ∧ s.placed.length = n ∧
      (∀ number ∈ s.ready, ∀ done d rest, c.dependents number = done ++ d :: rest →
        ∃ left, (done.foldl release { s with ready := s.ready.erase number }).pending[d]? =
          some (left + 1)) ∧
      ∀ probe steps, run c rank probe (groups c rank) (n + steps) (start c) =
        Polling.checkpoints probe n >>= fun _ => run c rank probe (groups c rank) steps s) ∧
    (∀ n, (stateAfter c rank n (start c)).isSome = true ↔ n ≤ c.size) ∧
    ∃ last, stateAfter c rank c.size (start c) = some last ∧ last.ready = [] ∧
      last.placed.length = c.size ∧
      (∀ k < c.size, k ∈ last.emitted) ∧
      ∀ probe, sequence c rank probe = Polling.polled probe c.size last.placed ∧
        ∀ more, run c rank probe (groups c rank) (c.size + more) (start c) =
          sequence c rank probe := by
  have hstart := underway_start hc rank
  have hcount : ∀ n s, stateAfter c rank n (start c) = some s → s.placed.length = n := by
    intro n s hs
    have := (hstart.stateAfter hc hs).2
    rwa [State.emitted, List.length_map, State.emitted, List.length_map, start, List.length_nil,
      Nat.zero_add] at this
  have hsome : ∀ n, (stateAfter c rank n (start c)).isSome = true ↔ n ≤ c.size := by
    intro n
    rw [hstart.isSome_stateAfter hc, State.emitted, List.length_map, start, List.length_nil,
      Nat.zero_add]
  refine ⟨fun n s hs => ?_, hsome, ?_⟩
  · have hturn := (hstart.stateAfter hc hs).1.inTurn hc
    exact ⟨hturn, hcount n s hs, fun number hn done d rest hsplit => hturn.pending_pos hc hn hsplit,
      run_of_stateAfter hs⟩
  · obtain ⟨last, hlast⟩ := Option.isSome_iff_exists.mp ((hsome c.size).mpr (Nat.le_refl _))
    obtain ⟨hunder, _⟩ := hstart.stateAfter hc hlast
    have hlength := hcount c.size last hlast
    have hnone : step c rank last = none := by
      rw [hunder.step_eq_none_iff hc, State.emitted, List.length_map, hlength]
    have hrun : ∀ probe more, run c rank probe (groups c rank) (c.size + more) (start c) =
        Polling.polled probe c.size last.placed := by
      intro probe more
      rw [run_of_stateAfter hlast, run_of_step_eq_none hnone]
      rfl
    refine ⟨last, hlast, ?_, hlength, ?_, fun probe => ⟨hrun probe 0, fun more => ?_⟩⟩
    · exact best_eq_none_iff.mp (Option.map_eq_none_iff.mp hnone)
    · intro k hk
      have hsub := List.subperm_of_subset hunder.emitted_nodup fun j hj =>
        List.mem_range.mpr (hunder.emitted_lt j hj)
      have hperm := hsub.perm_of_length_le (by
        rw [List.length_range, State.emitted, List.length_map, hlength])
      exact hperm.symm.subset (List.mem_range.mpr hk)
    · rw [hrun]
      exact (hrun probe 0).symm

/-- Ranks that are all equal leave every choice to the numbers. -/
theorem sequence_iterations_sample :
    let c := Condensation.ofGraph (CallGraph.ofBatch Batch.sample)
    let rank := fun _ => 0
    c.Describes (CallGraph.ofBatch Batch.sample) ∧ c.size = 4 ∧ c.dependents 3 = [1] ∧
      (∀ n s, stateAfter c rank n (start c) = some s → InTurn c rank s) ∧
      ∃ last, stateAfter c rank c.size (start c) = some last ∧ last.placed.length = c.size ∧
        sequence c rank Probe.never = Polling.polled Probe.never c.size last.placed := by
  intro c rank
  have hc := Condensation.describes_ofGraph (CallGraph.inside_ofBatch Batch.sample)
  obtain ⟨hturn, _, last, hlast, _, hlength, _, hrun⟩ := sequence_iterations hc rank
  exact ⟨hc, by decide +kernel, by decide +kernel, fun n s hs => (hturn n s hs).1, last, hlast,
    hlength, (hrun Probe.never).1⟩

end CalleeFirst.Sequencer
