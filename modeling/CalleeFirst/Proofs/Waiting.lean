import CalleeFirst.Sequencer
import CalleeFirst.Proofs.Components
import CalleeFirst.Proofs.Polling

/-! Placing components one after the other.

A run of the sequencer holds counters and a list of ready components; what they stand
for is the list of components that still wait (`Waiting`): the counter of a component
is the number of its dependencies that wait, and a component is ready when none does.
`Waiting.place`: placing a ready component takes it off that list and does nothing else.
`Waiting.exists_ready`: as long as anything waits something is ready, because the
dependencies of a condensation do not go round.

`choices_greedy`: a run places all that waits, always the best of what is ready.
`run_eq`: what it returns are the groups of these choices, after one poll for each. -/
namespace CalleeFirst.Sequencer

/-! ### The best of a list -/

theorem best_eq_none_iff {key : Nat → Nat} {numbers : List Nat} :
    best key numbers = none ↔ numbers = [] := by
  cases numbers <;> simp [best]

/-- Whoever is carried along a list came from it and is beaten by nothing in it. -/
theorem foldl_best (key : Nat → Nat) (rest : List Nat) (first : Nat) :
    rest.foldl (fun a b => if precedes key b a then b else a) first ∈ first :: rest ∧
      ∀ x ∈ first :: rest,
        key (rest.foldl (fun a b => if precedes key b a then b else a) first) ≤ key x := by
  induction rest generalizing first with
  | nil => simp
  | cons y rest ih =>
    rw [List.foldl_cons]
    by_cases hy : precedes key y first = true
    · rw [if_pos hy]
      obtain ⟨hmem, hle⟩ := ih y
      have hfirst : key y ≤ key first := by
        simp only [precedes, Bool.or_eq_true, decide_eq_true_eq, Bool.and_eq_true, beq_iff_eq] at hy
        omega
      refine ⟨List.mem_cons_of_mem first hmem, fun x hx => ?_⟩
      rcases List.mem_cons.mp hx with rfl | hx
      · exact Nat.le_trans (hle y (List.mem_cons_self ..)) hfirst
      · exact hle x hx
    · rw [if_neg hy]
      obtain ⟨hmem, hle⟩ := ih first
      have hfirst : key first ≤ key y := by
        simp only [precedes, Bool.or_eq_true, decide_eq_true_eq, Bool.and_eq_true, beq_iff_eq] at hy
        omega
      refine ⟨?_, fun x hx => ?_⟩
      · rcases List.mem_cons.mp hmem with h | h
        · rw [h]
          exact List.mem_cons_self ..
        · exact List.mem_cons_of_mem first (List.mem_cons_of_mem y h)
      · rcases List.mem_cons.mp hx with rfl | hx
        · exact hle x (List.mem_cons_self ..)
        · rcases List.mem_cons.mp hx with rfl | hx
          · exact Nat.le_trans (hle first (List.mem_cons_self ..)) hfirst
          · exact hle x (List.mem_cons_of_mem first hx)

theorem best_spec {key : Nat → Nat} {numbers : List Nat} {number : Nat}
    (h : best key numbers = some number) :
    number ∈ numbers ∧ ∀ x ∈ numbers, key number ≤ key x := by
  cases numbers with
  | nil => cases h
  | cons first rest =>
    obtain rfl := Option.some.inj h
    exact foldl_best key rest first

/-! ### Releasing dependents -/

theorem release_placed (s : State) (d : Nat) : (release s d).placed = s.placed := rfl

theorem release_pending (s : State) (d k : Nat) :
    (release s d).pending.getD k 0 = s.pending.getD k 0 - if k = d then 1 else 0 := by
  simp only [release, Array.getD_eq_getD_getElem?, Array.getElem?_setIfInBounds]
  by_cases hk : d = k
  · subst hk
    by_cases hd : d < s.pending.size
    · simp [hd]
    · simp [hd]
  · simp [hk, Ne.symm hk]

theorem mem_release_ready (s : State) (d k : Nat) :
    k ∈ (release s d).ready ↔ k ∈ s.ready ∨ k = d ∧ s.pending.getD d 0 ≤ 1 := by
  simp only [release, beq_iff_eq]
  split
  · rename_i h
    rw [List.mem_cons]
    constructor
    · rintro (hk | hk)
      · exact .inr ⟨hk, by omega⟩
      · exact .inl hk
    · rintro (hk | hk)
      · exact .inr hk
      · exact .inl hk.1
  · rename_i h
    refine ⟨.inl, fun hk => hk.resolve_right fun hd => h ?_⟩
    omega

theorem foldl_release_placed (ds : List Nat) (s : State) :
    (ds.foldl release s).placed = s.placed := by
  induction ds generalizing s with
  | nil => rfl
  | cons d ds ih => rw [List.foldl_cons, ih, release_placed]

/-- Every counter of a dependent goes down by one. -/
theorem foldl_release_pending {ds : List Nat} (hn : ds.Nodup) (s : State) (k : Nat) :
    (ds.foldl release s).pending.getD k 0 = s.pending.getD k 0 - if k ∈ ds then 1 else 0 := by
  induction ds generalizing s with
  | nil => simp
  | cons d ds ih =>
    obtain ⟨hd, hds⟩ := List.nodup_cons.mp hn
    rw [List.foldl_cons, ih hds, release_pending]
    by_cases hk : k = d
    · subst hk
      simp [hd]
    · simp [hk]

theorem mem_foldl_release_ready {ds : List Nat} (hn : ds.Nodup) (s : State) (k : Nat) :
    k ∈ (ds.foldl release s).ready ↔ k ∈ s.ready ∨ k ∈ ds ∧ s.pending.getD k 0 ≤ 1 := by
  induction ds generalizing s with
  | nil => simp
  | cons d ds ih =>
    obtain ⟨hd, hds⟩ := List.nodup_cons.mp hn
    rw [List.foldl_cons, ih hds, mem_release_ready, release_pending, List.mem_cons]
    by_cases hk : k = d
    · subst hk
      simp [hd]
    · simp [hk]

theorem foldl_release_ready_nodup {ds : List Nat} (hn : ds.Nodup) {s : State}
    (hready : s.ready.Nodup) (hnew : ∀ d ∈ ds, d ∉ s.ready) : (ds.foldl release s).ready.Nodup := by
  induction ds generalizing s with
  | nil => exact hready
  | cons d ds ih =>
    obtain ⟨hd, hds⟩ := List.nodup_cons.mp hn
    rw [List.foldl_cons]
    refine ih hds ?_ fun k hk => ?_
    · simp only [release]
      split
      · exact List.nodup_cons.mpr ⟨hnew d (List.mem_cons_self ..), hready⟩
      · exact hready
    · rw [mem_release_ready, not_or]
      refine ⟨hnew k (List.mem_cons_of_mem d hk), fun h => hd ?_⟩
      rw [← h.1]
      exact hk

/-! ### What waits -/

/-- The state of a run in which exactly the components of `waiting` are still to be placed. -/
structure Waiting (c : Condensation) (waiting : List Nat) (s : State) : Prop where
  nodup : waiting.Nodup
  lt : ∀ k ∈ waiting, k < c.size
  /-- Nothing is placed before what it depends on. -/
  closed : ∀ k < c.size, ∀ d ∈ c.dependencies k, d ∈ waiting → k ∈ waiting
  pending : ∀ k ∈ waiting, s.pending.getD k 0 = (c.dependencies k).countP (· ∈ waiting)
  ready_nodup : s.ready.Nodup
  mem_ready : ∀ k, k ∈ s.ready ↔ k ∈ waiting ∧ ∀ d ∈ c.dependencies k, d ∉ waiting

/-- One entry less is counted, and only once. -/
theorem countP_mem_erase {waiting : List Nat} (hw : waiting.Nodup) {number : Nat}
    (hnumber : number ∈ waiting) {ds : List Nat} (hn : ds.Nodup) :
    ds.countP (· ∈ waiting) =
      ds.countP (· ∈ waiting.erase number) + if number ∈ ds then 1 else 0 := by
  induction ds with
  | nil => simp
  | cons d ds ih =>
    obtain ⟨hd, hds⟩ := List.nodup_cons.mp hn
    rw [List.countP_cons, List.countP_cons, ih hds]
    by_cases heq : d = number
    · subst heq
      simp [hnumber, hd, hw.not_mem_erase]
    · have hmem : (d ∈ waiting.erase number) = (d ∈ waiting) := by
        rw [List.mem_erase_of_ne heq]
      simp only [hmem, List.mem_cons, Ne.symm heq, false_or]
      omega

variable {c : Condensation} {g : CallGraph} {waiting : List Nat} {s : State}

theorem mem_start_ready (c : Condensation) (k : Nat) :
    k ∈ (start c).ready ↔ k < c.size ∧ c.dependencies k = [] := by
  simp only [start, List.mem_filterMap, Prod.exists, List.mem_zipIdx_iff_getElem?,
    Option.ite_none_right_eq_some, Option.some.injEq, List.isEmpty_iff]
  constructor
  · rintro ⟨component, _, hk, hempty, rfl⟩
    refine ⟨(List.getElem?_eq_some_iff.mp hk).1, ?_⟩
    rw [Condensation.dependencies, hk]
    exact hempty
  · rintro ⟨hk, hempty⟩
    have hk' := List.getElem?_eq_getElem (l := c.components) hk
    rw [Condensation.dependencies, hk'] at hempty
    exact ⟨c.components[k], k, hk', hempty, rfl⟩

theorem start_ready_nodup (c : Condensation) : (start c).ready.Nodup := by
  have hnumbers : c.components.zipIdx.Pairwise fun a b => a.2 ≠ b.2 := by
    rw [← List.pairwise_map, List.zipIdx_map_snd]
    exact List.nodup_range'
  refine List.pairwise_filterMap.mpr (hnumbers.imp ?_)
  rintro ⟨component, a⟩ ⟨component', b⟩ hne x hx y hy
  simp only [Option.ite_none_right_eq_some, Option.some.injEq] at hx hy
  rw [← hx.2, ← hy.2]
  exact hne

theorem waiting_start (hc : c.Describes g) : Waiting c (List.range c.size) (start c) where
  nodup := List.nodup_range
  lt _ hk := List.mem_range.mp hk
  closed k hk _ _ _ := List.mem_range.mpr hk
  pending k hk := by
    have hk := List.mem_range.mp hk
    have hall : (c.dependencies k).countP (· ∈ List.range c.size) = (c.dependencies k).length := by
      refine List.countP_eq_length.mpr fun d hd => ?_
      exact decide_eq_true (List.mem_range.mpr (hc.dependencies_lt hk hd))
    rw [hall, Array.getD_eq_getD_getElem?, Condensation.dependencies]
    have hk' : k < c.components.length := hk
    simp [start, hk']
  ready_nodup := start_ready_nodup c
  mem_ready k := by
    rw [mem_start_ready, List.mem_range]
    refine and_congr_right fun hk => ⟨fun hnil d hd => ?_, fun hfree => ?_⟩
    · rw [hnil] at hd
      exact absurd hd List.not_mem_nil
    · refine List.eq_nil_iff_forall_not_mem.mpr fun d hd => hfree d hd ?_
      exact List.mem_range.mpr (hc.dependencies_lt hk hd)

namespace Waiting

section
variable (hc : c.Describes g) (h : Waiting c waiting s) {number : Nat} (hn : number ∈ s.ready)
include hc h hn

theorem mem_dependents_iff {k : Nat} (hk : k ∈ waiting) :
    k ∈ c.dependents number ↔ number ∈ c.dependencies k :=
  hc.mem_dependents k (h.lt k hk) number (h.lt number ((h.mem_ready number).mp hn).1)

/-- Whoever depends on a component that waits does so too. -/
theorem dependent_waits {k : Nat} (hk : k ∈ c.dependents number) : k ∈ waiting := by
  have hnw := ((h.mem_ready number).mp hn).1
  have hksize := hc.dependents_lt number (h.lt number hnw) k hk
  exact h.closed k hksize number ((hc.mem_dependents k hksize number (h.lt number hnw)).mp hk) hnw

/-- What a counter becomes when `number` is placed, and how much it goes down. -/
theorem pending_eq {k : Nat} (hk : k ∈ waiting) :
    s.pending.getD k 0 = (c.dependencies k).countP (· ∈ waiting.erase number) +
      if number ∈ c.dependencies k then 1 else 0 := by
  rw [h.pending k hk]
  exact countP_mem_erase h.nodup ((h.mem_ready number).mp hn).1
    (hc.dependencies_nodup k (h.lt k hk))

theorem mem_place_ready (all : Array Group) (k : Nat) :
    k ∈ (Sequencer.place c all s number).ready ↔
      k ∈ waiting.erase number ∧ ∀ d ∈ c.dependencies k, d ∉ waiting.erase number := by
  obtain ⟨hnw, hfree⟩ := (h.mem_ready number).mp hn
  have hnone : (∀ d ∈ c.dependencies k, d ∉ waiting.erase number) ↔
      (c.dependencies k).countP (· ∈ waiting.erase number) = 0 := by
    simp [List.countP_eq_zero]
  have hplaced : k ∈ (Sequencer.place c all s number).ready ↔
      k ∈ s.ready.erase number ∨ k ∈ c.dependents number ∧ s.pending.getD k 0 ≤ 1 :=
    mem_foldl_release_ready (hc.dependents_nodup number (h.lt number hnw)) _ k
  rw [hplaced, h.ready_nodup.mem_erase_iff, h.nodup.mem_erase_iff]
  constructor
  · rintro (⟨hne, hkr⟩ | ⟨hk, hle⟩)
    · obtain ⟨hkw, hkfree⟩ := (h.mem_ready k).mp hkr
      exact ⟨⟨hne, hkw⟩, fun d hd hdw => hkfree d hd (List.mem_of_mem_erase hdw)⟩
    · have hkw := h.dependent_waits hc hn hk
      have hdep := (h.mem_dependents_iff hc hn hkw).mp hk
      rw [h.pending_eq hc hn hkw, if_pos hdep] at hle
      refine ⟨⟨?_, hkw⟩, hnone.mpr (by omega)⟩
      rintro rfl
      exact hfree k hdep hnw
  · rintro ⟨⟨hne, hkw⟩, hkfree⟩
    by_cases hdep : number ∈ c.dependencies k
    · refine .inr ⟨(h.mem_dependents_iff hc hn hkw).mpr hdep, Nat.le_of_eq ?_⟩
      rw [h.pending_eq hc hn hkw, if_pos hdep, hnone.mp hkfree]
    · refine .inl ⟨hne, (h.mem_ready k).mpr ⟨hkw, fun d hd hdw => hkfree d hd ?_⟩⟩
      have hdn : d ≠ number := fun heq => hdep (heq ▸ hd)
      exact (List.mem_erase_of_ne hdn).mpr hdw

/-- Placing a ready component takes it off the list of those that wait. -/
theorem place (all : Array Group) :
    Waiting c (waiting.erase number) (Sequencer.place c all s number) := by
  obtain ⟨hnw, hfree⟩ := (h.mem_ready number).mp hn
  have hnodup := hc.dependents_nodup number (h.lt number hnw)
  constructor
  case nodup => exact h.nodup.erase number
  case lt => exact fun k hk => h.lt k (List.mem_of_mem_erase hk)
  case closed =>
    intro k hk d hd hdw
    have hdw' := List.mem_of_mem_erase hdw
    refine (List.mem_erase_of_ne ?_).mpr (h.closed k hk d hd hdw')
    rintro rfl
    exact hfree d hd hdw'
  case pending =>
    intro k hk
    have hkw := List.mem_of_mem_erase hk
    have hpending : (Sequencer.place c all s number).pending.getD k 0 =
        s.pending.getD k 0 - if k ∈ c.dependents number then 1 else 0 :=
      foldl_release_pending hnodup _ k
    rw [hpending, h.pending_eq hc hn hkw]
    simp only [h.mem_dependents_iff hc hn hkw]
    omega
  case ready_nodup =>
    refine foldl_release_ready_nodup hnodup (h.ready_nodup.erase number) fun k hk hkr => ?_
    have hdep := (h.mem_dependents_iff hc hn (h.dependent_waits hc hn hk)).mp hk
    exact ((h.mem_ready k).mp (List.mem_of_mem_erase hkr)).2 number hdep hnw
  case mem_ready => exact h.mem_place_ready hc hn all

end

end Waiting

/-! ### Placing everything -/

/-- Of components that wait, one depends on none of the others. -/
theorem exists_free (hc : c.Describes g) (hne : waiting ≠ []) :
    ∃ k ∈ waiting, ∀ d ∈ waiting, ¬ c.DependsOn k d := by
  induction waiting with
  | nil => exact absurd rfl hne
  | cons a rest ih =>
    by_cases hrest : rest = []
    · subst hrest
      refine ⟨a, List.mem_cons_self .., fun d hd => ?_⟩
      rw [List.mem_singleton.mp hd]
      exact hc.acyclic a
    · obtain ⟨m, hm, hfree⟩ := ih hrest
      by_cases hma : c.DependsOn m a
      · refine ⟨a, List.mem_cons_self .., fun d hd had => ?_⟩
        rcases List.mem_cons.mp hd with rfl | hd
        · exact hc.acyclic d had
        · exact hfree d hd (hma.trans had)
      · refine ⟨m, List.mem_cons_of_mem a hm, fun d hd => ?_⟩
        rcases List.mem_cons.mp hd with rfl | hd
        · exact hma
        · exact hfree d hd

theorem Waiting.exists_ready (hc : c.Describes g) (h : Waiting c waiting s) (hne : waiting ≠ []) :
    s.ready ≠ [] := by
  obtain ⟨k, hk, hfree⟩ := exists_free hc hne
  refine List.ne_nil_of_mem ((h.mem_ready k).mpr ⟨hk, fun d hd hdw => ?_⟩)
  exact hfree d hdw (.single ⟨h.lt k hk, hd⟩)

/-- The number by which ready components are chosen: the rank of the best member. -/
def key (rank : Nat → Nat) (all : Array Group) (number : Nat) : Nat :=
  (all[number]?.map (representative rank)).getD 0

/-- The components in the order in which a run places them. -/
def choices (c : Condensation) (rank : Nat → Nat) (all : Array Group) : Nat → State → List Nat
  | 0, _ => []
  | steps + 1, s =>
    match best (key rank all) s.ready with
    | none => []
    | some number => number :: choices c rank all steps (place c all s number)

theorem run_eq (c : Condensation) (rank : Nat → Nat) (probe : Probe) (all : Array Group)
    (steps : Nat) (s : State) :
    run c rank probe all steps s =
      Polling.polled probe (choices c rank all steps s).length
        (s.placed ++ (choices c rank all steps s).flatMap fun k => all[k]?.toList) := by
  induction steps generalizing s with
  | zero =>
    rw [run, choices, List.length_nil, Polling.polled_zero, List.flatMap_nil, List.append_nil]
  | succ steps ih =>
    rw [run, choices]
    show (match best (key rank all) s.ready with
      | none => pure s.placed
      | some number => _) = _
    cases best (key rank all) s.ready with
    | none => rw [List.length_nil, Polling.polled_zero, List.flatMap_nil, List.append_nil]
    | some number =>
      have hplaced : (place c all s number).placed = s.placed ++ all[number]?.toList := by
        rw [place, foldl_release_placed]
      rw [List.length_cons, Polling.polled_succ, List.flatMap_cons, ← List.append_assoc, ← hplaced]
      simp only [ih]

/-- A run that has time for all that waits places it in greedy order. -/
theorem choices_greedy (hc : c.Describes g) (rank : Nat → Nat) (all : Array Group)
    (hkey : ∀ a < c.size, ∀ b < c.size, key rank all a = key rank all b → a = b)
    (h : Waiting c waiting s) :
    (choices c rank all waiting.length s).Perm waiting ∧
      Greedy (fun k d => d ∈ c.dependencies k) (fun a b => key rank all a < key rank all b)
        (choices c rank all waiting.length s) := by
  induction hlen : waiting.length generalizing waiting s with
  | zero =>
    obtain rfl := List.eq_nil_of_length_eq_zero hlen
    exact ⟨.nil, .nil⟩
  | succ steps ih =>
    have hne : waiting ≠ [] := List.ne_nil_of_length_eq_add_one hlen
    cases hbest : best (key rank all) s.ready with
    | none => exact absurd (best_eq_none_iff.mp hbest) (h.exists_ready hc hne)
    | some number =>
      obtain ⟨hnr, hleast⟩ := best_spec hbest
      obtain ⟨hnw, hfree⟩ := (h.mem_ready number).mp hnr
      have hlen' : (waiting.erase number).length = steps := by
        rw [List.length_erase_of_mem hnw, hlen, Nat.add_sub_cancel]
      obtain ⟨hperm, hgreedy⟩ := ih (h.place hc hnr all) hlen'
      have hperm' := (hperm.cons number).trans (List.perm_cons_erase hnw).symm
      rw [choices, hbest]
      refine ⟨hperm', .cons (fun z hz hdep => ?_) (fun y hy hready => ?_) hgreedy⟩
      · exact absurd (hperm'.subset hz) (hfree z hdep)
      · obtain ⟨hyn, hyw⟩ := h.nodup.mem_erase_iff.mp (hperm.subset hy)
        have hyr : y ∈ s.ready := by
          refine (h.mem_ready y).mpr ⟨hyw, fun d hd hdw => ?_⟩
          obtain rfl := hready d (hperm'.symm.subset hdw) hd
          exact hc.acyclic d (.single ⟨h.lt d hyw, hd⟩)
        refine Nat.lt_of_le_of_ne (hleast y hyr) fun heq => hyn ?_
        exact (hkey number (h.lt number hnw) y (h.lt y hyw) heq).symm

end CalleeFirst.Sequencer
