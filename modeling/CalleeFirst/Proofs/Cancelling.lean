import CalleeFirst.Proofs.Extraction
import Mathlib.Data.Finset.Card

/-! When orderings give up.

A run that `Asks` for a number of answers has its result if none of them is "cancelled", and
otherwise ends with the first that is. An ordering asks once for every declaration, once more,
and once for every circle of declarations that reach each other; the circles of a batch are
counted by the components of its call graph (`Batch.card_circles`). A text is reordered block by
block, and asks for what its blocks ask for.

`asks_exactly`: invalid batches are refused before the first answer; valid batches and all texts
that can be read ask for exactly as many answers as they have declarations, blocks and circles. -/
namespace CalleeFirst

/-! ### Circles -/

/-- The circles of a batch: every declaration with those that it reaches and that reach it. -/
def Batch.circles (batch : List Declaration) : Finset (Finset Nat) :=
  (Finset.range batch.length).image fun i =>
    (Finset.range batch.length).filter (Together (Batch.Reaches batch) i)

theorem Batch.card_circles (batch : List Declaration) :
    (circles batch).card = (Condensation.ofGraph (CallGraph.ofBatch batch)).size := by
  have hc := Condensation.describes_ofGraph (CallGraph.inside_ofBatch batch)
  generalize Condensation.ofGraph (CallGraph.ofBatch batch) = c at hc
  let component (k : Nat) : Finset Nat :=
    (Finset.range batch.length).filter fun i => c.componentOf i = k
  have hmem : ∀ k i, i ∈ component k ↔ i < batch.length ∧ c.componentOf i = k := by
    intro k i
    rw [Finset.mem_filter, Finset.mem_range]
  have hcircle : ∀ i < batch.length,
      (Finset.range batch.length).filter (Together (Batch.Reaches batch) i) =
        component (c.componentOf i) := by
    intro i hi
    refine Finset.filter_congr fun j hj => ?_
    rw [← CallGraph.reaches_ofBatch, ← hc.componentOf_eq_iff i hi j (Finset.mem_range.mp hj),
      eq_comm]
  have hexists : ∀ k < c.size, ∃ i < batch.length, c.componentOf i = k := by
    intro k hk
    obtain ⟨i, hi⟩ := List.exists_mem_of_ne_nil _ (hc.members_ne_nil k hk)
    exact ⟨i, (hc.mem_members k hk i).mp hi⟩
  have hcomponents : circles batch = (Finset.range c.size).image component := by
    ext members
    simp only [circles, Finset.mem_image, Finset.mem_range]
    constructor
    · intro ⟨i, hi, hmembers⟩
      exact ⟨c.componentOf i, hc.componentOf_lt i hi, by rw [← hcircle i hi, hmembers]⟩
    · intro ⟨k, hk, hmembers⟩
      obtain ⟨i, hi, rfl⟩ := hexists k hk
      exact ⟨i, hi, by rw [hcircle i hi, hmembers]⟩
  have hinj : Set.InjOn component (Finset.range c.size) := by
    intro k hk l _ hkl
    obtain ⟨i, hi⟩ := hexists k (Finset.mem_range.mp hk)
    have hl := (hmem l i).mp (hkl ▸ (hmem k i).mpr hi)
    exact hi.2.symm.trans hl.2
  rw [hcomponents, Finset.card_image_of_injOn hinj, Finset.card_range]

theorem Batch.pollCount_eq (batch : List Declaration) :
    pollCount batch = batch.length + 1 + (circles batch).card := by
  rw [pollCount, card_circles]
  omega

/-! ### Answers -/

/-- A run with a result, which asks for `total` answers before it returns it. -/
structure Asks (run : Probe → Except ε α × Nat) (cancelled : ε) (total : Nat) : Prop where
  completes : ∃ result, (run Probe.never).1 = .ok result
  quiet : ∀ probe, (∀ k < total, probe k = false) → run probe = ((run Probe.never).1, total)
  stops : ∀ probe, ∀ k < total, (∀ j < k, probe j = false) → probe k = true →
    run probe = (.error cancelled, k + 1)

theorem asks_polled (total : Nat) (result : α) :
    Asks (fun probe => (Polling.polled probe total result).outcome 0) .cancelled total where
  completes := ⟨result, by rw [Polling.outcome_polled_never]⟩
  quiet probe hquiet := by
    rw [Polling.outcome_polled_never, Polling.outcome_polled_of_quiet result
      (by simpa using hquiet), Nat.zero_add]
  stops probe k hk hquiet hcancelled := by
    rw [Polling.outcome_polled_of_cancelled result hk (by simpa using hquiet)
      (by simpa using hcancelled), Nat.zero_add]

theorem Asks.mapError {run : Probe → Except ε α × Nat} {cancelled : ε} {total : Nat}
    (h : Asks run cancelled total) (f : ε → δ) :
    Asks (fun probe => ((run probe).1.mapError f, (run probe).2)) (f cancelled) total where
  completes := by
    obtain ⟨result, hresult⟩ := h.completes
    exact ⟨result, by rw [hresult]; rfl⟩
  quiet probe hquiet := by rw [h.quiet probe hquiet]
  stops probe k hk hquiet hcancelled := by
    rw [h.stops probe k hk hquiet hcancelled]
    rfl

/-! ### Orderings -/

theorem computeOrder_refused (s : Settings) {batch : List Declaration} (h : ¬ Batch.Valid batch) :
    ∃ defect, ∀ probe polls, (computeOrder probe s batch).outcome polls =
      (.error (.invalid defect), polls) := by
  cases hcheck : Batch.check batch with
  | error defect =>
    refine ⟨defect, fun probe polls => ?_⟩
    rw [computeOrder, orderGroups_of_error s batch probe hcheck]
    rfl
  | ok => exact absurd ((Batch.check_eq_ok_iff batch).mp hcheck) h

theorem computeOrder_asks (s : Settings) {batch : List Declaration} (hv : Batch.Valid batch) :
    Asks (fun probe => (computeOrder probe s batch).outcome 0) .cancelled
      (batch.length + 1 + (Batch.circles batch).card) := by
  have hasks := asks_polled (Batch.pollCount batch) (ordering s batch)
  simp only [← computeOrder_eq s _ hv] at hasks
  rwa [Batch.pollCount_eq] at hasks

theorem Source.reorder_asks {options : Options} {source : List Char} {found : List Source.Block}
    (hfound : blocks options.visibilityOrder source = .ok found) :
    Asks (fun probe => reorder options probe source) (.ordering .cancelled)
      (found.map fun b => b.members.length + 1 + (Batch.circles b.declarations).card).sum := by
  have hcount (b : Block) :
      b.members.length + 1 + (Batch.circles b.declarations).card =
        Batch.pollCount b.declarations := by
    rw [Batch.pollCount_eq, Block.length_declarations]
  simp only [hcount, reorder_eq hfound (blocks_orderable hfound)]
  exact (asks_polled _ _).mapError SourceFault.ordering

/-- **The polls of an ordering.** Nothing depends on the answers but whether it is completed. -/
theorem asks_exactly :
    (∀ (s : Settings) (batch : List Declaration),
      (¬ Batch.Valid batch → ∃ defect, ∀ probe polls,
        (computeOrder probe s batch).outcome polls = (.error (.invalid defect), polls)) ∧
      (Batch.Valid batch → Asks (fun probe => (computeOrder probe s batch).outcome 0) .cancelled
        (batch.length + 1 + (Batch.circles batch).card))) ∧
    ∀ (options : Options) (source : List Char) (found : List Source.Block),
      Source.blocks options.visibilityOrder source = .ok found →
        Asks (fun probe => Source.reorder options probe source) (.ordering .cancelled)
          (found.map fun b => b.members.length + 1 + (Batch.circles b.declarations).card).sum :=
  ⟨fun s _ => ⟨computeOrder_refused s, computeOrder_asks s⟩, fun _ _ _ => Source.reorder_asks⟩

/-- A batch with a circle of two declarations, the same twice over, and a text with two blocks. -/
theorem asks_exactly_sample :
    (∃ defect, ∀ probe polls,
      (computeOrder probe {} (Batch.sample ++ Batch.sample)).outcome polls =
        (.error (.invalid defect), polls)) ∧
    Asks (fun probe => (computeOrder probe {} Batch.sample).outcome 0) .cancelled 10 ∧
    Asks (fun probe => Source.reorder {} probe Source.sampleText) (.ordering .cancelled) 8 := by
  obtain ⟨hbatches, htexts⟩ := asks_exactly
  refine ⟨(hbatches {} _).1 (by decide +kernel), ?_, ?_⟩
  · have hcount : Batch.sample.length + 1 + (Batch.circles Batch.sample).card = 10 := by
      decide +kernel
    exact hcount ▸ (hbatches {} Batch.sample).2 Batch.valid_sample
  · have hcount : (Source.sampleBlocks.map fun b =>
        b.members.length + 1 + (Batch.circles b.declarations).card).sum = 8 := by decide +kernel
    exact hcount ▸ htexts {} Source.sampleText Source.sampleBlocks Source.blocks_sampleText

end CalleeFirst
