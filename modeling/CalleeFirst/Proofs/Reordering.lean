import CalleeFirst.Proofs.BlockReordering

/-! Reordering a source text.

If the members of all blocks have their pieces of the text, the text is reordered exactly if
every block can be ordered, and by the orders alone (`eq_rearrangement_of_reorder`). Every
offset belongs to at most one block. Inside a block it is moved by the block's remap, even
if the block stays as it is (`remap_eq`), and stays in it; outside of all blocks it stays.

`reorder_rearranges`: the reordered text has the bytes of the source at their new places. -/
namespace CalleeFirst.Source

open Remap (laidOut)
open Text (IsBoundary bytes byteLength)

/-- The members of all blocks have their pieces of the text, and blocks that have members come
one behind the other. -/
@[mk_iff]
structure PlacedApart (source : List Char) (found : List Block) : Prop where
  each : ∀ b ∈ found, b.PlacedIn source
  ordered : found.Pairwise fun b c => b.members ≠ [] → c.members ≠ [] → b.span.stop ≤ c.span.start

instance (source : List Char) (found : List Block) : Decidable (PlacedApart source found) :=
  decidable_of_iff' _ (placedApart_iff source found)

/-- A source text with the members of every block in their order. -/
def rearrangement (source : List Char) (s : Settings) (found : List Block) : Reordered :=
  let results := found.map fun b => b.rearranged source (b.order s)
  let edits := results.filterMap Prod.snd
  { text := applyEdits source edits, blocks := results.map Prod.fst, edits }

/-! ### The run -/

section
variable {source : List Char} {s : Settings} {found : List Block}

/-- Under a probe of any kind the blocks are reordered one way only. -/
theorem eq_of_reorderBlocks {probe : Probe} {polls : Nat}
    {results : List (BlockReport × Option Edit)}
    (hok : (reorderBlocks source s probe polls found).1 = .ok results) :
    (∀ b ∈ found, Batch.Valid b.declarations) ∧
      (found.map fun b => b.rearranged source (b.order s)) = results := by
  induction found generalizing polls results with
  | nil => exact ⟨fun b hb => absurd hb List.not_mem_nil, Except.ok.inj hok⟩
  | cons b rest ih =>
    rw [reorderBlocks] at hok
    rcases hfirst : reorderBlock source s probe polls b with ⟨_ | first, after⟩
    · rw [hfirst] at hok
      cases hok
    rcases hrest : reorderBlocks source s probe after rest with ⟨_ | others, last⟩
    · simp only [hfirst, hrest] at hok
      cases hok
    · simp only [hfirst, hrest] at hok
      obtain ⟨hv, rfl⟩ := Block.eq_of_reorderBlock (congrArg Prod.fst hfirst)
      obtain ⟨hvalid, rfl⟩ := ih (congrArg Prod.fst hrest)
      exact ⟨List.forall_mem_cons.mpr ⟨hv, hvalid⟩, Except.ok.inj hok⟩

/-- Blocks that can be ordered are polled one after the other. -/
theorem reorderBlocks_eq (h : ∀ b ∈ found, b.Orderable) (probe : Probe) (polls : Nat) :
    reorderBlocks source s probe polls found =
      (Polling.polled probe (found.map fun b => Batch.pollCount b.declarations).sum
        (found.map fun b => b.rearranged source (b.order s))).outcome polls := by
  induction found generalizing polls with
  | nil => rfl
  | cons b rest ih =>
    obtain ⟨hb, hrest⟩ := List.forall_mem_cons.mp h
    rw [reorderBlocks, hb.reorderBlock, List.map_cons, List.map_cons, List.sum_cons,
      Polling.outcome_polled_add probe _ _ polls (b.rearranged source (b.order s))]
    rcases hfirst : (Polling.polled probe (Batch.pollCount b.declarations)
      (b.rearranged source (b.order s))).outcome polls with ⟨_ | first, after⟩
    · rfl
    · obtain rfl := Polling.eq_of_outcome_polled (congrArg Prod.fst hfirst)
      dsimp only
      rw [Polling.outcome_polled_map probe _ (List.cons _), ← ih hrest]
      rcases reorderBlocks source s probe after rest with ⟨_ | others, last⟩ <;> rfl

variable {options : Options} (hfound : blocks options.visibilityOrder source = .ok found)
include hfound

theorem eq_rearrangement_of_reorder {probe : Probe} {r : Reordered}
    (hok : (reorder options probe source).1 = .ok r) :
    (∀ b ∈ found, Batch.Valid b.declarations) ∧
      rearrangement source options.ordering found = r := by
  rw [reorder, hfound] at hok
  rcases hresults : reorderBlocks source options.ordering probe 0 found with ⟨_ | results, polls⟩
  · simp only [hresults] at hok
    cases hok
  · simp only [hresults] at hok
    obtain ⟨hv, rfl⟩ := eq_of_reorderBlocks (congrArg Prod.fst hresults)
    exact ⟨hv, Except.ok.inj hok⟩

theorem reorder_eq (h : ∀ b ∈ found, b.Orderable) (probe : Probe) :
    let run := (Polling.polled probe (found.map fun b => Batch.pollCount b.declarations).sum
      (rearrangement source options.ordering found)).outcome 0
    reorder options probe source = (run.1.mapError .ordering, run.2) := by
  let assembled (results : List (BlockReport × Option Edit)) : Reordered :=
    let edits := results.filterMap Prod.snd
    { text := applyEdits source edits, blocks := results.map Prod.fst, edits }
  have hassembled := Polling.outcome_polled_map probe
    (found.map fun b => Batch.pollCount b.declarations).sum
    assembled (found.map fun b => b.rearranged source (b.order options.ordering)) 0
  rw [← reorderBlocks_eq h] at hassembled
  intro run
  have hrun : run = _ := hassembled
  rw [reorder, hfound, hrun]
  dsimp only
  rcases reorderBlocks source options.ordering probe 0 found with ⟨_ | results, polls⟩ <;> rfl

theorem reorder_never (h : ∀ b ∈ found, b.PlacedIn source)
    (hv : ∀ b ∈ found, Batch.Valid b.declarations) :
    (reorder options Probe.never source).1 = .ok (rearrangement source options.ordering found) := by
  rw [reorder_eq hfound fun b hb => (h b hb).orderable (hv b hb), Polling.outcome_polled_never]
  rfl

end

/-! ### Blocks and offsets -/

theorem Block.members_ne_of_has {b : Block} {i : Nat} (hi : b.span.has i = true) :
    b.members ≠ [] := by
  intro hnil
  have hspan : b.span = ⟨0, 0⟩ := by rw [span, ranges, hnil]; rfl
  rw [hspan, ByteRange.has_iff] at hi
  exact Nat.not_lt_zero i hi.2

theorem Block.PlacedIn.lt_of_has {source : List Char} {b : Block} (h : b.PlacedIn source) {i : Nat}
    (hi : b.span.has i = true) : i < byteLength source := by
  have hstop := (h.span_stop (members_ne_of_has hi)).le
  rw [ByteRange.has_iff] at hi
  omega

/-- A block with an order of its own has members. -/
theorem Block.members_ne_of_order_ne {b : Block} {order : List Nat}
    (hperm : order.Perm (List.range b.members.length)) (h : order ≠ List.range order.length) :
    b.members ≠ [] := by
  intro hnil
  rw [hnil] at hperm
  obtain rfl := List.perm_nil.mp hperm
  exact h rfl

section
variable {source : List Char} {s : Settings} {found : List Block}

theorem mem_edits {e : Edit} : e ∈ (rearrangement source s found).edits ↔
    ∃ b ∈ found, b.order s ≠ List.range (b.order s).length ∧ b.edit source (b.order s) = e := by
  simp only [rearrangement, List.filterMap_map, List.mem_filterMap, Function.comp, Block.rearranged,
    Option.ite_none_right_eq_some, bne_iff_ne, Option.some.injEq]

/-- The edits come as the blocks that have members do. -/
theorem pairwise_edits (R : ByteRange → ByteRange → Prop)
    (hv : ∀ b ∈ found, Batch.Valid b.declarations)
    (h : found.Pairwise fun b c => b.members ≠ [] → c.members ≠ [] → R b.span c.span) :
    (rearrangement source s found).edits.Pairwise fun e f => R e.span f.span := by
  rw [rearrangement, List.filterMap_map]
  have hne : ∀ b ∈ found, ∀ e, (b.rearranged source (b.order s)).2 = some e →
      b.members ≠ [] ∧ e.span = b.span := by
    intro b hb e he
    simp only [Block.rearranged, Option.ite_none_right_eq_some, bne_iff_ne, Option.some.injEq] at he
    exact ⟨Block.members_ne_of_order_ne (Block.order_perm (hv b hb)) he.1, he.2 ▸ rfl⟩
  rw [List.pairwise_filterMap]
  refine h.imp_of_mem fun {b c} hb hc hR e he f hf => ?_
  obtain ⟨hbne, hbspan⟩ := hne b hb e he
  obtain ⟨hcne, hcspan⟩ := hne c hc f hf
  rw [hbspan, hcspan]
  exact hR hbne hcne

end

namespace PlacedApart
variable {source : List Char} {found : List Block} (h : PlacedApart source found)
include h

theorem apart {b c : Block} (hb : b ∈ found) (hc : c ∈ found) (hbne : b.members ≠ [])
    (hcne : c.members ≠ []) :
    b = c ∨ b.span.stop ≤ c.span.start ∨ c.span.stop ≤ b.span.start := by
  obtain ⟨m, hm, rfl⟩ := List.getElem_of_mem hb
  obtain ⟨n, hn, rfl⟩ := List.getElem_of_mem hc
  have hordered := List.pairwise_iff_getElem.mp h.ordered
  rcases Nat.lt_trichotomy m n with hlt | rfl | hgt
  · exact .inr (.inl (hordered m n hm hn hlt hbne hcne))
  · exact .inl rfl
  · exact .inr (.inr (hordered n m hn hm hgt hcne hbne))

theorem eq_of_has {b c : Block} {i : Nat} (hb : b ∈ found) (hc : c ∈ found)
    (hbi : b.span.has i = true) (hci : c.span.has i = true) : b = c := by
  refine (h.apart hb hc (Block.members_ne_of_has hbi)
    (Block.members_ne_of_has hci)).resolve_right ?_
  rw [ByteRange.has_iff] at hbi hci
  omega

variable {s : Settings}

variable (hv : ∀ b ∈ found, Batch.Valid b.declarations)
include hv

theorem editable : Editable source (rearrangement source s found).edits where
  fits e he := by
    obtain ⟨b, hb, hmoved, rfl⟩ := mem_edits.mp he
    have hperm := Block.order_perm (s := s) (hv b hb)
    exact (h.each b hb).edit_fitsIn (Block.members_ne_of_order_ne hperm hmoved) hperm
  ordered := pairwise_edits (fun a b => a.stop ≤ b.start) hv h.ordered

theorem byteLength_text : byteLength (rearrangement source s found).text = byteLength source :=
  (h.editable hv).byteLength_applyEdits

variable (hsize : byteLength source < 9223372036854775808)
include hsize

/-- Inside the span of a block, offsets are moved by the remap of its order. -/
theorem remap_eq {b : Block} (hb : b ∈ found) {i : Nat} (hi : b.span.has i = true) :
    (rearrangement source s found).remap i = (laidOut b.ranges (b.order s)).apply i := by
  by_cases hmoved : b.order s = List.range (b.order s).length
  · have hplaced := h.each b hb
    have hrange : b.order s = List.range b.ranges.length := by
      rw [hmoved, (Block.order_perm (hv b hb)).length_eq, List.length_range, Block.length_ranges]
    rw [hrange, Remap.apply_range hsize (hplaced.inLine fun _ _ => Nat.zero_le _)
      (fun r => hplaced.stop_le)
      (hplaced.lt_of_has hi)]
    refine Reordered.remap_outside fun e he => ?_
    obtain ⟨c, hc, hother, rfl⟩ := mem_edits.mp he
    rw [← Bool.not_eq_true]
    intro hci
    exact hother (h.eq_of_has hb hc hi hci ▸ hmoved)
  · exact Reordered.remap_inside (h.editable hv) (mem_edits.mpr ⟨b, hb, hmoved, rfl⟩) hi

omit h hv hsize in
theorem remap_of_outside {i : Nat} (hi : ∀ b ∈ found, b.span.has i = false) :
    (rearrangement source s found).remap i = i := by
  refine Reordered.remap_outside fun e he => ?_
  obtain ⟨b, hb, _, rfl⟩ := mem_edits.mp he
  exact hi b hb

theorem has_remap {b : Block} (hb : b ∈ found) {i : Nat} (hi : b.span.has i = true) :
    b.span.has ((rearrangement source s found).remap i) = true := by
  rw [h.remap_eq hv hsize hb hi]
  exact ((h.each b hb).getElem?_replacement (Block.members_ne_of_has hi)
    (Block.order_perm (hv b hb)) hsize hi).1

theorem getElem?_remap (i : Nat) :
    (bytes (rearrangement source s found).text)[(rearrangement source s found).remap i]? =
      (bytes source)[i]? := by
  by_cases hedit : ∃ e ∈ (rearrangement source s found).edits, e.span.has i = true
  · obtain ⟨e, he, hi⟩ := hedit
    obtain ⟨b, hb, _, rfl⟩ := mem_edits.mp he
    have hplace := (h.each b hb).getElem?_replacement (Block.members_ne_of_has hi)
      (Block.order_perm (s := s) (hv b hb)) hsize hi
    rw [h.remap_eq hv hsize hb hi]
    exact ((h.editable hv).getElem?_inside he hplace.1).trans hplace.2
  · have hout : ∀ e ∈ (rearrangement source s found).edits, e.span.has i = false := by
      simpa using hedit
    rw [Reordered.remap_outside hout]
    exact (h.editable hv).getElem?_outside hout

theorem has_remap_iff {b : Block} (hb : b ∈ found) (i : Nat) :
    b.span.has ((rearrangement source s found).remap i) = true ↔ b.span.has i = true := by
  refine ⟨fun hplace => ?_, h.has_remap hv hsize hb⟩
  by_cases hblock : ∃ c ∈ found, c.span.has i = true
  · obtain ⟨c, hc, hi⟩ := hblock
    exact h.eq_of_has hb hc hplace (h.has_remap hv hsize hc hi) ▸ hi
  · rwa [remap_of_outside (by simpa using hblock)] at hplace

theorem remap_inj {i j : Nat}
    (heq : (rearrangement source s found).remap i = (rearrangement source s found).remap j) :
    i = j := by
  by_cases hblock : ∃ b ∈ found, b.span.has i = true
  · obtain ⟨b, hb, hi⟩ := hblock
    have hplaced := h.each b hb
    have hj : b.span.has j = true := by
      rwa [← h.has_remap_iff (s := s) hv hsize hb, ← heq, h.has_remap_iff hv hsize hb]
    rw [h.remap_eq hv hsize hb hi, h.remap_eq hv hsize hb hj] at heq
    exact Remap.apply_inj hsize (hplaced.accepted (Block.order_perm (hv b hb)))
      (fun r => hplaced.stop_le)
      (hplaced.lt_of_has hi) (hplaced.lt_of_has hj) heq
  · have hi : ∀ b ∈ found, b.span.has i = false := by simpa using hblock
    have hj : ∀ b ∈ found, b.span.has j = false := by
      intro b hb
      rw [← Bool.not_eq_true, ← h.has_remap_iff (s := s) hv hsize hb, ← heq, remap_of_outside hi,
        hi b hb]
      exact Bool.false_ne_true
    rwa [remap_of_outside hi, remap_of_outside hj] at heq

theorem remap_lt {i : Nat} (hi : i < byteLength source) :
    (rearrangement source s found).remap i < byteLength source := by
  have hget := h.getElem?_remap (s := s) hv hsize i
  rw [← Text.length_bytes] at hi
  rw [List.getElem?_eq_getElem hi] at hget
  have hlt := (List.getElem?_eq_some_iff.mp hget).1
  rwa [Text.length_bytes, h.byteLength_text hv] at hlt

theorem remap_bijOn : Set.BijOn (rearrangement source s found).remap (Set.Iio (byteLength source))
    (Set.Iio (byteLength source)) := by
  have hmaps : Set.MapsTo (rearrangement source s found).remap (Finset.range (byteLength source))
      (Finset.range (byteLength source)) := by
    intro i hi
    simp only [Finset.coe_range, Set.mem_Iio] at hi ⊢
    exact h.remap_lt hv hsize hi
  have hinj : Set.InjOn (rearrangement source s found).remap (Finset.range (byteLength source)) :=
    fun i _ j _ => h.remap_inj hv hsize
  have hsurj := Finset.surjOn_of_injOn_of_card_le _ hmaps hinj le_rfl
  rw [Finset.coe_range] at hmaps hinj hsurj
  exact ⟨hmaps, hinj, hsurj⟩

/-- What stands in front of a place that is not inside of a block stays in front of it. -/
theorem remap_lt_iff {p i : Nat} (hp : ∀ b ∈ found, b.members ≠ [] → p ≤ b.span.start ∨
      b.span.stop ≤ p) :
    (rearrangement source s found).remap i < p ↔ i < p := by
  by_cases hblock : ∃ b ∈ found, b.span.has i = true
  · obtain ⟨b, hb, hi⟩ := hblock
    have hcut := hp b hb (Block.members_ne_of_has hi)
    have hplace := ByteRange.has_iff.mp (h.has_remap (s := s) hv hsize hb hi)
    rw [ByteRange.has_iff] at hi
    omega
  · rw [remap_of_outside (by simpa using hblock)]

/-- Offsets that belong to no member keep their order. -/
theorem remap_gap_lt {i j : Nat} (hij : i < j) (hi : ∀ b ∈ found, ∀ r ∈ b.ranges, r.has i = false)
    (hj : ∀ b ∈ found, ∀ r ∈ b.ranges, r.has j = false) :
    (rearrangement source s found).remap i < (rearrangement source s found).remap j := by
  by_cases hblock : ∃ c ∈ found, c.span.has j = true
  · obtain ⟨c, hc, hcj⟩ := hblock
    have hplaced := h.each c hc
    by_cases hci : c.span.has i = true
    · have hlt := hplaced.lt_of_has hcj
      rw [h.remap_eq hv hsize hc hci, h.remap_eq hv hsize hc hcj]
      exact Remap.apply_gap_lt hsize (hplaced.accepted (Block.order_perm (hv c hc)))
        (fun r => hplaced.stop_le) hij
        (by omega) (hi c hc) (hj c hc)
    · have hne := Block.members_ne_of_has hcj
      have hplace := ByteRange.has_iff.mp (h.has_remap (s := s) hv hsize hc hcj)
      rw [ByteRange.has_iff] at hci hcj
      refine lt_of_lt_of_le ((h.remap_lt_iff hv hsize fun b hb hbne => ?_).mpr (by omega)) hplace.1
      have hspan := hplaced.span_lt hne
      rcases h.apart hb hc hbne hne with rfl | hle | hle <;> omega
  · have hout : ∀ b ∈ found, b.span.has j = false := by simpa using hblock
    rw [remap_of_outside hout]
    refine (h.remap_lt_iff hv hsize fun b hb _ => ?_).mpr hij
    have := ByteRange.has_eq_false_iff.mp (hout b hb)
    omega

end PlacedApart

/-! ### The reordered text -/

/-- A report lists the members of its block in the order in which they now stand. -/
structure BlockReport.Describes (report : BlockReport) (s : Settings) (r : Reordered) (b : Block) :
    Prop where
  label : report.label = b.label
  line : report.line = b.line
  order : ∃ order, ((computeOrder Probe.never s b.declarations).outcome 0).1 = .ok order ∧
    order.Perm (List.range b.members.length) ∧
    (report.moved = false ↔ order = List.range b.members.length) ∧
    report.order = order.map b.displayName ∧
    (order.map fun m => r.remap (b.ranges.getD m ⟨0, 0⟩).start).Pairwise (· < ·)

/-- The reordered text holds the bytes of the source. Members move as a whole and come in
the order of the reports, and what belongs to no member keeps its order. -/
structure Rearranges (source : List Char) (s : Settings) (found : List Block) (r : Reordered) :
    Prop where
  length : byteLength r.text = byteLength source
  bijOn : Set.BijOn r.remap (Set.Iio (byteLength source)) (Set.Iio (byteLength source))
  bytes : ∀ i < byteLength source, (bytes r.text)[r.remap i]? = (bytes source)[i]?
  beyond : ∀ i, byteLength source ≤ i → r.remap i = i
  rigid : ∀ b ∈ found, ∀ range ∈ b.ranges, ∀ d, range.start + d < range.stop →
    r.remap (range.start + d) = r.remap range.start + d
  reports : List.Forall₂ (fun b report => BlockReport.Describes report s r b) found r.blocks
  gaps : ∀ i j, i < j → (∀ b ∈ found, ∀ range ∈ b.ranges, range.has i = false) →
    (∀ b ∈ found, ∀ range ∈ b.ranges, range.has j = false) → r.remap i < r.remap j
  unchanged : r.changed = false → r.text = source

namespace PlacedApart
variable {source : List Char} {found : List Block} {s : Settings} (h : PlacedApart source found)
  (hv : ∀ b ∈ found, Batch.Valid b.declarations) (hsize : byteLength source < 9223372036854775808)
include h

theorem remap_beyond {i : Nat} (hi : byteLength source ≤ i) :
    (rearrangement source s found).remap i = i := by
  refine remap_of_outside fun b hb => ?_
  rw [← Bool.not_eq_true]
  intro hhas
  exact absurd ((h.each b hb).lt_of_has hhas) (Nat.not_lt.mpr hi)

include hv hsize

theorem remap_add {b : Block} (hb : b ∈ found) {range : ByteRange} (hr : range ∈ b.ranges) {d : Nat}
    (hd : range.start + d < range.stop) :
    (rearrangement source s found).remap (range.start + d) =
      (rearrangement source s found).remap range.start + d := by
  have hplaced := h.each b hb
  have hstart := Block.span_start_le hr
  have hstop := Block.le_span_stop hr
  obtain ⟨m, hm⟩ := List.mem_iff_getElem?.mp hr
  rw [h.remap_eq hv hsize hb (ByteRange.has_iff.mpr ⟨by omega, by omega⟩),
    h.remap_eq hv hsize hb (ByteRange.has_iff.mpr ⟨hstart, by omega⟩)]
  exact Remap.apply_add hsize (hplaced.accepted (Block.order_perm (hv b hb)))
    (fun r => hplaced.stop_le) hm hd

theorem remap_starts_sorted {b : Block} (hb : b ∈ found) :
    ((b.order s).map fun m => (rearrangement source s found).remap
      (b.ranges.getD m ⟨0, 0⟩).start).Pairwise (· < ·) := by
  have hplaced := h.each b hb
  have hperm := Block.order_perm (s := s) (hv b hb)
  have hinside : ∀ m ∈ b.order s, (rearrangement source s found).remap
    (b.ranges.getD m ⟨0, 0⟩).start =
      (laidOut b.ranges (b.order s)).apply (b.ranges.getD m ⟨0, 0⟩).start := by
    intro m hm
    have hlt : m < b.ranges.length := by
      rw [Block.length_ranges]
      exact List.mem_range.mp (hperm.subset hm)
    have hr : b.ranges.getD m ⟨0, 0⟩ ∈ b.ranges := by
      rw [List.getD_eq_getElem?_getD, List.getElem?_eq_getElem hlt]
      exact List.getElem_mem hlt
    have hne := hplaced.nonempty _ hr
    have hstop := Block.le_span_stop hr
    exact h.remap_eq hv hsize hb (ByteRange.has_iff.mpr ⟨Block.span_start_le hr, by omega⟩)
  rw [List.map_congr_left hinside, Remap.map_apply_start hsize (hplaced.accepted hperm)
    (fun r => hplaced.stop_le) hplaced.nonempty]
  refine Remap.starts_sorted 0 0 _ fun r hr => ?_
  have hmem : r ∈ b.ranges := (Remap.placedBy_perm (hplaced.accepted hperm).1).subset hr
  exact Nat.sub_pos_of_lt (hplaced.nonempty r hmem)

theorem describes {b : Block} (hb : b ∈ found) :
    BlockReport.Describes (b.rearranged source (b.order s)).1 s (rearrangement source s found)
      b where
  label := rfl
  line := rfl
  order := by
    have hperm := Block.order_perm (s := s) (hv b hb)
    have hlength := hperm.length_eq
    rw [List.length_range] at hlength
    refine ⟨b.order s, (outcome_computeOrder_iff s b.declarations).mpr ⟨hv b hb, rfl⟩, hperm, ?_,
      rfl, h.remap_starts_sorted hv hsize hb⟩
    rw [Block.rearranged, bne_eq_false_iff_eq, hlength]

theorem rearranges : Rearranges source s found (rearrangement source s found) where
  length := h.byteLength_text hv
  bijOn := h.remap_bijOn hv hsize
  bytes i _ := h.getElem?_remap hv hsize i
  beyond i := h.remap_beyond
  rigid b hb range hr d := h.remap_add hv hsize hb hr
  reports := by
    have hreports : (rearrangement source s found).blocks =
        found.map fun b => (b.rearranged source (b.order s)).1 := List.map_map ..
    rw [hreports]
    exact List.forall₂_map_right_iff.mpr (List.forall₂_same.mpr fun b hb => h.describes hv hsize hb)
  gaps i j := h.remap_gap_lt hv hsize
  unchanged hsame := by
    rw [Reordered.changed, Bool.not_eq_false', List.isEmpty_iff] at hsame
    show applyEdits source (rearrangement source s found).edits = source
    rw [hsame]
    rfl

end PlacedApart

/-- **Every byte is found again.** Where the members of all blocks have their pieces of the
text, it is reordered exactly if every block can be ordered, and a reordered text holds each
byte of the source at the place that the remap gives. Shifts are signed words, which is enough
for every text that fits into memory. -/
theorem reorder_rearranges {options : Options} {source : List Char} {found : List Block}
    (hsize : byteLength source < 9223372036854775808)
    (hfound : blocks options.visibilityOrder source = .ok found) (h : PlacedApart source found) :
    ((∃ r, (reorder options Probe.never source).1 = .ok r) ↔
      ∀ b ∈ found, Batch.Valid b.declarations) ∧
    ∀ probe r, (reorder options probe source).1 = .ok r →
      Rearranges source options.ordering found r := by
  refine ⟨⟨?_, fun hv => ⟨_, reorder_never hfound h.each hv⟩⟩, fun probe r hok => ?_⟩
  · rintro ⟨r, hok⟩
    exact (eq_rearrangement_of_reorder hfound hok).1
  · obtain ⟨hv, rfl⟩ := eq_rearrangement_of_reorder hfound hok
    exact h.rearranges hv hsize

/-- A block whose members change places, one with a comment above it, and a block that stays. -/
def sampleText : List Char :=
  "impl A\x7bfn b()\x7bSelf::a()\x7d\n// é\nfn a()\x7b\x7d\x7dimpl B\x7bfn c()\x7b\x7d\x7d".toList

def sampleBlocks : List Block := (blocks (Options.visibilityOrder {}) sampleText).toOption.getD []

theorem blocks_sampleText : blocks (Options.visibilityOrder {}) sampleText = .ok sampleBlocks := by
  have hok : (blocks (Options.visibilityOrder {}) sampleText).toOption.isSome = true := by
    decide +kernel
  rw [sampleBlocks]
  cases hblocks : blocks (Options.visibilityOrder {}) sampleText with
  | error place =>
    rw [hblocks] at hok
    cases hok
  | ok found => rfl

theorem reorder_rearranges_sample : PlacedApart sampleText sampleBlocks ∧ ∃ r,
    (reorder {} Probe.never sampleText).1 = .ok r ∧ Rearranges sampleText {} sampleBlocks r := by
  have hplaced : PlacedApart sampleText sampleBlocks := by decide +kernel
  obtain ⟨hiff, hordered⟩ := reorder_rearranges (by decide +kernel) blocks_sampleText hplaced
  obtain ⟨r, hok⟩ := hiff.mpr (by decide +kernel)
  exact ⟨hplaced, r, hok, hordered _ r hok⟩

end CalleeFirst.Source
