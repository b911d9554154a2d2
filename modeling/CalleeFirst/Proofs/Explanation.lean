import CalleeFirst.Proofs.Extraction

/-! Explanations agree with reorderings.

A text is explained by the groups of every block, and reordered by the members of the same
groups in a row. Since every block of a text can be ordered, neither fails on a text that is
read.

`explain_agrees`: texts are explained exactly if they are reordered, with the same headings,
and the names in an explanation are those of the report in the same order. -/
namespace CalleeFirst.Source

/-- The explanation of a block that can be ordered. -/
def Block.explained (s : Settings) (b : Block) : BlockExplanation where
  label := b.label
  line := b.line
  groups := (orderedGroups s b.declarations).map (explainGroup b)

theorem Block.Orderable.explainBlock {b : Block} (h : b.Orderable) (s : Settings) :
    explainBlock s b = .ok (b.explained s) := by
  have hgroups := (outcome_orderGroups_iff s b.declarations).mpr ⟨h.valid, rfl⟩
  rw [Source.explainBlock, hgroups]
  rfl

theorem explain_eq {options : Options} {source : List Char} {found : List Block}
    (hfound : blocks options.visibilityOrder source = .ok found) (h : ∀ b ∈ found, b.Orderable) :
    explain options source = .ok (found.map (Block.explained options.ordering)) := by
  have hmap : found.mapM (explainBlock options.ordering) =
      .ok (found.map (Block.explained options.ordering)) := by
    clear hfound
    induction found with
    | nil => rfl
    | cons b rest ih =>
      obtain ⟨hb, hrest⟩ := List.forall_mem_cons.mp h
      rw [List.mapM_cons, hb.explainBlock, ih hrest]
      rfl
  rw [explain, hfound]
  simp only [hmap]
  rfl

/-! ### Names -/

theorem map_name_explainGroup (b : Block) {group : Group}
    (h : ∀ i ∈ group.members, i < b.members.length) :
    (explainGroup b group).members.map MemberSummary.name = group.members.map b.displayName := by
  rw [explainGroup, List.map_filterMap, ← List.filterMap_eq_map]
  refine List.filterMap_congr fun i hi => ?_
  rw [List.getElem?_eq_getElem (h i hi)]
  rfl

theorem Block.Orderable.names_explained {b : Block} (h : b.Orderable) (s : Settings) :
    ((b.explained s).groups.flatMap GroupExplanation.members).map MemberSummary.name =
      (b.order s).map b.displayName := by
  rw [explained, List.flatMap_map, List.map_flatMap, Block.order, ordering, List.map_flatMap]
  refine List.flatMap_congr fun group hgroup => map_name_explainGroup b fun i hi => ?_
  have hmem : i ∈ ordering s b.declarations := List.mem_flatMap.mpr ⟨group, hgroup, hi⟩
  have hperm := Block.order_perm (s := s) h.valid
  exact List.mem_range.mp (hperm.subset hmem)

/-! ### Agreement -/

/-- A report lists the members of a block. -/
structure BlockReport.Reports (report : BlockReport) (b : Block) : Prop where
  label : report.label = b.label
  line : report.line = b.line
  order : report.order.Perm ((List.range b.members.length).map b.displayName)

/-- An explanation names the members in the order of a report. -/
structure BlockExplanation.Agrees (e : BlockExplanation) (report : BlockReport) : Prop where
  label : e.label = report.label
  line : e.line = report.line
  names : (e.groups.flatMap GroupExplanation.members).map MemberSummary.name = report.order

theorem Block.Orderable.reports {b : Block} (h : b.Orderable) (source : List Char) (s : Settings) :
    (b.rearranged source (b.order s)).1.Reports b :=
  ⟨rfl, rfl, (Block.order_perm h.valid).map b.displayName⟩

theorem Block.Orderable.agrees {b : Block} (h : b.Orderable) (source : List Char) (s : Settings) :
    (b.explained s).Agrees (b.rearranged source (b.order s)).1 :=
  ⟨rfl, rfl, h.names_explained s⟩

/-- If all blocks can be ordered, nothing but the probe can stop a reordering. -/
theorem reorder_ne_invalid {options : Options} {source : List Char} {found : List Block}
    (hfound : blocks options.visibilityOrder source = .ok found) (h : ∀ b ∈ found, b.Orderable)
    (probe : Probe) (defect : Defect) :
    (reorder options probe source).1 ≠ .error (.ordering (.invalid defect)) := by
  rw [reorder_eq hfound h]
  intro hinvalid
  generalize hrun : ((Polling.polled probe _ _).outcome 0).1 = result at hinvalid
  cases result with
  | error fault =>
    obtain rfl := Polling.eq_cancelled_of_outcome_polled hrun
    cases hinvalid
  | ok r => cases hinvalid

/-- **Explanations agree with reports.** A text that can be read has both, block by block. One that
cannot fails at the same place, and no text has an invalid batch or ranges that do not fit. -/
theorem explain_agrees (options : Options) (source : List Char) :
    (match blocks options.visibilityOrder source with
      | .error place =>
        (reorder options Probe.never source).1 = .error (.unreadable place) ∧
          explain options source = .error (.unreadable place)
      | .ok found => ∃ r explained,
        (reorder options Probe.never source).1 = .ok r ∧ explain options source = .ok explained ∧
          List.Forall₂ BlockReport.Reports r.blocks found ∧
          List.Forall₂ BlockExplanation.Agrees explained r.blocks) ∧
      ∀ probe defect, (reorder options probe source).1 ≠ .error (.ordering (.invalid defect)) ∧
        explain options source ≠ .error (.ordering (.invalid defect)) := by
  cases hfound : blocks options.visibilityOrder source with
  | error place =>
    have hreorder (probe : Probe) : (reorder options probe source).1 =
        .error (.unreadable place) := by
      rw [reorder, hfound]
    have hexplain : explain options source = .error (.unreadable place) := by
      rw [explain, hfound]
    refine ⟨⟨hreorder Probe.never, hexplain⟩, fun probe defect => ?_⟩
    rw [hreorder, hexplain]
    constructor <;> intro hinvalid <;> cases hinvalid
  | ok found =>
    have h := blocks_orderable hfound
    have hexplain := explain_eq hfound h
    have hreports : (rearrangement source options.ordering found).blocks =
        found.map fun b => (b.rearranged source (b.order options.ordering)).1 := List.map_map ..
    refine ⟨⟨rearrangement source options.ordering found, _, ?_, hexplain, ?_, ?_⟩,
      fun probe defect => ⟨?_, ?_⟩⟩
    · rw [reorder_eq hfound h, Polling.outcome_polled_never]
      rfl
    · rw [hreports, List.forall₂_map_left_iff, List.forall₂_same]
      exact fun b hb => (h b hb).reports source _
    · rw [hreports, List.forall₂_map_left_iff, List.forall₂_map_right_iff, List.forall₂_same]
      exact fun b hb => (h b hb).agrees source _
    · exact reorder_ne_invalid hfound h probe defect
    · intro hinvalid
      rw [hexplain] at hinvalid
      cases hinvalid

end CalleeFirst.Source
