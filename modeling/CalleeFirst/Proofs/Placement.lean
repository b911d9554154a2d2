import CalleeFirst.Proofs.ClosedPart

/-! Where the members go that are not called.

The settings say on which side of the others they go, but only the comparison knows of that, and
the order is led by calls. It is enough all the same. A closed part of a batch comes first as a
whole if the comparison puts nothing else in front of its items (`Arranged.part_first`): as long as
one of its circles waits, one of them is ready. The members that are not called are such a part
under one placement, and all the others are under the other one.

Among themselves the members that are not called wait for nothing, so that the comparison alone
decides (`Arranged.free_sorted`).

`computeOrder_placement`: they stand on their side of the order in one block, by source index. -/
namespace CalleeFirst

section
variable {α : Type} {calls before : α → α → Prop} {batch part : List α} {circles : List (Circle α)}

/-- A list in which a property never comes after its absence, in two pieces. -/
theorem eq_filter_append_filter {p : α → Bool} {l : List α}
    (h : l.Pairwise fun a b => p b = true → p a = true) : l = l.filter p ++ l.filter (!p ·) := by
  induction l with
  | nil => rfl
  | cons a l ih =>
    obtain ⟨ha, hl⟩ := List.pairwise_cons.mp h
    by_cases hpa : p a = true
    · rw [List.filter_cons_of_pos hpa, List.filter_cons_of_neg (by simp [hpa]), List.cons_append,
        ← ih hl]
    · have hnone : ∀ b ∈ a :: l, ¬ p b = true :=
        List.forall_mem_cons.mpr ⟨hpa, fun b hb hpb => hpa (ha b hb hpb)⟩
      have hall : ∀ b ∈ a :: l, (!p b) = true := fun b hb => by simpa using hnone b hb
      rw [List.filter_eq_nil_iff.mpr hnone, List.filter_eq_self.mpr hall, List.nil_append]

/-- Some member of a circle is in the part. -/
def Circle.Meets (part : List α) (c : Circle α) : Prop := ∃ a ∈ c.members, a ∈ part

/-- The second circle does not bring a part that the first one lacks. -/
def Circle.NotBehind (part : List α) (c d : Circle α) : Prop := d.Meets part → c.Meets part

instance (part : List α) :
    Trans (Circle.NotBehind part) (Circle.NotBehind part) (Circle.NotBehind part) :=
  ⟨fun hcd hde he => hcd (hde he)⟩

namespace Arranged

theorem mem_part_of_meets (h : Arranged calls before batch circles)
    (hclosed : ClosedPart calls batch part) {c : Circle α} (hc : c ∈ circles)
    (hmeets : c.Meets part) {b : α} (hb : b ∈ c.members) : b ∈ part := by
  obtain ⟨a, ha, hpart⟩ := hmeets
  exact h.mem_part hclosed hc ha hpart hb

theorem part_first (h : Arranged calls before batch circles) (hn : batch.Nodup)
    (hclosed : ClosedPart calls batch part)
    (hbefore : ∀ a ∈ batch, ∀ b ∈ part, before a b → a ∈ part) :
    (circles.flatMap Circle.members).Pairwise fun a b => b ∈ part → a ∈ part := by
  have hchain : circles.IsChain (Circle.NotBehind part) := by
    refine h.greedy.isChain (h.circles_nodup hn) ?_ ?_
    · intro c hc d hd _ ⟨b, hb, a, ha, hba⟩ hmeets
      have hb := h.mem_part_of_meets hclosed hd hmeets hb
      exact ⟨a, ha, hclosed b hb a (h.mem_batch hc ha) hba⟩
    · intro c hc d hd ⟨a, ha, b, hb, hab⟩ hmeets
      have ha := List.mem_of_mem_head? ha
      have hb := h.mem_part_of_meets hclosed hd hmeets (List.mem_of_mem_head? hb)
      exact ⟨a, ha, hbefore a (h.mem_batch hc ha) b hb hab⟩
  refine List.pairwise_flatMap.mpr ⟨fun c hc => ?_, hchain.pairwise.imp_of_mem ?_⟩
  · exact List.pairwise_of_forall_mem_list fun a ha b hb hpart =>
      h.mem_part_of_meets hclosed hc ⟨b, hb, hpart⟩ ha
  · intro c d hc _ hcd a ha b hb hpart
    exact h.mem_part_of_meets hclosed hc (hcd ⟨b, hb, hpart⟩) ha

/-- Items that call nothing are alone in their circles. -/
theorem eq_of_free (h : Arranged calls before batch circles) (hfree : ∀ a ∈ part, ∀ b, ¬ calls a b)
    {c : Circle α} (hc : c ∈ circles) {a b : α} (ha : a ∈ c.members) (hpart : a ∈ part)
    (hb : b ∈ c.members) : b = a := by
  rcases (h.together c hc a ha b (h.mem_batch hc hb)).mp hb with heq | ⟨hab, _⟩
  · exact heq.symm
  · obtain ⟨x, hax, _⟩ := Relation.TransGen.head'_iff.mp hab
    exact absurd hax.2.2 (hfree a hpart x)

theorem free_sorted (h : Arranged calls before batch circles)
    (hfree : ∀ a ∈ part, ∀ b, ¬ calls a b) :
    (circles.flatMap Circle.members).Pairwise fun a b => a ∈ part → b ∈ part → before a b := by
  refine List.pairwise_flatMap.mpr ⟨fun c hc => (h.sorted c hc).imp fun hab _ _ => hab, ?_⟩
  refine pairwise_iff_turns.mpr fun placed c rest hsplit d hd a ha b hb hapart hbpart => ?_
  have hc : c ∈ circles := hsplit ▸ by simp
  have hd' : d ∈ circles := hsplit ▸ by simp [hd]
  -- The later of the two could have come at the turn of the earlier.
  have hready : Ready (Circle.Calls calls) (c :: rest) d := by
    intro e _ ⟨x, hx, y, _, hxy⟩
    exact absurd hxy (h.eq_of_free hfree hd' hb hbpart hx ▸ hfree b hbpart y)
  obtain ⟨x, hx, y, hy, hxy⟩ := (greedy_iff_turns.mp h.greedy placed c rest hsplit).2 d hd hready
  rwa [h.eq_of_free hfree hc ha hapart (List.mem_of_mem_head? hx),
    h.eq_of_free hfree hd' hb hbpart (List.mem_of_mem_head? hy)] at hxy

end Arranged

end

/-- The others and the rest, each on their side. -/
def Placement.join : Placement → List Nat → List Nat → List Nat
  | .leading, others, rest => others ++ rest
  | .trailing, others, rest => rest ++ others

/-- Between two kinds of declarations the placement decides. -/
theorem Settings.Less.callable_iff {s : Settings} {a b : Declaration} (h : s.Less a b)
    (hkinds : a.callable ≠ b.callable) : a.callable = true ↔ s.others = .trailing := by
  unfold Settings.Less at h
  cases ha : a.callable <;> cases hb : b.callable
  · exact absurd (ha.trans hb.symm) hkinds
  · rw [compareDeclarations_anchored_callable ha hb, otherFirst] at h
    cases hs : s.others <;> simp [hs] at h ⊢
  · rw [compareDeclarations_callable_anchored ha hb, otherFirst] at h
    cases hs : s.others <;> simp [hs] at h ⊢
  · exact absurd (ha.trans hb.symm) hkinds

namespace Batch

/-- Whether a declaration of a batch is one that is not called. -/
def isOther (batch : List Declaration) (i : Nat) : Bool := batch[i]?.any (!·.callable)

/-- Whether a declaration is of the kind that the placement puts first. -/
def goesFirst (s : Settings) (batch : List Declaration) (i : Nat) : Bool :=
  match s.others with
  | .leading => isOther batch i
  | .trailing => !isOther batch i

variable {s : Settings} {batch : List Declaration} {i j : Nat}

theorem isOther_eq {d : Declaration} (h : d ∈ batch[i]?) : isOther batch i = !d.callable := by
  rw [isOther, Option.mem_def.mp h, Option.any_some]

theorem isOther_iff : isOther batch i = true ↔ ∃ d ∈ batch[i]?, d.kind = .other := by
  rw [isOther, Option.any_eq_true]
  refine exists_congr fun d => and_congr_right fun _ => ?_
  cases hkind : d.kind <;> simp [Declaration.callable, DeclarationKind.callable, hkind]

theorem Calls.isOther_eq_false (h : Calls batch i j) :
    isOther batch i = false ∧ isOther batch j = false := by
  obtain ⟨a, ha, b, hb, hcaller, hcallee, _⟩ := h
  rw [isOther_eq ha, isOther_eq hb, hcaller, hcallee]
  exact ⟨rfl, rfl⟩

theorem Calls.goesFirst (h : Calls batch i j) (hi : goesFirst s batch i = true) :
    goesFirst s batch j = true := by
  obtain ⟨hcaller, hcallee⟩ := h.isOther_eq_false
  rw [Batch.goesFirst, hcaller] at hi
  rw [Batch.goesFirst, hcallee]
  exact hi

theorem Before.goesFirst (h : Before s batch i j) (hj : goesFirst s batch j = true) :
    goesFirst s batch i = true := by
  obtain ⟨a, ha, b, hb, hab⟩ := h
  rw [Batch.goesFirst, isOther_eq hb] at hj
  rw [Batch.goesFirst, isOther_eq ha]
  by_cases hkinds : a.callable = b.callable
  · rwa [hkinds]
  · have hcallable := hab.callable_iff hkinds
    cases hs : s.others <;> simpa [hs] using hcallable

theorem Before.sourceIndex_lt (h : Before s batch i j) (hi : isOther batch i = true)
    (hj : isOther batch j = true) :
    Both (fun a b => a.sourceIndex < b.sourceIndex) batch[i]? batch[j]? := by
  obtain ⟨a, ha, b, hb, hab⟩ := h
  rw [isOther_eq ha, Bool.not_eq_true'] at hi
  rw [isOther_eq hb, Bool.not_eq_true'] at hj
  rw [Settings.Less, Settings.compareDeclarations_anchored hi hj] at hab
  exact ⟨a, ha, b, hb, Nat.compare_eq_lt.mp hab⟩

end Batch

variable (s : Settings) {batch : List Declaration}

section Valid
variable (hv : Batch.Valid batch)
include hv

theorem ordering_goesFirst : (ordering s batch).Pairwise fun i j =>
    Batch.goesFirst s batch j = true → Batch.goesFirst s batch i = true := by
  have hpart : ∀ {i}, i ∈ (List.range batch.length).filter (Batch.goesFirst s batch) ↔
      i < batch.length ∧ Batch.goesFirst s batch i = true := by
    intro i
    rw [List.mem_filter, List.mem_range]
  have hclosed : ClosedPart (Batch.Calls batch) (List.range batch.length)
      ((List.range batch.length).filter (Batch.goesFirst s batch)) :=
    fun i hi j hj hij => hpart.mpr ⟨List.mem_range.mp hj, hij.goesFirst (hpart.mp hi).2⟩
  have hfirst := (orderedGroups_arranged s hv).part_first List.nodup_range hclosed
    fun i hi j hj hij => hpart.mpr ⟨List.mem_range.mp hi, hij.goesFirst (hpart.mp hj).2⟩
  rw [flatMap_circle_members] at hfirst
  refine hfirst.imp_of_mem fun _ hj hij hgoes => (hpart.mp (hij (hpart.mpr ⟨?_, hgoes⟩))).2
  exact (mem_ordering s hv).mp hj

theorem ordering_others_sorted : ((ordering s batch).filter (Batch.isOther batch)).Pairwise
      fun i j =>
    Both (fun a b => a.sourceIndex < b.sourceIndex) batch[i]? batch[j]? := by
  have hfree : ∀ i ∈ (List.range batch.length).filter (Batch.isOther batch), ∀ j,
      ¬ Batch.Calls batch i j := by
    intro i hi j hij
    rw [List.mem_filter, hij.isOther_eq_false.1] at hi
    exact Bool.false_ne_true hi.2
  have hsorted := (orderedGroups_arranged s hv).free_sorted hfree
  rw [flatMap_circle_members] at hsorted
  refine (hsorted.filter (Batch.isOther batch)).imp_of_mem fun {i j} hi hj hij => ?_
  obtain ⟨hi, hiother⟩ := List.mem_filter.mp hi
  obtain ⟨hj, hjother⟩ := List.mem_filter.mp hj
  have hi := (ordering_perm s hv).subset hi
  have hj := (ordering_perm s hv).subset hj
  exact (hij (List.mem_filter.mpr ⟨hi, hiother⟩) (List.mem_filter.mpr ⟨hj, hjother⟩)).sourceIndex_lt
    hiother hjother

theorem ordering_eq_join : ordering s batch =
    s.others.join ((ordering s batch).filter (Batch.isOther batch))
      ((ordering s batch).filter (!Batch.isOther batch ·)) := by
  have hsplit := eq_filter_append_filter (ordering_goesFirst s hv)
  unfold Batch.goesFirst at hsplit
  cases hs : s.others with
  | leading => simpa only [hs, Placement.join] using hsplit
  | trailing => simpa only [hs, Placement.join, Bool.not_not] using hsplit

end Valid

/-- **Members that are not called stand together on one side**, by source index, whatever
else they carry and whatever the other members call. -/
theorem computeOrder_placement (hv : Batch.Valid batch) : ∃ others rest,
    ((computeOrder Probe.never s batch).outcome 0).1 = .ok (s.others.join others rest) ∧
      (others ++ rest).Perm (List.range batch.length) ∧
      (∀ i, i ∈ others ↔ ∃ d ∈ batch[i]?, d.kind = .other) ∧
      others.Pairwise fun i j => Both (fun a b => a.sourceIndex < b.sourceIndex) batch[i]?
        batch[j]? := by
  refine ⟨(ordering s batch).filter (Batch.isOther batch),
    (ordering s batch).filter (!Batch.isOther batch ·),
    (outcome_computeOrder_iff s batch).mpr ⟨hv, ordering_eq_join s hv⟩,
    (List.filter_append_perm _ _).trans (ordering_perm s hv), fun i => ?_,
    ordering_others_sorted s hv⟩
  rw [List.mem_filter, mem_ordering s hv, Batch.isOther_iff]
  refine and_iff_right_of_imp fun ⟨d, hd, _⟩ => ?_
  exact (List.getElem?_eq_some_iff.mp hd).1

/-- Two members that are not called, among members of their names and with calls of their own. -/
def Batch.mixed : List Declaration :=
  [⟨0, .method, "b", 3, [], 0, .ofList ["a"]⟩, ⟨1, .other, "b", 0, ["u8"], 5, .ofList ["a"]⟩,
    ⟨2, .method, "a", 9, [], 2, ∅⟩, ⟨3, .other, "", 7, [], 1, .ofList ["b"]⟩]

theorem computeOrder_placement_sample : Batch.Valid Batch.mixed ∧ ∃ others rest,
    ((computeOrder Probe.never { others := .trailing } Batch.mixed).outcome 0).1 =
      .ok (rest ++ others) ∧ (others ++ rest).Perm [0, 1, 2, 3] ∧ 1 ∈ others ∧ 3 ∈ others ∧
        0 ∉ others ∧ 2 ∉ others ∧
      others.Pairwise fun i j =>
        Both (fun a b => a.sourceIndex < b.sourceIndex) Batch.mixed[i]? Batch.mixed[j]? := by
  have hv : Batch.Valid Batch.mixed := by decide +kernel
  obtain ⟨others, rest, hok, hperm, hmem, hsorted⟩ :=
    computeOrder_placement { others := .trailing } hv
  refine ⟨hv, others, rest, hok, hperm, ?_⟩
  rw [hmem, hmem, hmem, hmem]
  exact ⟨by decide, by decide, by decide, by decide, hsorted⟩

end CalleeFirst
