import CalleeFirst.Proofs.Rearrangement
import CalleeFirst.Proofs.Renumbering

/-! Ordering a part of a batch on its own.

A part is closed when nothing in it calls anything outside. Paths that start in a closed
part stay there, so a circle lies in the part or outside as a whole, and a circle of the
part waits for circles of the part only. What is left of the arrangement of the batch
without the circles outside is therefore an arrangement of the part (`Arranged.closedPart`),
and there is no other.

`computeOrder_closedPart`: the batch orders the members of a closed part as the part orders
them alone; above all, a declaration that no other calls can come and go without any
effect on the order of the others. -/
namespace CalleeFirst

section
variable {α : Type} {calls before : α → α → Prop} {batch part : List α}

/-- Nothing in the part calls anything of the batch that is not in the part. -/
def ClosedPart (calls : α → α → Prop) (batch part : List α) : Prop :=
  ∀ a ∈ part, ∀ b ∈ batch, calls a b → b ∈ part

instance [DecidableEq α] [DecidableRel calls] : Decidable (ClosedPart calls batch part) :=
  inferInstanceAs (Decidable (∀ a ∈ part, ∀ b ∈ batch, calls a b → b ∈ part))

theorem ClosedPart.reaches (hclosed : ClosedPart calls batch part) {a b : α} (ha : a ∈ part)
    (h : Reaches calls batch a b) : b ∈ part ∧ Reaches calls part a b := by
  induction h with
  | single hab =>
    have hb := hclosed _ ha _ hab.2.1 hab.2.2
    exact ⟨hb, .single ⟨ha, hb, hab.2.2⟩⟩
  | tail _ hbc ih =>
    have hc := hclosed _ ih.1 _ hbc.2.1 hbc.2.2
    exact ⟨hc, ih.2.tail ⟨ih.1, hc, hbc.2.2⟩⟩

theorem ClosedPart.reaches_iff (hclosed : ClosedPart calls batch part) (hsub : part ⊆ batch)
    {a b : α} (ha : a ∈ part) : Reaches calls part a b ↔ Reaches calls batch a b := by
  refine ⟨fun h => ?_, fun h => (hclosed.reaches ha h).2⟩
  exact Relation.TransGen.mono (fun x y hxy => ⟨hsub hxy.1, hsub hxy.2.1, hxy.2.2⟩) _ _ h

/-- Leaving out lists of which `p` holds nowhere, where it holds everywhere in the others. -/
theorem flatMap_filter_any {β : Type} {f : β → List α} {p : α → Bool} {list : List β}
    (h : ∀ c ∈ list, ∀ a ∈ f c, p a → ∀ b ∈ f c, p b) :
    (list.filter fun c => (f c).any p).flatMap f = (list.flatMap f).filter p := by
  induction list with
  | nil => rfl
  | cons c rest ih =>
    have ih := ih fun d hd => h d (List.mem_cons_of_mem c hd)
    rw [List.flatMap_cons, List.filter_append, ← ih, List.filter_cons]
    split
    case isTrue hany =>
      obtain ⟨a, ha, hpa⟩ := List.any_eq_true.mp hany
      rw [List.flatMap_cons, List.filter_eq_self.mpr (h c List.mem_cons_self a ha hpa)]
    case isFalse hany =>
      have hnone : (f c).filter p = [] := List.filter_eq_nil_iff.mpr fun b hb hpb =>
        hany (List.any_eq_true.mpr ⟨b, hb, hpb⟩)
      rw [hnone, List.nil_append]

namespace Arranged
variable {circles : List (Circle α)}

/-- A closed part holds all members of a circle or none. -/
theorem mem_part (h : Arranged calls before batch circles) (hclosed : ClosedPart calls batch part)
    {c : Circle α} (hc : c ∈ circles) {a b : α} (ha : a ∈ c.members) (hpart : a ∈ part)
    (hb : b ∈ c.members) : b ∈ part := by
  rcases (h.together c hc a ha b (h.mem_batch hc hb)).mp hb with rfl | hboth
  · exact hpart
  · exact (hclosed.reaches hpart hboth.1).1

variable {keep : α → Bool}

theorem filter_members (h : Arranged calls before batch circles)
    (hclosed : ClosedPart calls batch part) (hkeep : ∀ a, keep a = true ↔ a ∈ part) :
    (circles.filter fun c => c.members.any keep).flatMap Circle.members =
      (circles.flatMap Circle.members).filter keep := by
  refine flatMap_filter_any fun c hc a ha hpart b hb => ?_
  exact (hkeep b).mpr (h.mem_part hclosed hc ha ((hkeep a).mp hpart) hb)

/-- The circles of a closed part, picked out of those of the batch. -/
theorem closedPart (h : Arranged calls before batch circles) (hn : batch.Nodup)
    (hclosed : ClosedPart calls batch part) (hsub : part ⊆ batch) (hpart : part.Nodup)
    (hkeep : ∀ a, keep a = true ↔ a ∈ part) :
    Arranged calls before part (circles.filter fun c => c.members.any keep) := by
  have hmem : ∀ c ∈ circles, c.members.any keep → ∀ a ∈ c.members, a ∈ part := by
    intro c hc hany b hb
    obtain ⟨a, ha, hkept⟩ := List.any_eq_true.mp hany
    exact h.mem_part hclosed hc ha ((hkeep a).mp hkept) hb
  have hkept : ∀ c ∈ circles.filter (fun c => c.members.any keep),
      c ∈ circles ∧ ∀ a ∈ c.members, a ∈ part := by
    intro c hc
    obtain ⟨hc, hany⟩ := List.mem_filter.mp hc
    exact ⟨hc, hmem c hc hany⟩
  constructor
  case perm =>
    rw [h.filter_members hclosed hkeep]
    refine (List.perm_ext_iff_of_nodup ((h.perm.nodup_iff.mpr hn).filter _) hpart).mpr fun a => ?_
    rw [List.mem_filter, hkeep, h.perm.mem_iff]
    exact and_iff_right_of_imp fun ha => hsub ha
  case nonempty => exact fun c hc => h.nonempty c (hkept c hc).1
  case together =>
    intro c hc a ha b hb
    obtain ⟨hc, hpart⟩ := hkept c hc
    rw [h.together c hc a ha b (hsub hb), Together, Together,
      hclosed.reaches_iff hsub (hpart a ha), hclosed.reaches_iff hsub hb]
  case sorted => exact fun c hc => h.sorted c (hkept c hc).1
  case cyclic =>
    intro c hc
    obtain ⟨hc, hpart⟩ := hkept c hc
    rw [h.cyclic c hc]
    exact exists_congr fun a => and_congr_right fun ha =>
      (hclosed.reaches_iff hsub (hpart a ha)).symm
  case greedy =>
    refine h.greedy.filter fun c hc hany d hd hcalls => ?_
    obtain ⟨a, ha, b, hb, hab⟩ := hcalls
    have hb' := hclosed a (hmem c hc hany a ha) b (h.mem_batch hd hb) hab
    exact List.any_eq_true.mpr ⟨b, hb, (hkeep b).mpr hb'⟩

end Arranged

end

instance (a b : Declaration) : Decidable (a.Calls b) :=
  inferInstanceAs (Decidable (a.callable = true ∧ b.callable = true ∧ b.name ∈ a.calls))

/-- The declarations of a batch in an order. -/
def Batch.listed (batch : List Declaration) (order : List Nat) : List Declaration :=
  order.filterMap fun i => batch[i]?

theorem Batch.Valid.of_subset {batch part : List Declaration} (hv : Batch.Valid batch)
    (hsub : part ⊆ batch) (hpart : part.Nodup) : Batch.Valid part where
  ids := hpart.map_on fun _ ha _ hb => List.inj_on_of_nodup_map hv.ids (hsub ha) (hsub hb)
  indices := hpart.map_on fun _ ha _ hb => List.inj_on_of_nodup_map hv.indices (hsub ha) (hsub hb)
  names d hd := hv.names d (hsub hd)

variable (s : Settings) {batch part : List Declaration}

theorem map_some_listed (hv : Batch.Valid batch) :
    (Batch.listed batch (ordering s batch)).map some =
      ((orderedGroups s batch).map (Group.read batch)).flatMap Circle.members := by
  rw [Batch.listed, Batch.map_some_filterMap fun i => (mem_ordering s hv).mp, ordering,
    List.flatMap_map, List.map_flatMap]
  rfl

theorem listed_nodup (hv : Batch.Valid batch) : (Batch.listed batch (ordering s batch)).Nodup := by
  refine List.Nodup.of_map some ?_
  rw [map_some_listed s hv, (orderedGroups_read s hv).perm.nodup_iff]
  exact hv.nodup.map fun _ _ => Option.some.inj

theorem mem_listed (hv : Batch.Valid batch) {d : Declaration} :
    d ∈ Batch.listed batch (ordering s batch) ↔ d ∈ batch := by
  have hmem := (orderedGroups_read s hv).perm.mem_iff (a := some d)
  rw [← map_some_listed s hv] at hmem
  simpa using hmem

/-- The same part, of declarations that may be missing. -/
theorem ClosedPart.both (hclosed : ClosedPart Declaration.Calls batch part) :
    ClosedPart (Both Declaration.Calls) (batch.map some) (part.map some) := by
  intro x hx y hy hxy
  obtain ⟨a, ha, b, hb, hab⟩ := hxy
  obtain rfl := Option.mem_def.mp ha
  obtain rfl := Option.mem_def.mp hb
  simp only [List.mem_map, Option.some.injEq, exists_eq_right] at hx hy ⊢
  exact hclosed a hx b hy hab

theorem any_mem_iff (x : Option Declaration) : (x.any (· ∈ part)) = true ↔ x ∈ part.map some := by
  cases x <;> simp

section
variable (hv : Batch.Valid batch) (hsub : part ⊆ batch) (hpart : part.Nodup)
  (hclosed : ClosedPart Declaration.Calls batch part)
include hv hsub hpart hclosed

theorem orderedGroups_closedPart :
    (orderedGroups s part).map (Group.read part) =
      ((orderedGroups s batch).map (Group.read batch)).filter
        fun c => c.members.any fun x => x.any (· ∈ part) := by
  have hinj : Function.Injective (some : Declaration → Option Declaration) :=
    fun _ _ => Option.some.inj
  have hcircles := (orderedGroups_read s hv).closedPart (hv.nodup.map hinj) hclosed.both
    (List.map_subset some hsub) (hpart.map hinj) any_mem_iff
  refine (orderedGroups_read s (hv.of_subset hsub hpart)).unique hcircles (.refl _)
    (hpart.map hinj) ?_
  exact fun _ _ _ _ => Both.asymm Settings.Less.asymm

theorem listed_closedPart :
    Batch.listed part (ordering s part) =
      (Batch.listed batch (ordering s batch)).filter (· ∈ part) := by
  refine List.map_injective_iff.mpr (fun _ _ => Option.some.inj) ?_
  rw [map_some_listed s (hv.of_subset hsub hpart), orderedGroups_closedPart s hv hsub hpart hclosed,
    (orderedGroups_read s hv).filter_members hclosed.both any_mem_iff, ← map_some_listed s hv,
    List.filter_map]
  rfl

/-- Both are ordered, and the part comes out as in the batch. -/
theorem outcome_closedPart :
    ∃ order order', ((computeOrder Probe.never s batch).outcome 0).1 = .ok order ∧
      ((computeOrder Probe.never s part).outcome 0).1 = .ok order' ∧
      Batch.listed part order' = (Batch.listed batch order).filter (· ∈ part) :=
  ⟨_, _, (outcome_computeOrder_iff s batch).mpr ⟨hv, rfl⟩,
    (outcome_computeOrder_iff s part).mpr ⟨hv.of_subset hsub hpart, rfl⟩,
    listed_closedPart s hv hsub hpart hclosed⟩

end

/-- What is left without a declaration that only it calls itself is closed. -/
theorem closedPart_erase (hv : Batch.Valid batch) {d : Declaration}
    (hcalled : ∀ a ∈ batch, a.Calls d → a = d) :
    ClosedPart Declaration.Calls batch (batch.erase d) := by
  intro a ha b hb hab
  obtain ⟨hne, hbatch⟩ := hv.nodup.mem_erase_iff.mp ha
  refine hv.nodup.mem_erase_iff.mpr ⟨fun heq => hne ?_, hb⟩
  exact hcalled a hbatch (heq ▸ hab)

/-- **A closed part is ordered as it is alone.** So is, above all, what is left when a
declaration that no other calls is taken out. -/
theorem computeOrder_closedPart (hv : Batch.Valid batch) :
    (∀ part ⊆ batch, part.Nodup → ClosedPart Declaration.Calls batch part →
      ∃ order order', ((computeOrder Probe.never s batch).outcome 0).1 = .ok order ∧
        ((computeOrder Probe.never s part).outcome 0).1 = .ok order' ∧
        Batch.listed part order' = (Batch.listed batch order).filter (· ∈ part)) ∧
    ∀ d ∈ batch, (∀ a ∈ batch, a.Calls d → a = d) →
      ∃ order order', ((computeOrder Probe.never s batch).outcome 0).1 = .ok order ∧
        ((computeOrder Probe.never s (batch.erase d)).outcome 0).1 = .ok order' ∧
        Batch.listed (batch.erase d) order' = (Batch.listed batch order).erase d := by
  refine ⟨fun part hsub hpart => outcome_closedPart s hv hsub hpart, fun d _ hcalled => ?_⟩
  obtain ⟨order, order', hok, hok', hlisted⟩ := outcome_closedPart s hv List.erase_subset
    (hv.nodup.erase d) (closedPart_erase hv hcalled)
  refine ⟨order, order', hok, hok', hlisted.trans ?_⟩
  obtain ⟨_, rfl⟩ := (outcome_computeOrder_iff s batch).mp hok
  rw [(listed_nodup s hv).erase_eq_filter]
  refine List.filter_congr fun a ha => ?_
  have hbatch := (mem_listed s hv).mp ha
  rw [Bool.eq_iff_iff, decide_eq_true_eq, bne_iff_ne, hv.nodup.mem_erase_iff]
  exact and_iff_left hbatch

theorem computeOrder_closedPart_sample : Batch.Valid Batch.sample ∧ ∃ order order',
    ((computeOrder Probe.never {} Batch.sample).outcome 0).1 = .ok order ∧
      ((computeOrder Probe.never {} (Batch.sample.drop 1).reverse).outcome 0).1 = .ok order' ∧
      Batch.listed (Batch.sample.drop 1).reverse order' =
        (Batch.listed Batch.sample order).filter (· ∈ (Batch.sample.drop 1).reverse) :=
  ⟨Batch.valid_sample, (computeOrder_closedPart {} Batch.valid_sample).1 _ (by decide +kernel)
    (by decide +kernel) (by decide +kernel)⟩

end CalleeFirst
