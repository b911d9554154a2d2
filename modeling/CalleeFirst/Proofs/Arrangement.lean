import CalleeFirst.Proofs.Greedy
import Mathlib.Data.List.Nodup
import Mathlib.Data.List.Pairwise
import Mathlib.Logic.Relation

/-! What an ordering has to be, whatever its items are.

Items of a batch call each other, and some come before others when no call decides.
Items that reach each other along calls form a circle (`Circle`). An arrangement
(`Arranged`) lists every circle once, its members sorted, and the list of circles is
greedy: a circle comes when all that it calls is there, and of the circles that
could come the one with the best first member does.

`Arranged.callees_first`: a caller never stands before what it reaches, unless it is
reached back. `Arranged.unique`: a batch has one arrangement, in whatever order its items are
given. `Arranged.relabel`: an arrangement read through new names of the items is an
arrangement, even if ties are broken anew, as long as they are broken in its favour. -/
namespace CalleeFirst

/-- Items that stay together, and whether they call each other. -/
structure Circle (α : Type) where
  members : List α
  cyclic : Bool

namespace Circle
variable {α β : Type}

def Calls (calls : α → α → Prop) (c d : Circle α) : Prop :=
  ∃ a ∈ c.members, ∃ b ∈ d.members, calls a b

/-- The first member of `c` comes before the first of `d`. -/
def Leads (before : α → α → Prop) (c d : Circle α) : Prop :=
  ∃ a ∈ c.members.head?, ∃ b ∈ d.members.head?, before a b

def map (f : α → β) (c : Circle α) : Circle β := ⟨c.members.map f, c.cyclic⟩

@[simp] theorem map_members (f : α → β) (c : Circle α) : (c.map f).members = c.members.map f := rfl

@[simp] theorem map_cyclic (f : α → β) (c : Circle α) : (c.map f).cyclic = c.cyclic := rfl

theorem flatMap_map_members (f : α → β) (circles : List (Circle α)) :
    (circles.map (map f)).flatMap members = (circles.flatMap members).map f := by
  rw [List.flatMap_map, List.map_flatMap]
  rfl

theorem calls_map_iff {calls : α → α → Prop} {calls' : β → β → Prop} {f : α → β} {c d : Circle α}
    (hcalls : ∀ a ∈ c.members, ∀ b ∈ d.members, calls' (f a) (f b) ↔ calls a b) :
    Calls calls' (c.map f) (d.map f) ↔ Calls calls c d := by
  constructor
  · rintro ⟨_, ha', _, hb', hab⟩
    obtain ⟨a, ha, rfl⟩ := List.mem_map.mp ha'
    obtain ⟨b, hb, rfl⟩ := List.mem_map.mp hb'
    exact ⟨a, ha, b, hb, (hcalls a ha b hb).mp hab⟩
  · rintro ⟨a, ha, b, hb, hab⟩
    exact ⟨f a, List.mem_map_of_mem ha, f b, List.mem_map_of_mem hb, (hcalls a ha b hb).mpr hab⟩

theorem Leads.map {before : α → α → Prop} {before' : β → β → Prop} {f : α → β} {c d : Circle α}
    (hbefore : ∀ a ∈ c.members, ∀ b ∈ d.members, before a b → before' (f a) (f b))
    (h : Leads before c d) : Leads before' (c.map f) (d.map f) := by
  obtain ⟨a, ha, b, hb, hab⟩ := h
  refine ⟨f a, ?_, f b, ?_, hbefore a (List.mem_of_mem_head? ha) b (List.mem_of_mem_head? hb) hab⟩
  · rw [map_members, List.head?_map]
    exact Option.mem_map_of_mem f ha
  · rw [map_members, List.head?_map]
    exact Option.mem_map_of_mem f hb

theorem Leads.asymm {before : α → α → Prop} {c d : Circle α}
    (hasymm : ∀ a ∈ c.members, ∀ b ∈ d.members, before a b → ¬ before b a)
    (h : c.Leads before d) : ¬ d.Leads before c := by
  rintro ⟨b', hb', a', ha', hba⟩
  obtain ⟨a, ha, b, hb, hab⟩ := h
  obtain rfl : a = a' := Option.mem_unique ha ha'
  obtain rfl : b = b' := Option.mem_unique hb hb'
  exact hasymm a (List.mem_of_mem_head? ha) b (List.mem_of_mem_head? hb) hab hba

end Circle

section
variable {α β : Type} (calls before : α → α → Prop)

/-- A path of at least one call inside the batch. -/
def Reaches (batch : List α) : α → α → Prop :=
  Relation.TransGen fun a b => a ∈ batch ∧ b ∈ batch ∧ calls a b

/-- One item, or two that reach each other. -/
def Together (reaches : α → α → Prop) (a b : α) : Prop := a = b ∨ reaches a b ∧ reaches b a

structure Arranged (batch : List α) (circles : List (Circle α)) : Prop where
  perm : (circles.flatMap Circle.members).Perm batch
  nonempty : ∀ c ∈ circles, c.members ≠ []
  together : ∀ c ∈ circles, ∀ a ∈ c.members, ∀ b ∈ batch,
    b ∈ c.members ↔ Together (Reaches calls batch) a b
  sorted : ∀ c ∈ circles, c.members.Pairwise before
  cyclic : ∀ c ∈ circles, c.cyclic = true ↔ ∃ a ∈ c.members, Reaches calls batch a a
  greedy : Greedy (Circle.Calls calls) (Circle.Leads before) circles

instance (reaches : α → α → Prop) (a b : α) [DecidableEq α] [DecidableRel reaches] :
    Decidable (Together reaches a b) :=
  inferInstanceAs (Decidable (a = b ∨ reaches a b ∧ reaches b a))

variable {calls before} {batch other : List α}

/-! ### Paths -/

theorem Reaches.mem {a b : α} (h : Reaches calls batch a b) : a ∈ batch ∧ b ∈ batch := by
  induction h with
  | single h => exact ⟨h.1, h.2.1⟩
  | tail _ h ih => exact ⟨ih.1, h.2.1⟩

theorem reaches_congr (hmem : ∀ a, a ∈ batch ↔ a ∈ other) :
    Reaches calls batch = Reaches calls other := by
  unfold Reaches
  simp only [hmem]

theorem reaches_of_inside (hinside : ∀ a b, calls a b → a ∈ batch ∧ b ∈ batch) :
    Reaches calls batch = Relation.TransGen calls := by
  unfold Reaches
  congr
  funext a b
  exact propext ⟨fun h => h.2.2, fun h => ⟨(hinside a b h).1, (hinside a b h).2, h⟩⟩

theorem Together.symm {reaches : α → α → Prop} {a b : α} (h : Together reaches a b) :
    Together reaches b a := by
  rcases h with rfl | h
  · exact .inl rfl
  · exact .inr h.symm

theorem Together.trans {calls : α → α → Prop} {a b c : α}
    (hab : Together (Relation.TransGen calls) a b) (hbc : Together (Relation.TransGen calls) b c) :
    Together (Relation.TransGen calls) a c := by
  rcases hab with rfl | hab
  · exact hbc
  · rcases hbc with rfl | hbc
    · exact .inr hab
    · exact .inr ⟨hab.1.trans hbc.1, hbc.2.trans hab.2⟩

/-- A path between new names is a path between the items they name. -/
theorem reaches_of_map {calls' : β → β → Prop} {f : α → β}
    (hcalls : ∀ a ∈ batch, ∀ b ∈ batch, calls' (f a) (f b) ↔ calls a b) {a : α} {y : β}
    (ha : a ∈ batch) (h : Reaches calls' (batch.map f) (f a) y) :
    ∃ b ∈ batch, f b = y ∧ Reaches calls batch a b := by
  induction h with
  | single h =>
    obtain ⟨b, hb, rfl⟩ := List.mem_map.mp h.2.1
    exact ⟨b, hb, rfl, .single ⟨ha, hb, (hcalls a ha b hb).mp h.2.2⟩⟩
  | tail _ h ih =>
    obtain ⟨b, hb, rfl, hpath⟩ := ih
    obtain ⟨c, hc, rfl⟩ := List.mem_map.mp h.2.1
    exact ⟨c, hc, rfl, hpath.tail ⟨hb, hc, (hcalls b hb c hc).mp h.2.2⟩⟩

theorem reaches_map_iff {calls' : β → β → Prop} {f : α → β}
    (hinj : ∀ a ∈ batch, ∀ b ∈ batch, f a = f b → a = b)
    (hcalls : ∀ a ∈ batch, ∀ b ∈ batch, calls' (f a) (f b) ↔ calls a b) {a b : α}
    (ha : a ∈ batch) (hb : b ∈ batch) :
    Reaches calls' (batch.map f) (f a) (f b) ↔ Reaches calls batch a b := by
  constructor
  · intro h
    obtain ⟨c, hc, heq, hpath⟩ := reaches_of_map hcalls ha h
    exact hinj c hc b hb heq ▸ hpath
  · intro h
    refine Relation.TransGen.lift f ?_ _ _ h
    intro x y hxy
    exact ⟨List.mem_map_of_mem hxy.1, List.mem_map_of_mem hxy.2.1,
      (hcalls x hxy.1 y hxy.2.1).mpr hxy.2.2⟩

/-! ### The circles of an arrangement -/

namespace Arranged
variable {circles : List (Circle α)}

theorem mem_batch (h : Arranged calls before batch circles) {c : Circle α} (hc : c ∈ circles)
    {a : α} (ha : a ∈ c.members) : a ∈ batch :=
  h.perm.subset (List.mem_flatMap.mpr ⟨c, hc, ha⟩)

/-- Every item is in a circle. -/
theorem exists_circle (h : Arranged calls before batch circles) {a : α} (ha : a ∈ batch) :
    ∃ c ∈ circles, a ∈ c.members :=
  List.mem_flatMap.mp (h.perm.symm.subset ha)

/-- Circles that share an item are one circle. -/
theorem eq_of_mem (h : Arranged calls before batch circles) (hn : batch.Nodup) {c d : Circle α}
    (hc : c ∈ circles) (hd : d ∈ circles) {a : α} (hac : a ∈ c.members) (had : a ∈ d.members) :
    c = d := by
  by_contra hne
  have hdisjoint := (List.nodup_flatMap.mp (h.perm.nodup_iff.mpr hn)).2
  have hsymm : Std.Symm (Function.onFun List.Disjoint (Circle.members (α := α))) :=
    ⟨fun _ _ hxy _ hy hx => hxy hx hy⟩
  exact hdisjoint.forall hc hd hne hac had

theorem members_nodup (h : Arranged calls before batch circles) (hn : batch.Nodup) {c : Circle α}
    (hc : c ∈ circles) : c.members.Nodup :=
  (List.nodup_flatMap.mp (h.perm.nodup_iff.mpr hn)).1 c hc

theorem circles_nodup (h : Arranged calls before batch circles) (hn : batch.Nodup) :
    circles.Nodup := by
  refine ((List.nodup_flatMap.mp (h.perm.nodup_iff.mpr hn)).2.imp_of_mem ?_)
  intro c d hc _ hdisjoint heq
  obtain ⟨a, ha⟩ := List.exists_mem_of_ne_nil _ (h.nonempty c hc)
  exact hdisjoint ha (heq ▸ ha)

/-- The circles up to some place hold all that their members reach. -/
theorem reaches_placed (h : Arranged calls before batch circles) (hn : batch.Nodup)
    {placed rest : List (Circle α)} (hsplit : circles = placed ++ rest) {a b : α}
    (ha : ∃ c ∈ placed, a ∈ c.members) (hab : Reaches calls batch a b) :
    ∃ c ∈ placed, b ∈ c.members := by
  have hfirst := h.greedy.needsFirst (h.circles_nodup hn)
  have hlater := (List.pairwise_append.mp (hsplit ▸ hfirst)).2.2
  have hstep : ∀ x y, (∃ c ∈ placed, x ∈ c.members) → y ∈ batch → calls x y →
      ∃ c ∈ placed, y ∈ c.members := by
    rintro x y ⟨c, hc, hx⟩ hy hxy
    obtain ⟨d, hd, hyd⟩ := h.exists_circle hy
    rcases List.mem_append.mp (hsplit ▸ hd) with hplaced | hrest
    · exact ⟨d, hplaced, hyd⟩
    · exact absurd ⟨x, hx, y, hyd, hxy⟩ (hlater c hc d hrest)
  induction hab with
  | single hxy => exact hstep a _ ha hxy.2.1 hxy.2.2
  | tail _ hxy ih => exact hstep _ _ ih hxy.2.1 hxy.2.2

/-- What is placed after a circle is out of its reach. -/
theorem not_reaches_later (h : Arranged calls before batch circles) (hn : batch.Nodup) :
    circles.Pairwise fun c d => ∀ a ∈ c.members, ∀ b ∈ d.members, ¬ Reaches calls batch a b := by
  refine pairwise_iff_turns.mpr fun placed c rest hsplit d hd a ha b hb hab => ?_
  have hsplit' : circles = (placed ++ [c]) ++ rest := by simp [hsplit]
  obtain ⟨e, he, hbe⟩ := h.reaches_placed hn hsplit' ⟨c, by simp, ha⟩ hab
  have hed : e = d := h.eq_of_mem hn (hsplit' ▸ List.mem_append_left _ he)
    (hsplit' ▸ List.mem_append_right _ hd) hbe hb
  exact (List.nodup_append.mp (hsplit' ▸ h.circles_nodup hn)).2.2 e he d hd hed

/-- An item that stands before one that it reaches is reached back. -/
theorem callees_first (h : Arranged calls before batch circles) (hn : batch.Nodup) :
    (circles.flatMap Circle.members).Pairwise fun a b =>
      Reaches calls batch a b → Reaches calls batch b a := by
  refine List.pairwise_flatMap.mpr ⟨fun c hc => ?_, (h.not_reaches_later hn).imp ?_⟩
  · refine List.pairwise_of_forall_mem_list fun a ha b hb hab => ?_
    rcases (h.together c hc a ha b (h.mem_batch hc hb)).mp hb with rfl | hboth
    · exact hab
    · exact hboth.2
  · intro c d hlater a ha b hb hab
    exact absurd hab (hlater a ha b hb)

/-- The items that are together with one of them stand next to each other, sorted. -/
theorem exists_segment (h : Arranged calls before batch circles) {a : α} (ha : a ∈ batch) :
    ∃ front segment back, circles.flatMap Circle.members = front ++ segment ++ back ∧
      (∀ b, b ∈ segment ↔ Together (Reaches calls batch) a b) ∧ segment.Pairwise before := by
  obtain ⟨c, hc, hac⟩ := h.exists_circle ha
  obtain ⟨front, back, hsplit⟩ := List.append_of_mem hc
  refine ⟨front.flatMap Circle.members, c.members, back.flatMap Circle.members, ?_, fun b => ?_,
    h.sorted c hc⟩
  · simp [hsplit]
  · refine ⟨fun hb => (h.together c hc a hac b (h.mem_batch hc hb)).mp hb, fun hab => ?_⟩
    have hb : b ∈ batch := hab.elim (fun heq => heq ▸ ha) fun hboth => hboth.1.mem.2
    exact (h.together c hc a hac b hb).mpr hab

/-! ### One arrangement -/

/-- A circle of one arrangement is a circle of every other. -/
theorem mem_of_mem {first second : List (Circle α)} (h₁ : Arranged calls before batch first)
    (h₂ : Arranged calls before other second) (hp : batch.Perm other) (hn : batch.Nodup)
    (hasymm : ∀ a ∈ batch, ∀ b ∈ batch, before a b → ¬ before b a) {c : Circle α}
    (hc : c ∈ first) : c ∈ second := by
  have hreach : Reaches calls batch = Reaches calls other := reaches_congr fun _ => hp.mem_iff
  obtain ⟨a, ha⟩ := List.exists_mem_of_ne_nil _ (h₁.nonempty c hc)
  obtain ⟨d, hd, had⟩ := h₂.exists_circle (hp.subset (h₁.mem_batch hc ha))
  have hmem : ∀ b, b ∈ c.members ↔ b ∈ d.members := by
    intro b
    by_cases hb : b ∈ batch
    · rw [h₁.together c hc a ha b hb, h₂.together d hd a had b (hp.subset hb), Together, Together,
        hreach]
    · exact ⟨fun hbc => absurd (h₁.mem_batch hc hbc) hb,
        fun hbd => absurd (hp.symm.subset (h₂.mem_batch hd hbd)) hb⟩
  have hmembers : c.members = d.members := by
    have hperm := (List.perm_ext_iff_of_nodup (h₁.members_nodup hn hc)
      (h₂.members_nodup (hp.nodup hn) hd)).mpr hmem
    refine List.Perm.eq_of_pairwise (fun x y hx hy hxy hyx => ?_) (h₁.sorted c hc) (h₂.sorted d hd)
      hperm
    exact absurd hyx (hasymm x (h₁.mem_batch hc hx) y (hp.symm.subset (h₂.mem_batch hd hy)) hxy)
  have hcyclic : c.cyclic = d.cyclic := by
    rw [Bool.eq_iff_iff, h₁.cyclic c hc, h₂.cyclic d hd, hmembers, hreach]
  have hcd : c = d := by
    cases c
    cases d
    rw [Circle.mk.injEq]
    exact ⟨hmembers, hcyclic⟩
  exact hcd ▸ hd

theorem unique {first second : List (Circle α)} (h₁ : Arranged calls before batch first)
    (h₂ : Arranged calls before other second) (hp : batch.Perm other) (hn : batch.Nodup)
    (hasymm : ∀ a ∈ batch, ∀ b ∈ batch, before a b → ¬ before b a) : first = second := by
  have hasymm' : ∀ a ∈ other, ∀ b ∈ other, before a b → ¬ before b a :=
    fun a ha b hb => hasymm a (hp.symm.subset ha) b (hp.symm.subset hb)
  have hcircles : first.Perm second :=
    (List.perm_ext_iff_of_nodup (h₁.circles_nodup hn) (h₂.circles_nodup (hp.nodup hn))).mpr fun _ =>
      ⟨h₁.mem_of_mem h₂ hp hn hasymm, h₂.mem_of_mem h₁ hp.symm (hp.nodup hn) hasymm'⟩
  refine h₁.greedy.unique h₂.greedy hcircles fun c hc d hd => ?_
  exact Circle.Leads.asymm fun a ha b hb => hasymm a (h₁.mem_batch hc ha) b (h₁.mem_batch hd hb)

/-! ### New names -/

theorem relabel {calls' before' : β → β → Prop} {f : α → β}
    (h : Arranged calls before batch circles) (hn : batch.Nodup)
    (hinj : ∀ a ∈ batch, ∀ b ∈ batch, f a = f b → a = b)
    (hcalls : ∀ a ∈ batch, ∀ b ∈ batch, calls' (f a) (f b) ↔ calls a b)
    (hbefore : (circles.flatMap Circle.members).Pairwise fun a b =>
      before a b → before' (f a) (f b)) :
    Arranged calls' before' (batch.map f) (circles.map (Circle.map f)) := by
  obtain ⟨hwithin, hacross⟩ := List.pairwise_flatMap.mp hbefore
  constructor
  case perm =>
    rw [Circle.flatMap_map_members]
    exact h.perm.map f
  case nonempty =>
    intro c' hc'
    obtain ⟨c, hc, rfl⟩ := List.mem_map.mp hc'
    exact fun hnil => h.nonempty c hc (List.map_eq_nil_iff.mp hnil)
  case together =>
    intro c' hc' a' ha' b' hb'
    obtain ⟨c, hc, rfl⟩ := List.mem_map.mp hc'
    obtain ⟨a, ha, rfl⟩ := List.mem_map.mp ha'
    obtain ⟨b, hb, rfl⟩ := List.mem_map.mp hb'
    have hab := h.mem_batch hc ha
    have hmem : f b ∈ (c.map f).members ↔ b ∈ c.members := by
      refine ⟨fun hfb => ?_, List.mem_map_of_mem⟩
      obtain ⟨x, hx, hxb⟩ := List.mem_map.mp hfb
      exact hinj x (h.mem_batch hc hx) b hb hxb ▸ hx
    rw [hmem, h.together c hc a ha b hb, Together, Together, reaches_map_iff hinj hcalls hab hb,
      reaches_map_iff hinj hcalls hb hab]
    exact or_congr_left ⟨congrArg f, hinj a hab b hb⟩
  case sorted =>
    intro c' hc'
    obtain ⟨c, hc, rfl⟩ := List.mem_map.mp hc'
    rw [Circle.map_members, List.pairwise_map]
    exact (h.sorted c hc).imp₂ (fun _ _ hab hbefore => hbefore hab) (hwithin c hc)
  case cyclic =>
    intro c' hc'
    obtain ⟨c, hc, rfl⟩ := List.mem_map.mp hc'
    rw [Circle.map_cyclic, h.cyclic c hc, Circle.map_members]
    constructor
    · rintro ⟨a, ha, hpath⟩
      have hab := h.mem_batch hc ha
      exact ⟨f a, List.mem_map_of_mem ha, (reaches_map_iff hinj hcalls hab hab).mpr hpath⟩
    · rintro ⟨_, ha', hpath⟩
      obtain ⟨a, ha, rfl⟩ := List.mem_map.mp ha'
      have hab := h.mem_batch hc ha
      exact ⟨a, ha, (reaches_map_iff hinj hcalls hab hab).mp hpath⟩
  case greedy =>
    refine h.greedy.map (fun c hc d hd heq => ?_) (fun c hc d hd _ => ?_) (hacross.imp ?_)
    · obtain ⟨a, ha⟩ := List.exists_mem_of_ne_nil _ (h.nonempty c hc)
      have hfa : f a ∈ (d.map f).members := heq ▸ List.mem_map_of_mem ha
      obtain ⟨b, hb, hba⟩ := List.mem_map.mp hfa
      have hbeq : b = a := hinj b (h.mem_batch hd hb) a (h.mem_batch hc ha) hba
      exact h.eq_of_mem hn hc hd ha (hbeq ▸ hb)
    · exact Circle.calls_map_iff fun a ha b hb => hcalls a (h.mem_batch hc ha) b (h.mem_batch hd hb)
    · exact Circle.Leads.map

/-- Under the names that they have, only the comparison changes. -/
theorem of_before {before' : α → α → Prop} (h : Arranged calls before batch circles)
    (hn : batch.Nodup) (hbefore : ∀ a ∈ batch, ∀ b ∈ batch, before a b → before' a b) :
    Arranged calls before' batch circles := by
  have hmapped := h.relabel (f := id) hn (fun _ _ _ _ => id) (fun _ _ _ _ => Iff.rfl)
    (List.pairwise_of_forall_mem_list fun a ha b hb =>
      hbefore a (h.perm.subset ha) b (h.perm.subset hb))
  have hcircles : circles.map (Circle.map id) = circles :=
    (List.map_congr_left fun c _ => by rw [Circle.map, List.map_id]; rfl).trans
      (List.map_id circles)
  rwa [hcircles, List.map_id] at hmapped

end Arranged

end

end CalleeFirst
