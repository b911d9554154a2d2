import Mathlib.Data.List.Chain
import Mathlib.Data.List.Lex
import Mathlib.Data.List.Perm.Basic

/-! Taking the best of what is ready.

Items wait, and some of them need others. An item is ready (`Ready`) when nothing
else that waits is needed by it. An order is greedy (`Greedy`) when the item whose turn
comes is ready and is preferred to all others that are ready too. Nothing but the rest
of the order tells what waits, so a greedy order stays greedy when its first item is
taken off.

`Greedy.isChain`: a relation that agrees with needs and preferences holds between neighbours.
`Greedy.unique`: items have at most one greedy order. `Greedy.map_le`: where the preferred
item is the one of the smaller key, the keys of the greedy order come out
lexicographically smallest among all orders in which no item stands before one that it
needs (`NeedsFirst`). -/
namespace CalleeFirst

section
variable {α β : Type} (needs prefers : α → α → Prop)

/-- `x` needs nothing that waits, itself apart. -/
def Ready (waiting : List α) (x : α) : Prop := ∀ z ∈ waiting, needs x z → z = x

/-- Nothing stands before an item that it needs. -/
def NeedsFirst (order : List α) : Prop := order.Pairwise fun x y => ¬ needs x y

inductive Greedy : List α → Prop
  | nil : Greedy []
  | cons {x : α} {rest : List α} (ready : Ready needs (x :: rest) x)
      (best : ∀ y ∈ rest, Ready needs (x :: rest) y → prefers x y) (tail : Greedy rest) :
      Greedy (x :: rest)

variable {needs prefers}

theorem Ready.of_subset {waiting fewer : List α} {x : α} (h : Ready needs waiting x)
    (hsub : fewer ⊆ waiting) : Ready needs fewer x :=
  fun z hz => h z (hsub hz)

/-- Who is ready is decided by what waits, not by the order it waits in. -/
theorem Ready.perm {waiting other : List α} {x : α} (h : Ready needs waiting x)
    (hp : waiting.Perm other) : Ready needs other x :=
  h.of_subset hp.symm.subset

/-- The first item of an order that puts needs first is ready. -/
theorem NeedsFirst.head_ready {x : α} {rest : List α} (h : NeedsFirst needs (x :: rest)) :
    Ready needs (x :: rest) x := by
  intro z hz hneed
  rcases List.mem_cons.mp hz with rfl | hz
  · rfl
  · exact absurd hneed ((List.pairwise_cons.mp h).1 z hz)

/-- A relation between earlier and later items, turn by turn. -/
theorem pairwise_iff_turns {order : List α} {rel : α → α → Prop} :
    order.Pairwise rel ↔ ∀ before x after, order = before ++ x :: after → ∀ y ∈ after, rel x y := by
  constructor
  · rintro h before x after rfl
    exact (List.pairwise_cons.mp (List.pairwise_append.mp h).2.1).1
  · intro h
    induction order with
    | nil => exact .nil
    | cons x rest ih =>
      refine List.pairwise_cons.mpr ⟨h [] x rest rfl, ih fun before y after heq => ?_⟩
      exact h (x :: before) y after (by rw [heq, List.cons_append])

/-- Turn by turn: what a greedy order says of every one of its items. -/
theorem greedy_iff_turns {order : List α} :
    Greedy needs prefers order ↔ ∀ before x after, order = before ++ x :: after →
      Ready needs (x :: after) x ∧ ∀ y ∈ after, Ready needs (x :: after) y → prefers x y := by
  constructor
  · intro h
    induction h with
    | nil =>
      intro before x after heq
      simp at heq
    | cons ready best _ ih =>
      intro before x after heq
      cases before with
      | nil =>
        obtain ⟨rfl, rfl⟩ := List.cons_eq_cons.mp heq
        exact ⟨ready, best⟩
      | cons _ before =>
        obtain ⟨rfl, htail⟩ := List.cons_eq_cons.mp heq
        exact ih before x after htail
  · intro h
    induction order with
    | nil => exact .nil
    | cons x rest ih =>
      obtain ⟨ready, best⟩ := h [] x rest rfl
      refine .cons ready best (ih fun before y after heq => ?_)
      exact h (x :: before) y after (by rw [heq, List.cons_append])

theorem Greedy.needsFirst {order : List α} (h : Greedy needs prefers order) (hn : order.Nodup) :
    NeedsFirst needs order := by
  induction h with
  | nil => exact .nil
  | @cons x rest ready _ _ ih =>
    obtain ⟨hx, hrest⟩ := List.nodup_cons.mp hn
    refine List.pairwise_cons.mpr ⟨fun y hy hneed => ?_, ih hrest⟩
    have hyx : y = x := ready y (List.mem_cons_of_mem x hy) hneed
    exact hx (hyx ▸ hy)

/-- Of two neighbours the later one needs the earlier, or was ready with it and not preferred. -/
theorem Greedy.isChain {rel : α → α → Prop} {order : List α} (h : Greedy needs prefers order)
    (hn : order.Nodup) (hneeds : ∀ x ∈ order, ∀ y ∈ order, x ≠ y → needs y x → rel x y)
    (hprefers : ∀ x ∈ order, ∀ y ∈ order, prefers x y → rel x y) : order.IsChain rel := by
  induction h with
  | nil => exact .nil
  | @cons x rest _ best tail ih =>
    obtain ⟨hx, hrest⟩ := List.nodup_cons.mp hn
    have ih := ih hrest
      (fun a ha b hb => hneeds a (List.mem_cons_of_mem x ha) b (List.mem_cons_of_mem x hb))
      (fun a ha b hb => hprefers a (List.mem_cons_of_mem x ha) b (List.mem_cons_of_mem x hb))
    refine List.isChain_cons.mpr ⟨fun y hy => ?_, ih⟩
    have hyrest : y ∈ rest := List.mem_of_mem_head? hy
    have hy' : y ∈ x :: rest := List.mem_cons_of_mem x hyrest
    by_cases hneed : needs y x
    · exact hneeds x List.mem_cons_self y hy' (fun heq => hx (heq ▸ hyrest)) hneed
    · refine hprefers x List.mem_cons_self y hy' (best y hyrest fun z hz hyz => ?_)
      obtain ⟨others, rfl⟩ := List.head?_eq_some_iff.mp hy
      rcases List.mem_cons.mp hz with rfl | hz
      · exact absurd hyz hneed
      · exact (tail.needsFirst hrest).head_ready z hz hyz

/-- Two greedy orders of the same items agree, if no two items are preferred to each other. -/
theorem Greedy.unique {first second : List α} (h₁ : Greedy needs prefers first)
    (h₂ : Greedy needs prefers second) (hp : first.Perm second)
    (hasymm : ∀ x ∈ first, ∀ y ∈ first, prefers x y → ¬ prefers y x) : first = second := by
  induction h₁ generalizing second with
  | nil => exact hp.nil_eq
  | @cons x rest ready best _ ih =>
    cases h₂ with
    | nil => exact absurd hp.symm.nil_eq (by simp)
    | @cons y others ready' best' tail' =>
      have hxy : x = y := by
        by_contra hne
        have hy : y ∈ rest :=
          (List.mem_cons.mp (hp.mem_iff.mpr (List.mem_cons_self ..))).resolve_left (Ne.symm hne)
        have hx : x ∈ others :=
          (List.mem_cons.mp (hp.mem_iff.mp (List.mem_cons_self ..))).resolve_left hne
        -- Both were ready, so each of the two was preferred to the other.
        exact hasymm x (List.mem_cons_self ..) y (List.mem_cons_of_mem x hy)
          (best y hy (ready'.perm hp.symm)) (best' x hx (ready.perm hp))
      subst hxy
      rw [ih tail' (List.perm_cons x |>.mp hp) fun a ha b hb =>
        hasymm a (List.mem_cons_of_mem x ha) b (List.mem_cons_of_mem x hb)]

/-- No order that puts needs first has lexicographically smaller keys than the greedy one. -/
theorem Greedy.map_le {key : α → Nat} {order other : List α}
    (h : Greedy needs (fun x y => key x < key y) order) (hp : order.Perm other)
    (hother : NeedsFirst needs other) : order.map key ≤ other.map key := by
  induction h generalizing other with
  | nil => rw [hp.nil_eq]
  | @cons x rest ready best _ ih =>
    cases other with
    | nil => exact absurd hp.symm.nil_eq (by simp)
    | cons y others =>
      by_cases hxy : x = y
      · subst hxy
        exact List.cons_le_cons _ (ih (List.perm_cons x |>.mp hp) (List.pairwise_cons.mp hother).2)
      · have hy : y ∈ rest :=
          (List.mem_cons.mp (hp.mem_iff.mpr (List.mem_cons_self ..))).resolve_left (Ne.symm hxy)
        exact le_of_lt (List.Lex.rel (best y hy (hother.head_ready.perm hp.symm)))

theorem Greedy.mono {prefers' : α → α → Prop} {order : List α} (h : Greedy needs prefers order)
    (hprefers : order.Pairwise fun x y => prefers x y → prefers' x y) :
    Greedy needs prefers' order := by
  induction h with
  | nil => exact .nil
  | cons ready best _ ih =>
    obtain ⟨hx, hrest⟩ := List.pairwise_cons.mp hprefers
    exact .cons ready (fun y hy hready => hx y hy (best y hy hready)) (ih hrest)

/-- A greedy order stays greedy when the items are read through `f`, if needs are the
same there and whoever was preferred to a later item still is. -/
theorem Greedy.map {needs' prefers' : β → β → Prop} {f : α → β} {order : List α}
    (h : Greedy needs prefers order)
    (hinj : ∀ x ∈ order, ∀ y ∈ order, f x = f y → x = y)
    (hneeds : ∀ x ∈ order, ∀ y ∈ order, x ≠ y → (needs' (f x) (f y) ↔ needs x y))
    (hprefers : order.Pairwise fun x y => prefers x y → prefers' (f x) (f y)) :
    Greedy needs' prefers' (order.map f) := by
  induction h with
  | nil => exact .nil
  | @cons x rest ready best _ ih =>
    obtain ⟨hx, hrest⟩ := List.pairwise_cons.mp hprefers
    rw [List.map_cons]
    refine .cons ?_ ?_ (ih (fun a ha b hb => hinj a (List.mem_cons_of_mem x ha) b
      (List.mem_cons_of_mem x hb)) (fun a ha b hb => hneeds a (List.mem_cons_of_mem x ha) b
      (List.mem_cons_of_mem x hb)) hrest)
    · intro w hw hneed
      rw [← List.map_cons] at hw
      obtain ⟨z, hz, rfl⟩ := List.mem_map.mp hw
      by_cases hxz : x = z
      · rw [hxz]
      · rw [ready z hz ((hneeds x (List.mem_cons_self ..) z hz hxz).mp hneed)]
    · intro w hw hready
      obtain ⟨y, hy, rfl⟩ := List.mem_map.mp hw
      have hy' : y ∈ x :: rest := List.mem_cons_of_mem x hy
      refine hx y hy (best y hy fun z hz hneed => ?_)
      by_contra hzy
      have hfz : f z ∈ f x :: rest.map f := by
        rw [← List.map_cons]
        exact List.mem_map_of_mem hz
      exact hzy (hinj z hz y hy' (hready (f z) hfz ((hneeds y hy' z hz (Ne.symm hzy)).mpr hneed)))

/-- Where kept items need kept items only, the order of the kept items is greedy. -/
theorem Greedy.filter {order : List α} (h : Greedy needs prefers order) {keep : α → Bool}
    (hclosed : ∀ x ∈ order, keep x → ∀ z ∈ order, needs x z → keep z) :
    Greedy needs prefers (order.filter keep) := by
  induction h with
  | nil => exact .nil
  | @cons x rest ready best _ ih =>
    have ih := ih fun y hy hky z hz => hclosed y (List.mem_cons_of_mem x hy) hky z
      (List.mem_cons_of_mem x hz)
    by_cases hx : keep x
    · rw [List.filter_cons_of_pos hx]
      refine .cons ?_ (fun y hy hready => ?_) ih
      · rw [← List.filter_cons_of_pos hx]
        exact ready.of_subset (List.filter_subset_self _)
      · obtain ⟨hy, hky⟩ := List.mem_filter.mp hy
        -- Nothing that was taken out can keep a kept item waiting.
        refine best y hy fun z hz hneed => hready z ?_ hneed
        rw [← List.filter_cons_of_pos hx]
        exact List.mem_filter.mpr ⟨hz, hclosed y (List.mem_cons_of_mem x hy) hky z hz hneed⟩
    · rwa [List.filter_cons_of_neg hx]

end

end CalleeFirst
