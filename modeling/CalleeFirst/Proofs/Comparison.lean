import CalleeFirst.Ranking
import CalleeFirst.Proofs.Reachability
import Mathlib.Data.List.Nodup
import Mathlib.Data.List.Pairwise

/-! The comparison of declarations, and the ranks it gives.

Names, members and declarations are each compared by several criteria, one after the
other; every such comparison is oriented and transitive, and the instances below say so
level by level. `compareDeclarations_eq`: only declarations of one source index compare as
equal. So in a batch whose source indices differ, sorting leaves nothing open, and
`rankOf_lt_iff` says that one rank is lower than another exactly when the comparison
says so of the declarations. -/
namespace CalleeFirst

/-- Comparing what `f` reads from the values. -/
theorem transCmp_on {α β : Type} (cmp : β → β → Ordering) [Std.TransCmp cmp] (f : α → β) :
    Std.TransCmp fun a b => cmp (f a) (f b) where
  eq_swap {a b} := (Std.OrientedCmp.eq_swap : cmp (f a) (f b) = (cmp (f b) (f a)).swap)
  isLE_trans {a _ c} hab hbc :=
    (Std.TransCmp.isLE_trans hab hbc : (cmp (f a) (f c)).isLE)

namespace Collation

instance : Std.TransCmp compareCase :=
  inferInstanceAs (Std.TransCmp
    (compareLex (compareOn fun a => !Text.isLowercase a) (compareOn fun a : Char => a)))

instance (c : Collation) : Std.TransCmp c.compareNames := by
  have hordinal := transCmp_on (List.compareLex (compare : Char → Char → Ordering)) String.toList
  have hfolded := transCmp_on (List.compareLex (compare : Char → Char → Ordering)) folded
  have hcase := transCmp_on (List.compareLex compareCase) String.toList
  cases c with
  | ordinal => exact hordinal
  | natural =>
    exact inferInstanceAs (Std.TransCmp (compareLex
      (fun a b => List.compareLex compare (folded a) (folded b))
      (fun a b : String => List.compareLex compareCase a.toList b.toList)))

end Collation

namespace Settings
variable (s : Settings)

instance : Std.TransCmp s.compareParameters :=
  inferInstanceAs (Std.TransCmp (List.compareLex s.collation.compareNames))

instance : Std.TransCmp s.compareMembers := by
  have hvisibility : Std.TransCmp fun a b : Declaration =>
      if s.groupByVisibility then compare a.visibilityRank b.visibilityRank else .eq := by
    cases s.groupByVisibility with
    | false => exact { eq_swap := rfl, isLE_trans := fun _ _ => rfl }
    | true => exact transCmp_on (compare : Nat → Nat → Ordering) Declaration.visibilityRank
  have hname := transCmp_on s.collation.compareNames Declaration.name
  have hparameters := transCmp_on s.compareParameters Declaration.parameters
  have hindex := transCmp_on (compare : Nat → Nat → Ordering) Declaration.sourceIndex
  exact inferInstanceAs (Std.TransCmp (compareLex _ (compareLex _ (compareLex _ _))))

section
variable {s : Settings} {a b : Declaration}

theorem compareDeclarations_anchored (ha : a.callable = false) (hb : b.callable = false) :
    s.compareDeclarations a b = compare a.sourceIndex b.sourceIndex := by
  rw [compareDeclarations, ha, hb]

theorem compareDeclarations_anchored_callable (ha : a.callable = false) (hb : b.callable = true) :
    s.compareDeclarations a b = s.otherFirst := by
  rw [compareDeclarations, ha, hb]

theorem compareDeclarations_callable_anchored (ha : a.callable = true) (hb : b.callable = false) :
    s.compareDeclarations a b = s.otherFirst.swap := by
  rw [compareDeclarations, ha, hb]

theorem compareDeclarations_callable (ha : a.callable = true) (hb : b.callable = true) :
    s.compareDeclarations a b = s.compareMembers a b := by
  rw [compareDeclarations, ha, hb]

end

/-- The placement decides for one side. -/
theorem otherFirst_eq : s.otherFirst = .lt ∨ s.otherFirst = .gt := by
  unfold otherFirst
  cases s.others
  · exact .inl rfl
  · exact .inr rfl

instance : Std.OrientedCmp s.compareDeclarations where
  eq_swap {a b} := by
    cases ha : a.callable <;> cases hb : b.callable
    · rw [compareDeclarations_anchored ha hb, compareDeclarations_anchored hb ha]
      exact Std.OrientedOrd.eq_swap
    · rw [compareDeclarations_anchored_callable ha hb, compareDeclarations_callable_anchored hb ha,
        Ordering.swap_swap]
    · rw [compareDeclarations_callable_anchored ha hb, compareDeclarations_anchored_callable hb ha]
    · rw [compareDeclarations_callable ha hb, compareDeclarations_callable hb ha]
      exact Std.OrientedCmp.eq_swap

instance : Std.TransCmp s.compareDeclarations where
  isLE_trans {a b c} hab hbc := by
    cases ha : a.callable <;> cases hb : b.callable <;> cases hc : c.callable
    · rw [compareDeclarations_anchored ha hb] at hab
      rw [compareDeclarations_anchored hb hc] at hbc
      rw [compareDeclarations_anchored ha hc]
      exact Std.TransOrd.isLE_trans hab hbc
    · rw [compareDeclarations_anchored_callable hb hc] at hbc
      rw [compareDeclarations_anchored_callable ha hc]
      exact hbc
    -- There and back again: the placement cannot have decided both ways.
    · rw [compareDeclarations_anchored_callable ha hb] at hab
      rw [compareDeclarations_callable_anchored hb hc] at hbc
      rcases s.otherFirst_eq with h | h <;> simp [h] at hab hbc
    · rw [compareDeclarations_anchored_callable ha hb] at hab
      rw [compareDeclarations_anchored_callable ha hc]
      exact hab
    · rw [compareDeclarations_callable_anchored ha hb] at hab
      rw [compareDeclarations_callable_anchored ha hc]
      exact hab
    · rw [compareDeclarations_callable_anchored ha hb] at hab
      rw [compareDeclarations_anchored_callable hb hc] at hbc
      rcases s.otherFirst_eq with h | h <;> simp [h] at hab hbc
    · rw [compareDeclarations_callable_anchored hb hc] at hbc
      rw [compareDeclarations_callable_anchored ha hc]
      exact hbc
    · rw [compareDeclarations_callable ha hb] at hab
      rw [compareDeclarations_callable hb hc] at hbc
      rw [compareDeclarations_callable ha hc]
      exact Std.TransCmp.isLE_trans hab hbc

/-- Every tie is broken by the source index in the end. -/
theorem compareDeclarations_eq {a b : Declaration} (h : s.compareDeclarations a b = .eq) :
    a.sourceIndex = b.sourceIndex := by
  cases ha : a.callable <;> cases hb : b.callable
  · rw [compareDeclarations_anchored ha hb] at h
    exact Nat.compare_eq_eq.mp h
  · rw [compareDeclarations_anchored_callable ha hb] at h
    rcases s.otherFirst_eq with h' | h' <;> simp [h'] at h
  · rw [compareDeclarations_callable_anchored ha hb] at h
    rcases s.otherFirst_eq with h' | h' <;> simp [h'] at h
  · rw [compareDeclarations_callable ha hb] at h
    simp only [compareMembers, Ordering.then_eq_eq] at h
    exact Nat.compare_eq_eq.mp h.2.2.2

end Settings

/-! ### Ranks -/

theorem rel_of_idxOf_lt {l : List Nat} {rel : Nat → Nat → Prop} (hsorted : l.Pairwise rel)
    {a b : Nat} (hb : b ∈ l) (h : l.idxOf a < l.idxOf b) : rel a b := by
  have hlt := List.idxOf_lt_length_of_mem hb
  have hrel := List.pairwise_iff_getElem.mp hsorted _ _ (Nat.lt_trans h hlt) hlt h
  rwa [List.getElem_idxOf, List.getElem_idxOf] at hrel

/-- In a list sorted by an asymmetric relation, places say what the relation says. -/
theorem idxOf_lt_idxOf_iff {l : List Nat} {rel : Nat → Nat → Prop} (hsorted : l.Pairwise rel)
    (hasymm : ∀ a b, rel a b → ¬ rel b a) {a b : Nat} (ha : a ∈ l) (hb : b ∈ l) :
    l.idxOf a < l.idxOf b ↔ rel a b := by
  refine ⟨rel_of_idxOf_lt hsorted hb, fun hab => ?_⟩
  by_contra hnot
  rcases Nat.lt_or_eq_of_le (Nat.not_lt.mp hnot) with hlt | heq
  · exact hasymm a b hab (rel_of_idxOf_lt hsorted ha hlt)
  · obtain rfl := (List.idxOf_inj hb).mp heq
    exact hasymm b b hab hab

/-- The comparison finds the first declaration less. -/
def Settings.Less (s : Settings) (a b : Declaration) : Prop := s.compareDeclarations a b = .lt

theorem Settings.Less.asymm {s : Settings} (a b : Declaration) (h : s.Less a b) : ¬ s.Less b a :=
  Std.OrientedCmp.not_lt_of_lt h

/-- Declaration `i` of a batch compares as less than declaration `j`. -/
def Batch.Before (s : Settings) (batch : List Declaration) (i j : Nat) : Prop :=
  Both s.Less batch[i]? batch[j]?

namespace Settings
variable (s : Settings) (batch : List Declaration)

theorem sortedIndices_perm : (s.sortedIndices batch).Perm (List.range batch.length) := by
  have hperm := (List.mergeSort_perm batch.zipIdx
    fun a b => (s.compareDeclarations a.1 b.1).isLE).map Prod.snd
  rw [List.zipIdx_map_snd, ← List.range_eq_range'] at hperm
  exact hperm

theorem sortedIndices_sorted (hn : (batch.map Declaration.sourceIndex).Nodup) :
    (s.sortedIndices batch).Pairwise (Batch.Before s batch) := by
  have hperm := List.mergeSort_perm batch.zipIdx fun a b => (s.compareDeclarations a.1 b.1).isLE
  have hsorted := List.pairwise_mergeSort
    (fun a b c => (Std.TransCmp.isLE_trans : (s.compareDeclarations a.1 b.1).isLE →
      (s.compareDeclarations b.1 c.1).isLE → (s.compareDeclarations a.1 c.1).isLE))
    (fun a b => by
      rw [Bool.or_eq_true]
      exact Classical.or_iff_not_imp_left.mpr fun h => Ordering.isLE_of_eq_lt
        (Std.OrientedCmp.lt_of_not_isLE h)) batch.zipIdx
  have hplaces : (batch.zipIdx.map Prod.snd).Nodup := by
    rw [List.zipIdx_map_snd]
    exact List.nodup_range'
  have hdistinct := List.pairwise_map.mp ((hperm.map Prod.snd).nodup_iff.mpr hplaces)
  refine List.pairwise_map.mpr ((hsorted.and hdistinct).imp_of_mem fun {a b} ha hb h => ?_)
  have ha := List.mem_zipIdx_iff_getElem?.mp (hperm.subset ha)
  have hb := List.mem_zipIdx_iff_getElem?.mp (hperm.subset hb)
  refine ⟨a.1, ha, b.1, hb, (Ordering.isLE_iff_eq_lt_or_eq_eq.mp h.1).resolve_right fun heq =>
    h.2 ?_⟩
  refine (List.getElem?_inj (l := batch.map Declaration.sourceIndex) ?_ hn).mp ?_
  · rw [List.length_map]
    exact (List.getElem?_eq_some_iff.mp ha).1
  · rw [List.getElem?_map, List.getElem?_map, ha, hb, Option.map_some, Option.map_some,
      s.compareDeclarations_eq heq]

/-- The rank of a declaration by its index; the array is that of `orderGroups`. -/
def rankOf (node : Nat) : Nat := (s.ranks batch).toArray.getD node 0

theorem rankOf_eq {i : Nat} (hi : i < batch.length) :
    s.rankOf batch i = (s.sortedIndices batch).idxOf i := by
  rw [rankOf, Array.getD_eq_getD_getElem?, List.getElem?_toArray, ranks, List.getElem?_map,
    List.getElem?_range hi]
  rfl

theorem mem_sortedIndices {i : Nat} (hi : i < batch.length) : i ∈ s.sortedIndices batch :=
  (s.sortedIndices_perm batch).symm.subset (List.mem_range.mpr hi)

theorem rankOf_inj (i : Nat) (hi : i < batch.length) (j : Nat) (hj : j < batch.length)
    (h : s.rankOf batch i = s.rankOf batch j) : i = j := by
  rw [rankOf_eq s batch hi, rankOf_eq s batch hj] at h
  exact (List.idxOf_inj (s.mem_sortedIndices batch hi)).mp h

/-- Ranks compare as the declarations do. -/
theorem rankOf_lt_iff (hn : (batch.map Declaration.sourceIndex).Nodup) {i j : Nat}
    (hi : i < batch.length) (hj : j < batch.length) :
    s.rankOf batch i < s.rankOf batch j ↔ Batch.Before s batch i j := by
  rw [rankOf_eq s batch hi, rankOf_eq s batch hj]
  exact idxOf_lt_idxOf_iff (s.sortedIndices_sorted batch hn)
    (fun _ _ => Both.asymm Settings.Less.asymm)
    (s.mem_sortedIndices batch hi) (s.mem_sortedIndices batch hj)

end Settings

end CalleeFirst
