import CalleeFirst.Proofs.Rearrangement

/-! Ranks as places and as numbers.

A declaration's rank is its place in the sorted batch, so that ranks and sorted indices undo each
other whatever the comparison is (`getElem?_ranks_iff`). In a list sorted by an asymmetric relation
a place says more: it is the number of the items that stand in that relation to the item there
(`idxOf_eq_countP`). The batch is sorted by such a relation as soon as its source indices differ.

`compareDeclarations_ranks`: under any settings the comparison is a total order of declarations
that ties only on the source index, and a rank is the number of declarations that are less. -/
namespace CalleeFirst

/-- What is in front of an item, and nothing else, is related to it. -/
theorem idxOf_eq_countP {l : List Nat} {rel : Nat → Nat → Prop} (hsorted : l.Pairwise rel)
    (hasymm : ∀ a b, rel a b → ¬ rel b a) {a : Nat} (ha : a ∈ l) {less : Nat → Bool}
    (hless : ∀ b ∈ l, less b = true ↔ rel b a) : l.idxOf a = l.countP less := by
  obtain ⟨front, back, rfl⟩ := List.append_of_mem ha
  obtain ⟨_, hback, hfront⟩ := List.pairwise_append.mp hsorted
  have hself : ¬ rel a a := fun h => hasymm a a h h
  have hin : ∀ b ∈ front, rel b a := fun b hb => hfront b hb a List.mem_cons_self
  have hout : ∀ b ∈ a :: back, ¬ rel b a := by
    intro b hb
    rcases List.mem_cons.mp hb with rfl | hb
    · exact hself
    · exact hasymm a b ((List.pairwise_cons.mp hback).1 b hb)
  have hcount : front.countP less = front.length := List.countP_eq_length.mpr fun b hb =>
    (hless b (List.mem_append_left _ hb)).mpr (hin b hb)
  have hnone : (a :: back).countP less = 0 := List.countP_eq_zero.mpr fun b hb hb' =>
    hout b hb ((hless b (List.mem_append_right _ hb)).mp hb')
  rw [List.idxOf_append_of_notMem fun h => hself (hin a h), List.idxOf_cons_self,
    List.countP_append, hcount, hnone]

theorem getElem?_eq_some_iff_idxOf {l : List Nat} (hn : l.Nodup) {i k : Nat} :
    l[k]? = some i ↔ i ∈ l ∧ l.idxOf i = k := by
  constructor
  · intro h
    obtain ⟨hk, rfl⟩ := List.getElem?_eq_some_iff.mp h
    exact ⟨List.getElem_mem hk, hn.idxOf_getElem k hk⟩
  · rintro ⟨hi, rfl⟩
    exact List.getElem?_idxOf hi

namespace Settings
variable (s : Settings) (batch : List Declaration)

theorem length_ranks : (s.ranks batch).length = batch.length := by
  rw [ranks, List.length_map, List.length_range]

theorem getElem?_ranks {i : Nat} (hi : i < batch.length) :
    (s.ranks batch)[i]? = some ((s.sortedIndices batch).idxOf i) := by
  rw [ranks, List.getElem?_map, List.getElem?_range hi, Option.map_some]

theorem sortedIndices_nodup : (s.sortedIndices batch).Nodup :=
  (s.sortedIndices_perm batch).nodup_iff.mpr List.nodup_range

/-- Ranks say where a declaration goes, sorted indices which one is there. -/
theorem getElem?_ranks_iff (i k : Nat) :
    (s.ranks batch)[i]? = some k ↔ (s.sortedIndices batch)[k]? = some i := by
  rw [getElem?_eq_some_iff_idxOf (s.sortedIndices_nodup batch),
    (s.sortedIndices_perm batch).mem_iff, List.mem_range]
  constructor
  · intro h
    have hi := (List.getElem?_eq_some_iff.mp h).1
    rw [length_ranks] at hi
    rw [s.getElem?_ranks batch hi] at h
    exact ⟨hi, Option.some.inj h⟩
  · rintro ⟨hi, rfl⟩
    exact s.getElem?_ranks batch hi

variable {batch}

theorem countP_sortedIndices (p : Option Declaration → Bool) :
    (s.sortedIndices batch).countP (fun i => p batch[i]?) = batch.countP fun d => p (some d) := by
  have hrange : (List.range batch.length).countP (fun i => p batch[i]?) =
      ((List.range batch.length).map fun i => batch[i]?).countP p := by
    rw [List.countP_map]
    rfl
  rw [(s.sortedIndices_perm batch).countP_eq, hrange, map_getElem?_range, List.countP_map]
  rfl

/-- A rank is the number of declarations that compare as less. -/
theorem getElem?_ranks_countP (hn : (batch.map Declaration.sourceIndex).Nodup) {i : Nat}
    {d : Declaration} (hd : batch[i]? = some d) :
    (s.ranks batch)[i]? = some (batch.countP fun e => s.compareDeclarations e d = .lt) := by
  have hi : i < batch.length := (List.getElem?_eq_some_iff.mp hd).1
  have hless : ∀ j ∈ s.sortedIndices batch,
      (batch[j]?.any fun e => s.compareDeclarations e d = .lt) = true ↔
        Batch.Before s batch j i := by
    intro j _
    simp only [Option.any_eq_true, decide_eq_true_eq, Batch.Before, Both, hd, Option.mem_def,
      Option.some.injEq, exists_eq_left', Less]
  rw [s.getElem?_ranks batch hi, idxOf_eq_countP (s.sortedIndices_sorted batch hn)
    (fun _ _ => Both.asymm Less.asymm) (s.mem_sortedIndices batch hi) hless,
    countP_sortedIndices s fun x => x.any fun e => s.compareDeclarations e d = .lt]
  rfl

/-- **The comparison puts declarations in one line**, on which a rank counts what is in front. -/
theorem compareDeclarations_ranks (s : Settings) :
    (∀ a b, s.compareDeclarations b a = (s.compareDeclarations a b).swap) ∧
    (∀ a b c, s.compareDeclarations a b = .lt → s.compareDeclarations b c = .lt →
      s.compareDeclarations a c = .lt) ∧
    (∀ a b, s.compareDeclarations a b = .eq → a.sourceIndex = b.sourceIndex) ∧
    ∀ batch : List Declaration, (batch.map Declaration.sourceIndex).Nodup →
      (s.sortedIndices batch).Perm (List.range batch.length) ∧
      (s.ranks batch).length = batch.length ∧
      (∀ i k : Nat, (s.ranks batch)[i]? = some k ↔ (s.sortedIndices batch)[k]? = some i) ∧
      ∀ (i : Nat) d, batch[i]? = some d →
        (s.ranks batch)[i]? = some (batch.countP fun e => s.compareDeclarations e d = .lt) := by
  refine ⟨fun _ _ => Std.OrientedCmp.eq_swap, fun _ _ _ => Std.TransCmp.lt_trans,
    fun _ _ => s.compareDeclarations_eq, fun batch hn => ?_⟩
  exact ⟨s.sortedIndices_perm batch, s.length_ranks batch, s.getElem?_ranks_iff batch,
    fun i d => s.getElem?_ranks_countP hn⟩

theorem compareDeclarations_ranks_sample :
    let s : Settings := { others := .trailing }
    (Batch.sample.map Declaration.sourceIndex).Nodup ∧
    s.compareDeclarations Batch.sample[4] Batch.sample[0] = .lt ∧
    s.compareDeclarations Batch.sample[0] Batch.sample[2] = .lt ∧
    s.compareDeclarations Batch.sample[4] Batch.sample[2] = .lt ∧
    (s.ranks Batch.sample)[3]? = some 2 ∧ (s.sortedIndices Batch.sample)[2]? = some 3 := by
  intro s
  obtain ⟨_, htrans, _, hranks⟩ := compareDeclarations_ranks s
  have hn := Batch.valid_sample.indices
  have hfirst : s.compareDeclarations Batch.sample[4] Batch.sample[0] = .lt := by decide +kernel
  have hsecond : s.compareDeclarations Batch.sample[0] Batch.sample[2] = .lt := by decide +kernel
  obtain ⟨_, _, hinverse, hcount⟩ := hranks Batch.sample hn
  have hrank : (s.ranks Batch.sample)[3]? = some 2 :=
    (hcount 3 Batch.sample[3] rfl).trans (by decide +kernel)
  exact ⟨hn, hfirst, hsecond, htrans _ _ _ hfirst hsecond, hrank, (hinverse 3 2).mp hrank⟩

end Settings

end CalleeFirst
