import CalleeFirst.Batch
import Mathlib.Data.List.Nodup

/-! Which batches pass the check.

The check walks over a batch with the ids and the source indices that it has met.
`check_eq_ok_iff` says what that amounts to for the batch as a whole, and `Valid.perm`
that the order in which the declarations are met does not matter. -/
namespace CalleeFirst.Batch

/-- Ids and source indices are distinct, and what can be called has a name. -/
structure Valid (batch : List Declaration) : Prop where
  ids : (batch.map Declaration.id).Nodup
  indices : (batch.map Declaration.sourceIndex).Nodup
  names : ∀ d ∈ batch, d.callable = true → d.name ≠ ""

theorem valid_iff {batch : List Declaration} : Valid batch ↔
    (batch.map Declaration.id).Nodup ∧ (batch.map Declaration.sourceIndex).Nodup ∧
      ∀ d ∈ batch, d.callable = true → d.name ≠ "" :=
  ⟨fun h => ⟨h.ids, h.indices, h.names⟩, fun h => ⟨h.1, h.2.1, h.2.2⟩⟩

instance (batch : List Declaration) : Decidable (Valid batch) := decidable_of_iff' _ valid_iff

theorem valid_nil : Valid [] :=
  valid_iff.mpr ⟨List.nodup_nil, List.nodup_nil, fun _ h => absurd h List.not_mem_nil⟩

theorem valid_cons {d : Declaration} {rest : List Declaration} : Valid (d :: rest) ↔
    (d.callable = true → d.name ≠ "") ∧ (∀ e ∈ rest, e.id ≠ d.id) ∧
      (∀ e ∈ rest, e.sourceIndex ≠ d.sourceIndex) ∧ Valid rest := by
  simp only [valid_iff, List.map_cons, List.nodup_cons, List.mem_map, not_exists, not_and,
    List.forall_mem_cons]
  tauto

theorem Valid.perm {batch other : List Declaration} (h : Valid batch) (hp : batch.Perm other) :
    Valid other where
  ids := (hp.map _).nodup_iff.mp h.ids
  indices := (hp.map _).nodup_iff.mp h.indices
  names d hd := h.names d (hp.symm.subset hd)

theorem Valid.nodup {batch : List Declaration} (h : Valid batch) : batch.Nodup :=
  .of_map Declaration.id h.ids

/-- The check of a rest of a batch, after the ids and source indices met before it. -/
theorem checkAfter_eq_ok_iff (ids indices : List Nat) (batch : List Declaration) :
    checkAfter ids indices batch = .ok () ↔ Valid batch ∧
      (∀ d ∈ batch, d.id ∉ ids) ∧ ∀ d ∈ batch, d.sourceIndex ∉ indices := by
  induction batch generalizing ids indices with
  | nil => simp [checkAfter, valid_nil]
  | cons d rest ih =>
    simp only [checkAfter, valid_cons, List.forall_mem_cons]
    by_cases hid : d.id ∈ ids
    · simp [hid]
    by_cases hindex : d.sourceIndex ∈ indices
    · simp [hid, hindex]
    by_cases hname : d.callable = true ∧ d.name = ""
    · simp [hid, hindex, hname]
    have hnamed : (d.callable && d.name.isEmpty) = false := by simpa using hname
    rw [if_neg hid, if_neg hindex, hnamed, if_neg Bool.false_ne_true, ih]
    simp only [List.mem_cons, not_or]
    grind

theorem check_eq_ok_iff (batch : List Declaration) : check batch = .ok () ↔ Valid batch := by
  simp [check, checkAfter_eq_ok_iff]

/-- A caller of a cycle, the cycle, what the cycle calls, and a constant. -/
def sample : List Declaration :=
  [{ id := 10, kind := .method, name := "main", visibilityRank := 0, parameters := [],
     sourceIndex := 4, calls := NameSet.ofList ["even"] },
   { id := 11, kind := .method, name := "even", visibilityRank := 1, parameters := ["u32"],
     sourceIndex := 3, calls := NameSet.ofList ["odd"] },
   { id := 12, kind := .other, name := "LIMIT", visibilityRank := Declaration.anchoredRank,
     parameters := [], sourceIndex := 2, calls := ∅ },
   { id := 13, kind := .method, name := "odd", visibilityRank := 0, parameters := ["u32"],
     sourceIndex := 7, calls := NameSet.ofList ["even", "halve"] },
   { id := 14, kind := .method, name := "halve", visibilityRank := 0, parameters := ["u32"],
     sourceIndex := 1, calls := ∅ }]

theorem valid_sample : Valid sample := by decide +kernel

end CalleeFirst.Batch
