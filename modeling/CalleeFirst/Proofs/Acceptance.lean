import CalleeFirst.Proofs.Remapping

/-! Which ranges and permutations are accepted.

A remap is refused for its permutation first, and then for the first slot that is reversed or
overlaps the slot in front of it. `refused`: what a refusal names is there in the input. The other
way round, only neighbours are compared, but that is enough (`inLine_slotsOf_iff`).

`byIndex` builds a remap with tables: members met are marked in one, and starts are written
into another. It has no answer if it ever looks behind the end of a table. `byIndex_eq`: it always
has one, which is the remap or the refusal. -/
namespace CalleeFirst.Remap

/-! ### Refusals -/

/-- A defect that ranges and a permutation have. -/
inductive HasDefect (ranges : List ByteRange) (permutation : List Nat) : Defect → Prop where
  | length (differs : permutation.length ≠ ranges.length) :
      HasDefect ranges permutation (.permutationLength permutation.length ranges.length)
  | entry {entry : Nat} (listed : entry ∈ permutation)
      (bad : ranges.length ≤ entry ∨ 1 < permutation.count entry) :
      HasDefect ranges permutation (.permutationEntry entry)
  | reversed {range : ByteRange} (listed : range ∈ ranges) (reversed : range.stop < range.start) :
      HasDefect ranges permutation (.reversedRange range)
  | overlapping {i j : Nat} {first second : ByteRange} (differ : i ≠ j)
      (first_at : ranges[i]? = some first)
      (second_at : ranges[j]? = some second)
      (overlap : second.start < first.stop ∧ first.start < second.stop) :
      HasDefect ranges permutation (.overlappingRanges first second)

theorem badEntry?_eq_some {n : Nat} {seen permutation : List Nat} {entry : Nat}
    (h : badEntry? n seen permutation = some entry) :
    entry ∈ permutation ∧ (n ≤ entry ∨ entry ∈ seen ∨ 1 < permutation.count entry) := by
  induction permutation generalizing seen with
  | nil => cases h
  | cons first rest ih =>
    unfold badEntry? at h
    split at h
    · next hbad =>
      obtain rfl := Option.some.inj h
      simp only [Bool.or_eq_true, decide_eq_true_eq] at hbad
      exact ⟨List.mem_cons_self, hbad.imp_right .inl⟩
    · obtain ⟨hmem, hbad⟩ := ih h
      refine ⟨List.mem_cons_of_mem first hmem, ?_⟩
      rcases hbad with hout | hseen | hcount
      · exact .inl hout
      · rcases List.mem_cons.mp hseen with rfl | hseen
        · refine .inr (.inr ?_)
          rw [List.count_cons_self]
          exact Nat.succ_lt_succ (List.count_pos_iff.mpr hmem)
        · exact .inr (.inl hseen)
      · exact .inr (.inr (Nat.lt_of_lt_of_le hcount List.count_le_count_cons))

/-- A slot that is refused is reversed, or starts inside of the one in front of it. -/
theorem slotDefect?_eq_some {before : Option ByteRange} {slots : List ByteRange} {defect : Defect}
    (h : slotDefect? before slots = some defect) :
    (∃ slot ∈ slots, slot.stop < slot.start ∧ defect = .reversedRange slot) ∨
    ∃ front previous slot rest, before.toList ++ slots = front ++ previous :: slot :: rest ∧
      slot.start ≤ slot.stop ∧ slot.start < previous.stop ∧
        defect = .overlappingRanges previous slot := by
  induction slots generalizing before with
  | nil => cases h
  | cons slot rest ih =>
    unfold slotDefect? at h
    split at h
    · next hreversed => exact .inl ⟨slot, List.mem_cons_self, hreversed, (Option.some.inj h).symm⟩
    next hforward =>
    have hlater (h : slotDefect? (some slot) rest = some defect) :
        (∃ later ∈ slot :: rest, later.stop < later.start ∧ defect = .reversedRange later) ∨
        ∃ front previous later rest',
          before.toList ++ slot :: rest = front ++ previous :: later :: rest' ∧
          later.start ≤ later.stop ∧ later.start < previous.stop ∧
            defect = .overlappingRanges previous later := by
      rcases ih h with ⟨later, hmem, hdefect⟩ | ⟨front, previous, later, rest', heq, hdefect⟩
      · exact .inl ⟨later, List.mem_cons_of_mem slot hmem, hdefect⟩
      · refine .inr ⟨before.toList ++ front, previous, later, rest', ?_, hdefect⟩
        rw [List.append_assoc, ← heq]
        rfl
    cases before with
    | none => exact hlater h
    | some previous =>
      dsimp only at h
      split at h
      · next hoverlap =>
        exact .inr ⟨[], previous, slot, rest, rfl, Nat.not_lt.mp hforward, hoverlap,
          (Option.some.inj h).symm⟩
      · exact hlater h

/-- Two slots, one behind the other, are the ranges of two members. -/
theorem exists_members {ranges front rest : List ByteRange} {previous slot : ByteRange}
    (h : slotsOf ranges = front ++ previous :: slot :: rest) :
    ∃ i j : Nat, i ≠ j ∧ ranges[i]? = some previous ∧ ranges[j]? = some slot := by
  have hperm : (sortedSlots ranges).Perm ranges.zipIdx := List.mergeSort_perm ..
  have hn : ((sortedSlots ranges).map Prod.snd).Nodup := by
    rw [(hperm.map Prod.snd).nodup_iff, List.zipIdx_map_snd]
    exact List.nodup_range'
  rw [slotsOf, List.map_eq_append_iff] at h
  obtain ⟨before, behind, hsorted, _, hbehind⟩ := h
  obtain ⟨⟨_, i⟩, later, rfl, rfl, hlater⟩ := List.map_eq_cons_iff.mp hbehind
  obtain ⟨⟨_, j⟩, last, rfl, rfl, _⟩ := List.map_eq_cons_iff.mp hlater
  have hget {range : ByteRange} {i : Nat} (hmem : (range, i) ∈ sortedSlots ranges) :
      ranges[i]? = some range :=
    List.mem_zipIdx_iff_getElem?.mp (hperm.subset hmem)
  refine ⟨i, j, ?_, hget (by simp [hsorted]), hget (by simp [hsorted])⟩
  rintro rfl
  simp [hsorted, List.nodup_append] at hn

theorem refused {ranges : List ByteRange} {permutation : List Nat} {defect : Defect}
    (h : ofPermutation ranges permutation = .error defect) :
    HasDefect ranges permutation defect := by
  rw [ofPermutation] at h
  split at h
  · next hlength =>
    obtain rfl := Except.error.inj h
    exact .length hlength
  split at h
  · next entry hentry =>
    obtain rfl := Except.error.inj h
    obtain ⟨hmem, hbad⟩ := badEntry?_eq_some hentry
    exact .entry hmem (hbad.imp_right fun hbad => hbad.resolve_left List.not_mem_nil)
  dsimp only at h
  split at h
  · next defect' hdefect =>
    obtain rfl := Except.error.inj h
    have hdefect : slotDefect? none (slotsOf ranges) = some defect' := hdefect
    rcases slotDefect?_eq_some hdefect with ⟨slot, hmem, hreversed, rfl⟩ | ⟨front, previous, slot,
      rest, heq, hforward, hoverlap, rfl⟩
    · exact .reversed ((slotsOf_perm ranges).subset hmem) hreversed
    · rw [Option.toList_none, List.nil_append] at heq
      have hsorted := heq ▸ slotsOf_sorted ranges
      have hprevious := (List.pairwise_cons.mp (List.pairwise_append.mp hsorted).2.1).1 slot
        List.mem_cons_self
      obtain ⟨i, j, hij, hi, hj⟩ := exists_members heq
      exact .overlapping hij hi hj ⟨hoverlap, by omega⟩
  · cases h

/-! ### Tables -/

/-- Marks the entries that are met; the first entry that no member has, or that is marked
already. -/
def unmarked? (n : Nat) : (marks : Array Bool) → List Nat → Option (Option Nat)
  | _, [] => some none
  | marks, entry :: rest =>
    if n ≤ entry then some (some entry)
    else do
      let marked ← marks[entry]?
      if marked then return some entry
      unmarked? n (marks.setIfInBounds entry true) rest

/-- What is wrong with the slots from slot `k` on; the slot in front is looked up. -/
def defectFrom? (slots : List ByteRange) : (k : Nat) → List ByteRange → Option (Option Defect)
  | _, [] => some none
  | k, slot :: rest =>
    if slot.stop < slot.start then some (some (.reversedRange slot))
    else if k = 0 then defectFrom? slots (k + 1) rest
    else do
      let previous ← slots[k - 1]?
      if slot.start < previous.stop then return some (.overlappingRanges previous slot)
      defectFrom? slots (k + 1) rest

/-- Writes into a table. -/
def writeAt (table : List Nat) (place value : Nat) : Option (List Nat) :=
  if place < table.length then some (table.set place value) else none

/-- Fills the slots from slot `k` on: the table of starts, and the shifts. -/
def fillFrom (ranges : List ByteRange) (permutation : List Nat) :
    (k : Nat) → (shift : Int) → (starts : List Nat) → List ByteRange → Option (List Nat × List Int)
  | _, shift, starts, [] => some (starts, [shift])
  | k, shift, starts, slot :: rest => do
    let member ← permutation[k]?
    let starts ← writeAt starts member (moveOffset slot.start shift)
    let placed ← ranges[member]?
    let next := signedWord (shift + (signedWord placed.length - signedWord slot.length))
    let (starts, shifts) ← fillFrom ranges permutation (k + 1) next starts rest
    return (starts, shift :: shifts)

/-- A remap with every member, slot and start looked up by its number; no answer at all if one of
the numbers is out of bounds. -/
def byIndex (ranges : List ByteRange) (permutation : List Nat) : Option (Except Defect Remap) :=
  if permutation.length ≠ ranges.length then
    some (.error (.permutationLength permutation.length ranges.length))
  else do
    match ← unmarked? ranges.length (Array.replicate ranges.length false) permutation with
    | some entry => return .error (.permutationEntry entry)
    | none =>
      let keyed ← (List.range ranges.length).mapM fun i => ranges[i]?.map (·, i)
      let owners := (keyed.mergeSort fun a b =>
        a.1.start < b.1.start || (a.1.start == b.1.start && a.1.stop ≤ b.1.stop)).map Prod.snd
      let slots ← owners.mapM fun i => ranges[i]?
      match ← defectFrom? slots 0 slots with
      | some defect => return .error defect
      | none =>
        let starts := List.replicate ranges.length 0
        let (newStart, shift) ← fillFrom ranges permutation 0 0 starts slots
        return .ok { slots, owners, newStart, shift }

theorem unmarked?_eq {n : Nat} {seen : List Nat} {marks : Array Bool}
    (hmarks : ∀ entry < n, marks[entry]? = some (decide (entry ∈ seen))) (permutation : List Nat) :
    unmarked? n marks permutation = some ( badEntry? n seen permutation) := by
  induction permutation generalizing seen marks with
  | nil => rfl
  | cons entry rest ih =>
    rw [unmarked?, badEntry?]
    by_cases hout : n ≤ entry
    · simp [hout]
    · by_cases hseen : entry ∈ seen
      · simp [hout, hmarks entry (Nat.lt_of_not_le hout), hseen]
      · have hnext : ∀ e < n, (marks.setIfInBounds entry true)[e]? =
            some (decide (e ∈ entry :: seen)) := by
          intro e he
          have hsize : e < marks.size := (Array.getElem?_eq_some_iff.mp (hmarks e he)).1
          rw [Array.getElem?_setIfInBounds]
          by_cases heq : entry = e
          · subst heq
            simp [hsize]
          · simp [heq, Ne.symm heq, hmarks e he]
        simp [hout, hmarks entry (Nat.lt_of_not_le hout), hseen, ih hnext]

theorem defectFrom?_eq {slots rest : List ByteRange} (done : List ByteRange)
    (h : slots = done ++ rest) :
    defectFrom? slots done.length rest = some (slotDefect? done.getLast? rest) := by
  induction rest generalizing done with
  | nil => rfl
  | cons slot rest ih =>
    have hnext := ih (done ++ [slot]) (by simpa using h)
    rw [List.length_append, List.length_singleton, List.getLast?_concat] at hnext
    unfold defectFrom? slotDefect?
    split
    · rfl
    · rw [hnext]
      rcases List.eq_nil_or_concat done with rfl | ⟨front, previous, rfl⟩
      · rfl
      · have hprevious : slots[front.length]? = some previous := by simp [h]
        simp only [List.concat_eq_append, List.length_append, List.length_singleton,
          Nat.add_one_ne_zero, if_false, Nat.add_sub_cancel, hprevious, List.getLast?_concat,
          Option.bind_eq_bind, Option.bind_some]
        split <;> rfl

theorem mapM_eq_some {α β : Type} {look : α → Option β} {places : List α} {found : List β}
    (h : places.map look = found.map some) : places.mapM look = some found := by
  induction places generalizing found with
  | nil =>
    obtain rfl := List.map_eq_nil_iff.mp h.symm
    rfl
  | cons place rest ih =>
    obtain ⟨first, later, rfl, hfirst, hlater⟩ := List.map_eq_cons_iff.mp h.symm
    rw [List.mapM_cons, ← hfirst, ih hlater.symm]
    rfl

/-- Every range is found under its index. -/
theorem mapM_getElem?_zipIdx (ranges : List ByteRange) :
    ((List.range ranges.length).mapM fun i => ranges[i]?.map (·, i)) = some ranges.zipIdx := by
  refine mapM_eq_some (List.ext_getElem (by simp) fun i hi _ => ?_)
  have hi : i < ranges.length := by simpa using hi
  simp [hi]

/-- The slots are the ranges of their owners. -/
theorem mapM_getElem?_owners (ranges : List ByteRange) :
    ((sortedSlots ranges).map Prod.snd).mapM (fun i => ranges[i]?) = some (slotsOf ranges) := by
  refine mapM_eq_some ?_
  rw [slotsOf, List.map_map, List.map_map]
  refine List.map_congr_left fun slot hslot => ?_
  exact List.mem_zipIdx_iff_getElem?.mp ((List.mergeSort_perm ..).subset hslot)

/-- A table with values written to the places of members, one after the other. -/
def written (table : List Nat) : (members values : List Nat) → List Nat
  | member :: members, value :: values => written (table.set member value) members values
  | _, _ => table

theorem getElem?_written {table members values : List Nat} (hn : members.Nodup)
    (hlength : members.length = values.length) (hlt : ∀ member ∈ members, member < table.length)
    (i : Nat) :
    (written table members values)[i]? =
      if i ∈ members then values[members.idxOf i]? else table[i]? := by
  induction members generalizing table values with
  | nil => rfl
  | cons member members ih =>
    cases values with
    | nil => exact absurd hlength (by simp)
    | cons value values =>
      obtain ⟨hnew, hn⟩ := List.nodup_cons.mp hn
      obtain ⟨hmember, hlt⟩ := List.forall_mem_cons.mp hlt
      rw [written, ih hn (by simpa using hlength) (by simpa using hlt)]
      by_cases hi : i = member
      · subst hi
        simp [hnew, hmember]
      · simp [hi, Ne.symm hi, List.idxOf_cons_ne members (Ne.symm hi)]

section
variable {ranges : List ByteRange} {permutation : List Nat}

/-- The length of a member's range. -/
def memberLength (ranges : List ByteRange) (member : Nat) : Nat :=
  (ranges[member]?.map ByteRange.length).getD 0

theorem length_layOut (shift : Int) {slots : List ByteRange} {lengths : List Nat}
    (h : slots.length = lengths.length) :
    (layOut shift slots lengths).1.length = lengths.length := by
  induction slots generalizing shift lengths with
  | nil =>
    obtain rfl := List.length_eq_zero_iff.mp h.symm
    rfl
  | cons slot slots ih =>
    cases lengths with
    | nil => exact absurd h (by simp)
    | cons length lengths =>
      rw [layOut_cons, List.length_cons, List.length_cons, ih _ (by simpa using h)]

theorem fillFrom_eq {rest : List Nat} {slots : List ByteRange} (done starts : List Nat)
    (shift : Int) (h : permutation = done ++ rest) (hlength : slots.length = rest.length)
    (hstarts : starts.length = ranges.length) (hlt : ∀ member ∈ rest, member < ranges.length) :
    fillFrom ranges permutation done.length shift starts slots =
      some (written starts rest (layOut shift slots (rest.map (memberLength ranges))).1,
        (layOut shift slots (rest.map (memberLength ranges))).2) := by
  induction slots generalizing rest done starts shift with
  | nil =>
    obtain rfl := List.length_eq_zero_iff.mp hlength.symm
    rfl
  | cons slot slots ih =>
    cases rest with
    | nil => exact absurd hlength (by simp)
    | cons member rest =>
      obtain ⟨hmember, hlt⟩ := List.forall_mem_cons.mp hlt
      have hget : permutation[done.length]? = some member := by simp [h]
      have hrange : ranges[member]? = some ranges[member] := List.getElem?_eq_getElem hmember
      have hwrite : writeAt starts member (moveOffset slot.start shift) =
          some (starts.set member (moveOffset slot.start shift)) := if_pos (hstarts ▸ hmember)
      have hmemberLength : memberLength ranges member = ranges[member].length := by
        rw [memberLength, hrange]
        rfl
      have hnext := ih (done ++ [member]) (starts.set member (moveOffset slot.start shift))
        (signedWord (shift + (signedWord ranges[member].length - signedWord slot.length)))
          (by simpa using h)
        (by simpa using hlength) (by rwa [List.length_set]) hlt
      rw [List.length_append, List.length_singleton] at hnext
      rw [List.map_cons, layOut_cons, written, hmemberLength]
      simp only [fillFrom, hget, hwrite, hrange, hnext, Option.bind_eq_bind, Option.bind_some]
      rfl

/-- The table that is filled slot by slot says of every member where it starts. -/
theorem written_replicate {starts : List Nat} (hperm : permutation.Perm (List.range ranges.length))
    (hlength : permutation.length = starts.length) :
    written (List.replicate ranges.length 0) permutation starts =
      (List.range ranges.length).map fun member => starts.getD (permutation.idxOf member) 0 := by
  have hlt : ∀ member ∈ permutation, member < (List.replicate ranges.length 0).length := by
    intro member hmember
    rw [List.length_replicate]
    exact List.mem_range.mp (hperm.subset hmember)
  refine List.ext_getElem? fun i => ?_
  rw [getElem?_written (hperm.nodup_iff.mpr List.nodup_range) hlength hlt]
  by_cases hi : i < ranges.length
  · have hmem : i ∈ permutation := hperm.symm.subset (List.mem_range.mpr hi)
    have hidx : permutation.idxOf i < starts.length := hlength ▸ List.idxOf_lt_length_of_mem hmem
    simp [hmem, hi, hidx]
  · have hmem : i ∉ permutation := fun hmem => hi (List.mem_range.mp (hperm.subset hmem))
    simp [hmem, hi]

/-- No lookup is out of bounds, whatever the ranges and the permutation are. -/
theorem byIndex_eq (ranges : List ByteRange) (permutation : List Nat) :
    byIndex ranges permutation = some (ofPermutation ranges permutation) := by
  have hmarks : ∀ entry < ranges.length,
      (Array.replicate ranges.length false)[entry]? = some (decide (entry ∈ ([] : List Nat))) := by
    intro entry hentry
    simp [hentry]
  have hmarked := unmarked?_eq hmarks permutation
  have hdefect : defectFrom? (slotsOf ranges) 0 (slotsOf ranges) =
      some (slotDefect? none (slotsOf ranges)) :=
    defectFrom?_eq [] rfl
  unfold byIndex ofPermutation
  by_cases hlength : permutation.length = ranges.length
  · rw [if_neg (not_not.mpr hlength), if_neg (not_not.mpr hlength), hmarked]
    cases hentry : badEntry? ranges.length [] permutation with
    | some entry => rfl
    | none =>
      have hperm : permutation.Perm (List.range ranges.length) :=
        perm_range_iff.mpr ⟨hlength, hentry⟩
      have hslots : (slotsOf ranges).length = permutation.length := by
        rw [(slotsOf_perm ranges).length_eq, hlength]
      have hfill := fillFrom_eq [] (List.replicate ranges.length 0) 0 rfl hslots
        List.length_replicate fun member hmember => List.mem_range.mp (hperm.subset hmember)
      rw [written_replicate hperm (by rw [length_layOut 0 (by simpa using hslots),
        List.length_map])] at hfill
      simp only [mapM_getElem?_zipIdx, ← sortedSlots.eq_1, mapM_getElem?_owners, hdefect,
        ← slotsOf.eq_1, Option.bind_eq_bind, Option.bind_some]
      cases slotDefect? none (slotsOf ranges) with
      | some defect => rfl
      | none =>
        simp only [List.length_nil, List.nil_append] at hfill
        simp only [hfill, Option.bind_some]
        rfl
  · rw [if_pos hlength, if_pos hlength]

end

/-! ### Acceptance -/

theorem apart_iff {ranges : List ByteRange} :
    Apart ranges ↔ (∀ range ∈ ranges, range.start ≤ range.stop) ∧
    ∀ (i j : Nat) (first second : ByteRange), i ≠ j → ranges[i]? = some first →
      ranges[j]? = some second →
      first.stop ≤ second.start ∨ second.stop ≤ first.start := by
  constructor
  · intro h
    refine ⟨h.forward, fun i j first second hij hi hj => ?_⟩
    obtain ⟨hilt, rfl⟩ := List.getElem?_eq_some_iff.mp hi
    obtain ⟨hjlt, rfl⟩ := List.getElem?_eq_some_iff.mp hj
    have hpairwise := List.pairwise_iff_getElem.mp h.pairwise
    rcases Nat.lt_or_gt_of_ne hij with hlt | hlt
    · exact hpairwise i j hilt hjlt hlt
    · exact (hpairwise j i hjlt hilt hlt).symm
  · rintro ⟨hforward, hapart⟩
    refine ⟨hforward, List.pairwise_iff_getElem.mpr fun i j hi hj hlt => ?_⟩
    exact hapart i j ranges[i] ranges[j] (Nat.ne_of_lt hlt) (List.getElem?_eq_getElem hi)
      (List.getElem?_eq_getElem hj)

theorem perm_range_iff_count {permutation : List Nat} {n : Nat} : permutation.Perm (List.range n) ↔
    permutation.length = n ∧ ∀ i < n, permutation.count i = 1 := by
  constructor
  · intro h
    refine ⟨by simpa using h.length_eq, fun i hi => ?_⟩
    rw [h.count_eq, List.count_eq_one_of_mem List.nodup_range (List.mem_range.mpr hi)]
  · rintro ⟨hlength, hcount⟩
    have hsub : (List.range n).Subperm permutation := List.nodup_range.subperm fun i hi => by
      rw [← List.count_pos_iff, hcount i (List.mem_range.mp hi)]
      exact Nat.one_pos
    exact (hsub.perm_of_length_le (by simp [hlength])).symm

/-- A remap is made exactly if the permutation lists every member once and the ranges are forward
and apart from each other. All else is refused, for a defect that is there, and no lookup on the way
is out of bounds. -/
theorem ofPermutation_accepts (ranges : List ByteRange) (permutation : List Nat) :
    ((∃ remap, ofPermutation ranges permutation = .ok remap) ↔
      permutation.length = ranges.length ∧ (∀ i < ranges.length, permutation.count i = 1) ∧
      (∀ range ∈ ranges, range.start ≤ range.stop) ∧
      ∀ (i j : Nat) (first second : ByteRange), i ≠ j → ranges[i]? = some first →
        ranges[j]? = some second →
        first.stop ≤ second.start ∨ second.stop ≤ first.start) ∧
    ((¬∃ remap, ofPermutation ranges permutation = .ok remap) →
      ∃ defect, ofPermutation ranges permutation = .error defect ∧
        HasDefect ranges permutation defect) ∧
    byIndex ranges permutation = some (ofPermutation ranges permutation) := by
  refine ⟨?_, fun hno => ?_, byIndex_eq ranges permutation⟩
  · rw [← and_assoc, ← perm_range_iff_count, ← apart_iff, ← inLine_slotsOf_iff]
    constructor
    · rintro ⟨remap, h⟩
      exact (ofPermutation_eq_ok_iff.mp h).1
    · intro h
      exact ⟨laidOut ranges permutation, ofPermutation_eq_ok_iff.mpr ⟨h, rfl⟩⟩
  · cases h : ofPermutation ranges permutation with
    | error defect => exact ⟨defect, rfl, refused h⟩
    | ok remap => exact absurd ⟨remap, h⟩ hno

end CalleeFirst.Remap
