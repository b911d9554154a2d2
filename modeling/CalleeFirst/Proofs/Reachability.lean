import CalleeFirst.Condensation
import Mathlib.Logic.Relation

/-! Who calls whom, and who reaches whom.

`CallGraph.mem_edges_ofBatch`: the edges of a batch's call graph are the calls by name
between its callable declarations (`Batch.Calls`), no more and no fewer.

`CallGraph.testBit_reachability`: the rows computed pivot by pivot say who reaches whom along a
path of at least one call. After the pivots below `k` a row holds only nodes that can be
reached, and whoever reaches a pivot and is carried on from there has been joined: the
first is soundness, the second, once every node has been a pivot, is transitivity. -/
namespace CalleeFirst

/-- `b` can be called by its name, and `a` calls that name. -/
def Declaration.Calls (a b : Declaration) : Prop :=
  a.callable = true ∧ b.callable = true ∧ b.name ∈ a.calls

/-- A relation between two declarations that are both there. -/
def Both (rel : Declaration → Declaration → Prop) (x y : Option Declaration) : Prop :=
  ∃ a ∈ x, ∃ b ∈ y, rel a b

theorem Both.asymm {rel : Declaration → Declaration → Prop} (hasymm : ∀ a b, rel a b → ¬ rel b a)
    {x y : Option Declaration} (h : Both rel x y) : ¬ Both rel y x := by
  rintro ⟨b', hb', a', ha', hba⟩
  obtain ⟨a, ha, b, hb, hab⟩ := h
  obtain rfl : a = a' := Option.mem_unique ha ha'
  obtain rfl : b = b' := Option.mem_unique hb hb'
  exact hasymm a b hab hba

theorem Both.trans {rel : Declaration → Declaration → Prop}
    (htrans : ∀ a b c, rel a b → rel b c → rel a c) {x y z : Option Declaration}
    (hxy : Both rel x y) (hyz : Both rel y z) : Both rel x z := by
  obtain ⟨a, ha, b, hb, hab⟩ := hxy
  obtain ⟨b', hb', c, hc, hbc⟩ := hyz
  obtain rfl : b = b' := Option.mem_unique hb hb'
  exact ⟨a, ha, c, hc, htrans a b c hab hbc⟩

theorem Both.lt {rel : Declaration → Declaration → Prop} {batch : List Declaration} {i j : Nat}
    (h : Both rel batch[i]? batch[j]?) : i < batch.length ∧ j < batch.length := by
  obtain ⟨a, ha, b, hb, _⟩ := h
  exact ⟨(List.getElem?_eq_some_iff.mp ha).1, (List.getElem?_eq_some_iff.mp hb).1⟩

/-- Declaration `i` of a batch calls declaration `j`. -/
def Batch.Calls (batch : List Declaration) (i j : Nat) : Prop :=
  Both Declaration.Calls batch[i]? batch[j]?

theorem Batch.Calls.lt {batch : List Declaration} {i j : Nat} (h : Batch.Calls batch i j) :
    i < batch.length ∧ j < batch.length :=
  Both.lt h

/-- A path of at least one call between declarations of a batch. -/
def Batch.Reaches (batch : List Declaration) : Nat → Nat → Prop :=
  Relation.TransGen (Batch.Calls batch)

namespace CallGraph

def Calls (g : CallGraph) (i j : Nat) : Prop := Edge.mk i j ∈ g.edges

/-- A path of at least one call. -/
def Reaches (g : CallGraph) : Nat → Nat → Prop := Relation.TransGen g.Calls

/-- Edges join nodes of the graph. -/
def Inside (g : CallGraph) : Prop := ∀ i j, g.Calls i j → i < g.nodes ∧ j < g.nodes

/-! ### The edges of a batch -/

theorem mem_targets {batch : List Declaration} {name : String} {j : Nat} :
    j ∈ targets batch name ↔ ∃ b ∈ batch[j]?, b.callable = true ∧ b.name = name := by
  unfold targets
  rw [List.mem_filterMap]
  constructor
  · rintro ⟨⟨b, index⟩, hb, h⟩
    rw [List.mem_zipIdx_iff_getElem?] at hb
    simp only [Option.ite_none_right_eq_some, Bool.and_eq_true, beq_iff_eq, Option.some.injEq] at h
    obtain ⟨hb', rfl⟩ := h
    exact ⟨b, hb, hb'⟩
  · rintro ⟨b, hb, hcallable, hname⟩
    exact ⟨(b, j), List.mem_zipIdx_iff_getElem?.mpr hb, by simp [hcallable, hname]⟩

theorem mem_callsOf {batch : List Declaration} {a : Declaration} {j : Nat} :
    j ∈ callsOf batch a ↔ ∃ b ∈ batch[j]?, a.Calls b := by
  unfold callsOf
  split
  · rename_i hcallable
    simp only [List.mem_flatMap, mem_targets]
    constructor
    · rintro ⟨name, hname, b, hb, hcallable', rfl⟩
      exact ⟨b, hb, hcallable, hcallable', hname⟩
    · rintro ⟨b, hb, _, hcallable', hname⟩
      exact ⟨b.name, hname, b, hb, hcallable', rfl⟩
  · rename_i hcallable
    refine ⟨fun h => absurd h List.not_mem_nil, ?_⟩
    rintro ⟨b, _, hcallable', _⟩
    exact absurd hcallable' hcallable

theorem mem_edges_ofBatch {batch : List Declaration} {i j : Nat} :
    (ofBatch batch).Calls i j ↔ Batch.Calls batch i j := by
  unfold Calls ofBatch
  simp only [List.mem_flatMap, List.mem_map, Edge.mk.injEq]
  constructor
  · rintro ⟨⟨a, caller⟩, ha, callee, hcallee, rfl, rfl⟩
    exact ⟨a, List.mem_zipIdx_iff_getElem?.mp ha, mem_callsOf.mp hcallee⟩
  · rintro ⟨a, ha, hb⟩
    exact ⟨(a, i), List.mem_zipIdx_iff_getElem?.mpr ha, j, mem_callsOf.mpr hb, rfl, rfl⟩

theorem inside_ofBatch (batch : List Declaration) : (ofBatch batch).Inside :=
  fun _ _ h => (mem_edges_ofBatch.mp h).lt

theorem Reaches.lt {g : CallGraph} (hg : g.Inside) {i j : Nat} (h : g.Reaches i j) :
    i < g.nodes ∧ j < g.nodes := by
  induction h with
  | single h => exact hg _ _ h
  | tail _ h ih => exact ⟨ih.1, (hg _ _ h).2⟩

/-! ### Rows of bits -/

/-- Marking one more edge sets its bit and no other. -/
theorem testBit_modify {rows : Array Nat} {e : Edge} (he : e.caller < rows.size) (i j : Nat) :
    ((rows.modify e.caller (· ||| (1 <<< e.callee))).getD i 0).testBit j = true ↔
      (rows.getD i 0).testBit j = true ∨ e = ⟨i, j⟩ := by
  rw [Array.getD_eq_getD_getElem?, Array.getD_eq_getD_getElem?, Array.getElem?_modify]
  by_cases hi : e.caller = i
  · subst hi
    rw [if_pos rfl, Array.getElem?_eq_getElem he, Option.map_some, Option.getD_some,
      Option.getD_some, Nat.testBit_or, Nat.one_shiftLeft, Nat.testBit_two_pow, Bool.or_eq_true,
      decide_eq_true_eq]
    refine or_congr_right ⟨fun h => h ▸ rfl, fun h => (Edge.mk.inj h).2⟩
  · rw [if_neg hi]
    refine ⟨.inl, fun h => h.resolve_right fun heq => hi ?_⟩
    rw [heq]

theorem testBit_marked (edges : List Edge) {rows : Array Nat}
    (h : ∀ e ∈ edges, e.caller < rows.size) (i j : Nat) :
    ((edges.foldl (fun rows e => rows.modify e.caller (· ||| (1 <<< e.callee))) rows).getD
        i 0).testBit j = true ↔
      (rows.getD i 0).testBit j = true ∨ ⟨i, j⟩ ∈ edges := by
  induction edges generalizing rows with
  | nil => simp
  | cons e rest ih =>
    have he := h e (List.mem_cons_self ..)
    have hrest : ∀ e' ∈ rest, e'.caller < (rows.modify e.caller (· ||| (1 <<< e.callee))).size := by
      intro e' he'
      rw [Array.size_modify]
      exact h e' (List.mem_cons_of_mem e he')
    rw [List.foldl_cons, ih hrest, testBit_modify he, List.mem_cons, or_assoc]
    exact or_congr_right (or_congr_left eq_comm)

theorem testBit_adjacency {g : CallGraph} (hg : g.Inside) (i j : Nat) :
    (g.adjacency.getD i 0).testBit j = true ↔ g.Calls i j := by
  have hrows : ∀ e ∈ g.edges, e.caller < (Array.replicate g.nodes 0).size := by
    intro e he
    rw [Array.size_replicate]
    exact (hg e.caller e.callee he).1
  have hzero : ((Array.replicate g.nodes 0).getD i 0).testBit j = false := by
    rw [Array.getD_eq_getD_getElem?, Array.getElem?_replicate]
    split <;> exact Nat.zero_testBit j
  have hmarked := testBit_marked g.edges hrows i j
  rw [hzero, Array.getD_eq_getD_getElem?, ← Array.getElem?_toList] at hmarked
  simpa [adjacency, Calls] using hmarked

/-- A pivot carries on whoever reaches it. -/
theorem testBit_admitPivot (rows : List Nat) (pivot i j : Nat) :
    ((admitPivot rows pivot).getD i 0).testBit j = true ↔
      (rows.getD i 0).testBit j = true ∨
        (rows.getD i 0).testBit pivot = true ∧ (rows.getD pivot 0).testBit j = true := by
  have hrow : rows.getD i 0 = rows[i]?.getD 0 := List.getD_eq_getElem?_getD
  rw [admitPivot, List.getD_eq_getElem?_getD, List.getElem?_map, hrow]
  cases rows[i]? with
  | none => simp
  | some row =>
    rw [Option.map_some, Option.getD_some, Option.getD_some]
    split
    · rename_i h
      rw [Nat.testBit_or, Bool.or_eq_true, h]
      simp
    · rename_i h
      simp [h]

/-! ### Paths through the pivots -/

/-- The rows after the pivots below `k`. -/
def rowsAfter (g : CallGraph) (k : Nat) : List Nat := (List.range k).foldl admitPivot g.adjacency

theorem rowsAfter_succ (g : CallGraph) (k : Nat) :
    g.rowsAfter (k + 1) = admitPivot (g.rowsAfter k) k := by
  rw [rowsAfter, List.range_succ, List.foldl_append]
  rfl

theorem rowsAfter_sound {g : CallGraph} (hg : g.Inside) (k : Nat) {i j : Nat}
    (h : ((g.rowsAfter k).getD i 0).testBit j = true) : g.Reaches i j := by
  induction k generalizing i j with
  | zero => exact .single ((testBit_adjacency hg i j).mp h)
  | succ k ih =>
    rw [rowsAfter_succ, testBit_admitPivot] at h
    rcases h with h | ⟨hik, hkj⟩
    · exact ih h
    · exact (ih hik).trans (ih hkj)

theorem rowsAfter_of_calls {g : CallGraph} (hg : g.Inside) (k : Nat) {i j : Nat} (h : g.Calls i j) :
    ((g.rowsAfter k).getD i 0).testBit j = true := by
  induction k with
  | zero => exact (testBit_adjacency hg i j).mpr h
  | succ k ih =>
    rw [rowsAfter_succ, testBit_admitPivot]
    exact .inl ih

/-- Whoever reaches a node that was a pivot reaches all that the node reaches. -/
theorem rowsAfter_trans (g : CallGraph) {k m i j : Nat} (hm : m < k)
    (him : ((g.rowsAfter k).getD i 0).testBit m = true)
    (hmj : ((g.rowsAfter k).getD m 0).testBit j = true) :
    ((g.rowsAfter k).getD i 0).testBit j = true := by
  induction k generalizing m i j with
  | zero => exact absurd hm (Nat.not_lt_zero m)
  | succ k ih =>
    rw [rowsAfter_succ, testBit_admitPivot] at him hmj ⊢
    rcases Nat.lt_succ_iff_lt_or_eq.mp hm with hm | rfl
    · rcases him with him | ⟨hik, hkm⟩
      · rcases hmj with hmj | ⟨hmk, hkj⟩
        · exact .inl (ih hm him hmj)
        · exact .inr ⟨ih hm him hmk, hkj⟩
      · rcases hmj with hmj | ⟨_, hkj⟩
        · exact .inr ⟨hik, ih hm hkm hmj⟩
        · exact .inr ⟨hik, hkj⟩
    -- The new pivot itself: both halves were there before it was admitted.
    · exact .inr ⟨him.elim id And.left, hmj.elim id And.right⟩

theorem testBit_reachability {g : CallGraph} (hg : g.Inside) (i j : Nat) :
    (g.reachability.getD i 0).testBit j = true ↔ g.Reaches i j := by
  refine ⟨rowsAfter_sound hg g.nodes, fun h => ?_⟩
  induction h with
  | single h => exact rowsAfter_of_calls hg g.nodes h
  | tail _ h ih =>
    exact rowsAfter_trans g (hg _ _ h).1 ih (rowsAfter_of_calls hg g.nodes h)

theorem calls_ofBatch (batch : List Declaration) : (ofBatch batch).Calls = Batch.Calls batch := by
  funext i j
  exact propext mem_edges_ofBatch

theorem reaches_ofBatch (batch : List Declaration) :
    (ofBatch batch).Reaches = Batch.Reaches batch := by
  rw [Reaches, calls_ofBatch]
  rfl

end CallGraph

theorem Batch.Reaches.lt {batch : List Declaration} {i j : Nat} (h : Batch.Reaches batch i j) :
    i < batch.length ∧ j < batch.length := by
  rw [← CallGraph.reaches_ofBatch] at h
  exact h.lt (CallGraph.inside_ofBatch batch)

instance (batch : List Declaration) (i j : Nat) : Decidable (Batch.Reaches batch i j) :=
  decidable_of_iff (((CallGraph.ofBatch batch).reachability.getD i 0).testBit j = true) <| by
    rw [CallGraph.testBit_reachability (CallGraph.inside_ofBatch batch), CallGraph.reaches_ofBatch]

end CalleeFirst
