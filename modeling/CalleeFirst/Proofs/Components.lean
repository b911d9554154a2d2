import CalleeFirst.Proofs.Arrangement
import CalleeFirst.Proofs.Reachability

/-! What a condensation says of its graph.

`Condensation.Describes` collects it, and says nothing about how components are numbered: nodes
share a component exactly when they are one node or reach each other, a component
depends on the other components that its members call, and dependents are the
converse of dependencies. `describes_ofGraph`: what is computed from a graph describes it.

`Describes.acyclic`: no component depends on itself, directly or through others, since the
members along such a way round would have been one component.

`ofGraph_condenses` says all of it for a batch, in terms of its declarations and their calls. -/
namespace CalleeFirst

namespace Condensation

def members (c : Condensation) (k : Nat) : List Nat :=
  (c.components[k]?.map Component.members).getD []

def isCyclic (c : Condensation) (k : Nat) : Bool :=
  (c.components[k]?.map Component.cyclic).getD false

def dependencies (c : Condensation) (k : Nat) : List Nat :=
  (c.components[k]?.map Component.dependencies).getD []

def dependents (c : Condensation) (k : Nat) : List Nat :=
  (c.components[k]?.map Component.dependents).getD []

/-- Depending, directly or through others. -/
def DependsOn (c : Condensation) : Nat → Nat → Prop :=
  Relation.TransGen fun k d => k < c.size ∧ d ∈ c.dependencies k

structure Describes (c : Condensation) (g : CallGraph) : Prop where
  inside : g.Inside
  componentOf_lt : ∀ i < g.nodes, c.componentOf i < c.size
  componentOf_eq_iff : ∀ i < g.nodes, ∀ j < g.nodes,
    c.componentOf i = c.componentOf j ↔ Together g.Reaches i j
  mem_members : ∀ k < c.size, ∀ i, i ∈ c.members k ↔ i < g.nodes ∧ c.componentOf i = k
  members_ne_nil : ∀ k < c.size, c.members k ≠ []
  members_nodup : ∀ k < c.size, (c.members k).Nodup
  isCyclic_iff : ∀ k < c.size, c.isCyclic k = true ↔ ∃ i ∈ c.members k, g.Reaches i i
  mem_dependencies : ∀ k < c.size, ∀ d, d ∈ c.dependencies k ↔
    d ≠ k ∧ ∃ i j, g.Calls i j ∧ c.componentOf i = k ∧ c.componentOf j = d
  dependencies_nodup : ∀ k < c.size, (c.dependencies k).Nodup
  mem_dependents : ∀ k < c.size, ∀ d < c.size, k ∈ c.dependents d ↔ d ∈ c.dependencies k
  dependents_nodup : ∀ d < c.size, (c.dependents d).Nodup
  dependents_lt : ∀ d < c.size, ∀ k ∈ c.dependents d, k < c.size

/-! ### Leaders -/

section Leader
variable {g : CallGraph}

theorem testBit_rows (hg : g.Inside) (i j : Nat) :
    (g.reachability.toArray.getD i 0).testBit j = true ↔ g.Reaches i j := by
  rw [← CallGraph.testBit_reachability hg, Array.getD_eq_getD_getElem?, List.getElem?_toArray,
    List.getD_eq_getElem?_getD]

/-- The leader of a node is the smallest node of its circle. -/
theorem leader_spec (hg : g.Inside) (i : Nat) :
    leader g.reachability.toArray i ≤ i ∧
      Together g.Reaches i (leader g.reachability.toArray i) ∧
      ∀ j < leader g.reachability.toArray i, ¬ Together g.Reaches i j := by
  have hbits : ∀ j, (((g.reachability.toArray.getD i 0).testBit j &&
      (g.reachability.toArray.getD j 0).testBit i) = true) ↔ g.Reaches i j ∧ g.Reaches j i := by
    intro j
    rw [Bool.and_eq_true, testBit_rows hg, testBit_rows hg]
  cases hfind : (List.range i).find? fun other =>
      (g.reachability.toArray.getD i 0).testBit other &&
        (g.reachability.toArray.getD other 0).testBit i with
  | none =>
    have hleader : leader g.reachability.toArray i = i := by
      simp only [leader, hfind, Option.getD_none]
    rw [hleader]
    refine ⟨Nat.le_refl i, .inl rfl, fun j hj => ?_⟩
    have hnot := List.find?_eq_none.mp hfind j (List.mem_range.mpr hj)
    rw [hbits] at hnot
    rintro (rfl | htogether)
    · exact absurd hj (Nat.lt_irrefl i)
    · exact hnot htogether
  | some m =>
    obtain ⟨hm, hmi, hfirst⟩ := List.find?_range_eq_some.mp hfind
    rw [hbits] at hm
    have hmi := List.mem_range.mp hmi
    have hleader : leader g.reachability.toArray i = m := by
      simp only [leader, hfind, Option.getD_some]
    rw [hleader]
    refine ⟨Nat.le_of_lt hmi, .inr hm, fun j hj => ?_⟩
    have hnot := hfirst j hj
    rw [Bool.not_eq_true', Bool.eq_false_iff, Ne, hbits] at hnot
    rintro (rfl | htogether)
    · exact absurd (Nat.lt_trans hj hmi) (Nat.lt_irrefl i)
    · exact hnot htogether

theorem leader_le_of_together (hg : g.Inside) {i j : Nat} (h : Together g.Reaches i j) :
    leader g.reachability.toArray i ≤ j :=
  Nat.not_lt.mp fun hlt => (leader_spec hg i).2.2 j hlt h

theorem leader_eq_iff (hg : g.Inside) (i j : Nat) :
    leader g.reachability.toArray i = leader g.reachability.toArray j ↔ Together g.Reaches i j := by
  have hi := (leader_spec hg i).2.1
  have hj := (leader_spec hg j).2.1
  constructor
  · intro h
    rw [h] at hi
    exact hi.trans hj.symm
  · intro h
    exact Nat.le_antisymm (leader_le_of_together hg (h.trans hj))
      (leader_le_of_together hg (h.symm.trans hi))

theorem leader_leader (hg : g.Inside) (i : Nat) :
    leader g.reachability.toArray (leader g.reachability.toArray i) =
      leader g.reachability.toArray i :=
  (leader_eq_iff hg _ _).mpr (leader_spec hg i).2.1.symm

/-- The leaders of a graph, ascending. -/
def roots (g : CallGraph) : List Nat :=
  (List.range g.nodes).filter fun i => leader g.reachability.toArray i == i

theorem mem_roots {i : Nat} :
    i ∈ roots g ↔ i < g.nodes ∧ leader g.reachability.toArray i = i := by
  rw [roots, List.mem_filter, List.mem_range, beq_iff_eq]

theorem roots_nodup : (roots g).Nodup := List.nodup_range.filter _

theorem leader_mem_roots (hg : g.Inside) {i : Nat} (hi : i < g.nodes) :
    leader g.reachability.toArray i ∈ roots g :=
  mem_roots.mpr ⟨Nat.lt_of_le_of_lt (leader_spec hg i).1 hi, leader_leader hg i⟩

end Leader

/-! ### The components of a graph -/

section OfGraph
variable (g : CallGraph)

theorem getD_leaders {i : Nat} (hi : i < g.nodes) :
    ((List.range g.nodes).map (leader g.reachability.toArray)).getD i 0 =
      leader g.reachability.toArray i := by
  rw [List.getD_eq_getElem?_getD, List.getElem?_map, List.getElem?_range hi]
  rfl

theorem roots_eq : ((List.range g.nodes).filter fun i =>
    ((List.range g.nodes).map (leader g.reachability.toArray)).getD i 0 == i) = roots g := by
  refine List.filter_congr fun i hi => ?_
  rw [getD_leaders g (List.mem_range.mp hi)]

theorem size_ofGraph : (ofGraph g).size = (roots g).length := by
  rw [← roots_eq g]
  simp [size, ofGraph]

theorem componentOf_ofGraph {i : Nat} (hi : i < g.nodes) :
    (ofGraph g).componentOf i = (roots g).idxOf (leader g.reachability.toArray i) := by
  rw [← roots_eq g]
  simp [componentOf, ofGraph, hi]

/-- The calls between different components. -/
def links (c : Condensation) (g : CallGraph) : List (Nat × Nat) :=
  (g.edges.map fun e => (c.componentOf e.caller, c.componentOf e.callee)).filter
    fun link => link.1 != link.2

theorem getElem?_ofGraph {k : Nat} (hk : k < (ofGraph g).size) :
    (ofGraph g).components[k]? = some
      (let members := (List.range g.nodes).filter fun i => (ofGraph g).componentOf i == k
       let out := ((links (ofGraph g) g).filter fun link => link.1 == k).map Prod.snd
       let into := ((links (ofGraph g) g).filter fun link => link.2 == k).map Prod.fst
       { members
         cyclic := members.any fun i => (g.reachability.toArray.getD i 0).testBit i
         dependencies := (List.range (ofGraph g).size).filter out.contains
         dependents := (List.range (ofGraph g).size).filter into.contains }) := by
  have hsize := size_ofGraph g
  rw [hsize] at hk ⊢
  rw [← roots_eq g] at hk ⊢
  simp only [ofGraph, List.getElem?_map, List.getElem?_range hk, Option.map_some]
  rfl

theorem mem_links {c : Condensation} {a b : Nat} :
    (a, b) ∈ links c g ↔ a ≠ b ∧ ∃ i j, g.Calls i j ∧ c.componentOf i = a ∧
      c.componentOf j = b := by
  simp only [links, List.mem_filter, List.mem_map, Prod.mk.injEq, bne_iff_ne]
  constructor
  · rintro ⟨⟨e, he, ha, hb⟩, hne⟩
    exact ⟨hne, e.caller, e.callee, he, ha, hb⟩
  · rintro ⟨hne, i, j, hij, ha, hb⟩
    exact ⟨⟨⟨i, j⟩, hij, ha, hb⟩, hne⟩

theorem members_ofGraph {k : Nat} (hk : k < (ofGraph g).size) :
    (ofGraph g).members k = (List.range g.nodes).filter fun i =>
      (ofGraph g).componentOf i == k := by
  rw [members, getElem?_ofGraph g hk]
  rfl

theorem mem_dependencies_ofGraph {k d : Nat} (hk : k < (ofGraph g).size) :
    d ∈ (ofGraph g).dependencies k ↔ d < (ofGraph g).size ∧ (k, d) ∈ links (ofGraph g) g := by
  rw [dependencies, getElem?_ofGraph g hk]
  simp

theorem mem_dependents_ofGraph {k d : Nat} (hd : d < (ofGraph g).size) :
    k ∈ (ofGraph g).dependents d ↔ k < (ofGraph g).size ∧ (k, d) ∈ links (ofGraph g) g := by
  rw [dependents, getElem?_ofGraph g hd]
  simp

variable {g}

theorem componentOf_ofGraph_lt (hg : g.Inside) {i : Nat} (hi : i < g.nodes) :
    (ofGraph g).componentOf i < (ofGraph g).size := by
  rw [componentOf_ofGraph g hi, size_ofGraph]
  exact List.idxOf_lt_length_of_mem (leader_mem_roots hg hi)

theorem componentOf_ofGraph_eq_iff (hg : g.Inside) {i j : Nat} (hi : i < g.nodes)
    (hj : j < g.nodes) :
    (ofGraph g).componentOf i = (ofGraph g).componentOf j ↔ Together g.Reaches i j := by
  rw [componentOf_ofGraph g hi, componentOf_ofGraph g hj, ← leader_eq_iff hg]
  exact List.idxOf_inj (leader_mem_roots hg hi)

/-- The leader that gave a component its number is in it. -/
theorem exists_mem_ofGraph {k : Nat} (hk : k < (ofGraph g).size) :
    ∃ i < g.nodes, (ofGraph g).componentOf i = k := by
  rw [size_ofGraph] at hk
  obtain ⟨hlt, hleader⟩ := mem_roots.mp (List.getElem_mem hk)
  refine ⟨(roots g)[k], hlt, ?_⟩
  rw [componentOf_ofGraph g hlt, hleader]
  exact roots_nodup.idxOf_getElem k hk

theorem describes_ofGraph (hg : g.Inside) : (ofGraph g).Describes g where
  inside := hg
  componentOf_lt _ hi := componentOf_ofGraph_lt hg hi
  componentOf_eq_iff _ hi _ hj := componentOf_ofGraph_eq_iff hg hi hj
  mem_members k hk i := by
    rw [members_ofGraph g hk, List.mem_filter, List.mem_range, beq_iff_eq]
  members_ne_nil k hk := by
    obtain ⟨i, hi, hik⟩ := exists_mem_ofGraph hk
    rw [members_ofGraph g hk]
    exact List.ne_nil_of_mem (List.mem_filter.mpr ⟨List.mem_range.mpr hi, beq_iff_eq.mpr hik⟩)
  members_nodup k hk := by
    rw [members_ofGraph g hk]
    exact List.nodup_range.filter _
  isCyclic_iff k hk := by
    rw [isCyclic, members, getElem?_ofGraph g hk]
    simp only [Option.map_some, Option.getD_some, List.any_eq_true, testBit_rows hg]
  mem_dependencies k hk d := by
    rw [mem_dependencies_ofGraph g hk, mem_links]
    constructor
    · rintro ⟨_, hne, hcall⟩
      exact ⟨hne.symm, hcall⟩
    · rintro ⟨hne, i, j, hij, hi, hj⟩
      exact ⟨hj ▸ componentOf_ofGraph_lt hg (hg i j hij).2, hne.symm, i, j, hij, hi, hj⟩
  dependencies_nodup k hk := by
    rw [dependencies, getElem?_ofGraph g hk]
    exact List.nodup_range.filter _
  mem_dependents k hk d hd := by
    rw [mem_dependents_ofGraph g hd, mem_dependencies_ofGraph g hk]
    exact ⟨fun h => ⟨hd, h.2⟩, fun h => ⟨hk, h.2⟩⟩
  dependents_nodup d hd := by
    rw [dependents, getElem?_ofGraph g hd]
    exact List.nodup_range.filter _
  dependents_lt d hd k hk := ((mem_dependents_ofGraph g hd).mp hk).1

end OfGraph

/-! ### No way round -/

namespace Describes
variable {c : Condensation} {g : CallGraph}

theorem dependencies_lt (h : c.Describes g) {k d : Nat} (hk : k < c.size)
    (hd : d ∈ c.dependencies k) : d < c.size := by
  obtain ⟨_, i, j, hij, _, hj⟩ := (h.mem_dependencies k hk d).mp hd
  exact hj ▸ h.componentOf_lt j (h.inside i j hij).2

/-- Members of one component reach each other or are one node. -/
theorem together_members (h : c.Describes g) {k i j : Nat} (hk : k < c.size) (hi : i ∈ c.members k)
    (hj : j ∈ c.members k) : Together g.Reaches i j := by
  obtain ⟨hi, hik⟩ := (h.mem_members k hk i).mp hi
  obtain ⟨hj, hjk⟩ := (h.mem_members k hk j).mp hj
  exact (h.componentOf_eq_iff i hi j hj).mp (hik.trans hjk.symm)

/-- Every member of a component reaches every member of what it depends on. -/
theorem reaches_of_dependency (h : c.Describes g) {k d i j : Nat} (hk : k < c.size)
    (hd : d ∈ c.dependencies k) (hi : i ∈ c.members k) (hj : j ∈ c.members d) : g.Reaches i j := by
  have hdsize := h.dependencies_lt hk hd
  obtain ⟨_, x, y, hxy, hx, hy⟩ := (h.mem_dependencies k hk d).mp hd
  have hxk := (h.mem_members k hk x).mpr ⟨(h.inside x y hxy).1, hx⟩
  have hyd := (h.mem_members d hdsize y).mpr ⟨(h.inside x y hxy).2, hy⟩
  have hxj : g.Reaches x j := by
    rcases h.together_members hdsize hyd hj with rfl | hyj
    · exact .single hxy
    · exact .head hxy hyj.1
  rcases h.together_members hk hi hxk with rfl | hix
  · exact hxj
  · exact hix.1.trans hxj

theorem reaches_of_dependsOn (h : c.Describes g) {k d : Nat} (hkd : c.DependsOn k d) :
    ∀ i ∈ c.members k, ∀ j ∈ c.members d, g.Reaches i j := by
  induction hkd with
  | single hstep => exact fun i hi j hj => h.reaches_of_dependency hstep.1 hstep.2 hi hj
  | @tail m d _ hstep ih =>
    intro i hi j hj
    obtain ⟨x, hx⟩ := List.exists_mem_of_ne_nil _ (h.members_ne_nil m hstep.1)
    exact (ih i hi x hx).trans (h.reaches_of_dependency hstep.1 hstep.2 hx hj)

theorem acyclic (h : c.Describes g) (k : Nat) : ¬ c.DependsOn k k := by
  intro hround
  obtain ⟨d, ⟨hk, hd⟩, hback⟩ := Relation.TransGen.head'_iff.mp hround
  have hdsize := h.dependencies_lt hk hd
  obtain ⟨i, hi⟩ := List.exists_mem_of_ne_nil _ (h.members_ne_nil k hk)
  obtain ⟨j, hj⟩ := List.exists_mem_of_ne_nil _ (h.members_ne_nil d hdsize)
  have hij : g.Reaches i j := h.reaches_of_dependency hk hd hi hj
  have hdk : d ≠ k := ((h.mem_dependencies k hk d).mp hd).1
  have hji : g.Reaches j i := by
    rcases Relation.reflTransGen_iff_eq_or_transGen.mp hback with heq | hback
    · exact absurd heq.symm hdk
    · exact h.reaches_of_dependsOn hback j hj i hi
  obtain ⟨hi', hik⟩ := (h.mem_members k hk i).mp hi
  obtain ⟨hj', hjd⟩ := (h.mem_members d hdsize j).mp hj
  have hsame := (h.componentOf_eq_iff i hi' j hj').mpr (.inr ⟨hij, hji⟩)
  exact hdk (by rw [← hjd, ← hsame, hik])

end Describes

/-! ### The components of a batch -/

/-- Whoever reaches each other along any number of calls stays together. -/
theorem together_iff {α : Type} {calls : α → α → Prop} {a b : α} :
    Together (Relation.TransGen calls) a b ↔
      Relation.ReflTransGen calls a b ∧ Relation.ReflTransGen calls b a := by
  constructor
  · rintro (rfl | ⟨hab, hba⟩)
    · exact ⟨.refl, .refl⟩
    · exact ⟨hab.to_reflTransGen, hba.to_reflTransGen⟩
  · intro ⟨hab, hba⟩
    rcases Relation.reflTransGen_iff_eq_or_transGen.mp hab with heq | hab
    · exact .inl heq.symm
    · rcases Relation.reflTransGen_iff_eq_or_transGen.mp hba with heq | hba
      · exact .inl heq
      · exact .inr ⟨hab, hba⟩

/-- What the components of a batch have to be. -/
structure Condenses (c : Condensation) (batch : List Declaration) : Prop where
  partition : ∀ i < batch.length, ∃! k, k < c.size ∧ i ∈ c.members k
  nonempty : ∀ k < c.size, c.members k ≠ []
  nodup : ∀ k < c.size, (c.members k).Nodup ∧ (c.dependencies k).Nodup ∧ (c.dependents k).Nodup
  mem_members : ∀ k < c.size, ∀ i, i ∈ c.members k ↔ i < batch.length ∧ c.componentOf i = k
  componentOf_eq : ∀ i < batch.length, ∀ j < batch.length, c.componentOf i = c.componentOf j ↔
    Relation.ReflTransGen (Batch.Calls batch) i j ∧ Relation.ReflTransGen (Batch.Calls batch) j i
  dependencies : ∀ k < c.size, ∀ d, d ∈ c.dependencies k ↔
    d < c.size ∧ d ≠ k ∧ ∃ i ∈ c.members k, ∃ j ∈ c.members d, Batch.Calls batch i j
  dependents : ∀ d < c.size, ∀ k, k ∈ c.dependents d ↔ k < c.size ∧ d ∈ c.dependencies k
  cyclic : ∀ k < c.size, c.isCyclic k = true ↔ ∃ i ∈ c.members k, Batch.Reaches batch i i
  /-- More than one member, or a member that calls itself. -/
  cyclic_length : ∀ k < c.size, c.isCyclic k = true ↔
    1 < (c.members k).length ∨ ∃ i ∈ c.members k, Batch.Calls batch i i
  acyclic : ∀ k, ¬ c.DependsOn k k

namespace Describes
variable {c : Condensation} {g : CallGraph}

theorem existsUnique (h : c.Describes g) {i : Nat} (hi : i < g.nodes) :
    ∃! k, k < c.size ∧ i ∈ c.members k := by
  have hlt := h.componentOf_lt i hi
  refine ⟨c.componentOf i, ⟨hlt, (h.mem_members _ hlt i).mpr ⟨hi, rfl⟩⟩, ?_⟩
  intro k ⟨hk, hmem⟩
  exact ((h.mem_members k hk i).mp hmem).2.symm

theorem mem_dependencies_members (h : c.Describes g) {k d : Nat} (hk : k < c.size) :
    d ∈ c.dependencies k ↔ d < c.size ∧ d ≠ k ∧
      ∃ i ∈ c.members k, ∃ j ∈ c.members d, g.Calls i j := by
  constructor
  · intro hd
    have hdsize := h.dependencies_lt hk hd
    obtain ⟨hne, i, j, hij, hi, hj⟩ := (h.mem_dependencies k hk d).mp hd
    obtain ⟨hilt, hjlt⟩ := h.inside i j hij
    exact ⟨hdsize, hne, i, (h.mem_members k hk i).mpr ⟨hilt, hi⟩, j,
      (h.mem_members d hdsize j).mpr ⟨hjlt, hj⟩, hij⟩
  · intro ⟨hdsize, hne, i, hi, j, hj, hij⟩
    exact (h.mem_dependencies k hk d).mpr
      ⟨hne, i, j, hij, ((h.mem_members k hk i).mp hi).2, ((h.mem_members d hdsize j).mp hj).2⟩

/-- A way back to a member starts with a call of itself, or leads through another member. -/
theorem isCyclic_iff_length (h : c.Describes g) {k : Nat} (hk : k < c.size) :
    c.isCyclic k = true ↔ 1 < (c.members k).length ∨ ∃ i ∈ c.members k, g.Calls i i := by
  rw [h.isCyclic_iff k hk]
  constructor
  · intro ⟨i, hi, hround⟩
    obtain ⟨j, hij, hback⟩ := Relation.TransGen.head'_iff.mp hround
    rcases Relation.reflTransGen_iff_eq_or_transGen.mp hback with rfl | hback
    · exact .inr ⟨i, hi, hij⟩
    by_cases hsame : i = j
    · exact .inr ⟨i, hi, hsame ▸ hij⟩
    · obtain ⟨hilt, hik⟩ := (h.mem_members k hk i).mp hi
      have hjlt := (h.inside i j hij).2
      have hjk := (h.componentOf_eq_iff i hilt j hjlt).mpr (.inr ⟨.single hij, hback⟩)
      have hj := (h.mem_members k hk j).mpr ⟨hjlt, hjk ▸ hik⟩
      have hsub := List.subperm_of_subset (List.nodup_cons.mpr ⟨by simpa using hsame,
        List.nodup_singleton j⟩)
        (List.cons_subset.mpr ⟨hi, List.cons_subset.mpr ⟨hj, List.nil_subset _⟩⟩)
      exact .inl hsub.length_le
  · rintro (hmany | ⟨i, hi, hii⟩)
    · have hfirst := List.getElem_mem (Nat.zero_lt_of_lt hmany)
      rcases h.together_members hk hfirst (List.getElem_mem hmany) with heq | ⟨hthere, hback⟩
      · exact absurd ((h.members_nodup k hk).getElem_inj_iff.mp heq) Nat.zero_ne_one
      · exact ⟨_, hfirst, hthere.trans hback⟩
    · exact ⟨i, hi, .single hii⟩

end Describes

/-- **The components of any batch** are its circles of calls. -/
theorem ofGraph_condenses (batch : List Declaration) :
    (ofGraph (CallGraph.ofBatch batch)).Condenses batch := by
  have h := describes_ofGraph (CallGraph.inside_ofBatch batch)
  have hcalls := CallGraph.calls_ofBatch batch
  exact
    { partition i hi := h.existsUnique hi
      nonempty := h.members_ne_nil
      nodup k hk := ⟨h.members_nodup k hk, h.dependencies_nodup k hk, h.dependents_nodup k hk⟩
      mem_members := h.mem_members
      componentOf_eq i hi j hj := by
        rw [h.componentOf_eq_iff i hi j hj, CallGraph.reaches_ofBatch]
        exact together_iff
      dependencies k hk d := by rw [h.mem_dependencies_members hk, hcalls]
      dependents d hd k := by
        refine ⟨fun hk => ?_, fun ⟨hk, hdk⟩ => (h.mem_dependents k hk d hd).mpr hdk⟩
        have hlt := h.dependents_lt d hd k hk
        exact ⟨hlt, (h.mem_dependents k hlt d hd).mp hk⟩
      cyclic k hk := by rw [h.isCyclic_iff k hk, CallGraph.reaches_ofBatch]
      cyclic_length k hk := by rw [h.isCyclic_iff_length hk, hcalls]
      acyclic := h.acyclic }

end Condensation

end CalleeFirst
