import CalleeFirst.Proofs.Ordering

/-! When the order is the plain sort.

Let the comparison be a strict order of the items that keeps every circle together and puts what is
called before its callers outside the circle. Then of two circles one stands before the other as a
whole (`Arranged.before_of_leads`), and a circle that calls another is the later of the two. Needs
and preferences agree, so that neighbours in the arrangement are sorted, and with them all circles
(`Arranged.pairwise_before`).

`computeOrder_sorted`: the order of a batch is its plain sort exactly when the plain sort respects
the calls; so it is whenever there are none. -/
namespace CalleeFirst

section
variable {α : Type} {calls before : α → α → Prop} {batch : List α} {circles : List (Circle α)}

/-- A strict order of the items that calls have nothing against. -/
structure Agrees (calls before : α → α → Prop) (batch : List α) : Prop where
  total : ∀ a ∈ batch, ∀ b ∈ batch, a ≠ b → before a b ∨ before b a
  asymm : ∀ a b, before a b → ¬ before b a
  trans : ∀ a b c, before a b → before b c → before a c
  adjacent : ∀ a b c, before a b → before b c →
    Together (Reaches calls batch) a c → Together (Reaches calls batch) a b
  callees_first : ∀ a ∈ batch, ∀ b ∈ batch, calls a b → ¬ Together (Reaches calls batch) a b →
    before b a

theorem Circle.Leads.trans (htrans : ∀ a b c, before a b → before b c → before a c)
    {c d e : Circle α} (hcd : c.Leads before d) (hde : d.Leads before e) : c.Leads before e := by
  obtain ⟨x, hx, y, hy, hxy⟩ := hcd
  obtain ⟨y', hy', z, hz, hyz⟩ := hde
  obtain rfl : y = y' := Option.mem_unique hy hy'
  exact ⟨x, hx, z, hz, htrans x y z hxy hyz⟩

namespace Arranged

/-- The first member of a circle is the least. -/
theorem eq_or_before_of_head (h : Arranged calls before batch circles) {c : Circle α}
    (hc : c ∈ circles) {first a : α} (hfirst : first ∈ c.members.head?) (ha : a ∈ c.members) :
    a = first ∨ before first a := by
  have hsorted := h.sorted c hc
  obtain ⟨rest, hrest⟩ := List.head?_eq_some_iff.mp hfirst
  rw [hrest] at ha hsorted
  exact (List.mem_cons.mp ha).imp_right ((List.pairwise_cons.mp hsorted).1 a)

section
variable (h : Arranged calls before batch circles) (hn : batch.Nodup)
  (hagrees : Agrees calls before batch)
include h hn hagrees

/-- A circle whose first member leads stands in front as a whole. -/
theorem before_of_leads {c d : Circle α} (hc : c ∈ circles) (hd : d ∈ circles) (hne : c ≠ d)
    (hleads : c.Leads before d) {a b : α} (ha : a ∈ c.members) (hb : b ∈ d.members) :
    before a b := by
  obtain ⟨x, hx, y, hy, hxy⟩ := hleads
  have hbc : b ∉ c.members := fun hbc => hne (h.eq_of_mem hn hc hd hbc hb)
  have hxb : before x b := by
    rcases h.eq_or_before_of_head hd hy hb with rfl | hyb
    · exact hxy
    · exact hagrees.trans x y b hxy hyb
  have hab : a ≠ b := fun heq => hbc (heq ▸ ha)
  refine (hagrees.total a (h.mem_batch hc ha) b (h.mem_batch hd hb) hab).resolve_right ?_
  refine fun hba => hbc ?_
  -- Otherwise `b` would stand between two members of `c`.
  have hxc := List.mem_of_mem_head? hx
  have htogether := (h.together c hc x hxc a (h.mem_batch hc ha)).mp ha
  exact (h.together c hc x hxc b (h.mem_batch hd hb)).mpr (hagrees.adjacent x b a hxb hba htogether)

theorem leads_of_calls {c d : Circle α} (hc : c ∈ circles) (hd : d ∈ circles) (hne : c ≠ d)
    (hcalls : d.Calls calls c) : c.Leads before d := by
  obtain ⟨b, hb, a, ha, hba⟩ := hcalls
  obtain ⟨x, hx⟩ := Option.isSome_iff_exists.mp (List.isSome_head?.mpr (h.nonempty c hc))
  obtain ⟨y, hy⟩ := Option.isSome_iff_exists.mp (List.isSome_head?.mpr (h.nonempty d hd))
  have hxc := List.mem_of_mem_head? hx
  have hyd := List.mem_of_mem_head? hy
  have hxy : x ≠ y := fun heq => hne (h.eq_of_mem hn hc hd hxc (heq ▸ hyd))
  rcases hagrees.total x (h.mem_batch hc hxc) y (h.mem_batch hd hyd) hxy with hlt | hgt
  · exact ⟨x, hx, y, hy, hlt⟩
  · have hapart : ¬ Together (Reaches calls batch) b a := fun htogether => hne <|
      h.eq_of_mem hn hc hd ha ((h.together d hd b hb a (h.mem_batch hc ha)).mpr htogether)
    have hab := hagrees.callees_first b (h.mem_batch hd hb) a (h.mem_batch hc ha) hba hapart
    have hba := h.before_of_leads hn hagrees hd hc (Ne.symm hne) ⟨y, hy, x, hx, hgt⟩ hb ha
    exact absurd hba (hagrees.asymm a b hab)

theorem pairwise_before : (circles.flatMap Circle.members).Pairwise before := by
  have hnodup := h.circles_nodup hn
  have htrans : Trans (Circle.Leads before) (Circle.Leads before) (Circle.Leads before) :=
    ⟨Circle.Leads.trans hagrees.trans⟩
  have hchain : circles.IsChain (Circle.Leads before) := h.greedy.isChain hnodup
    (fun c hc d hd => h.leads_of_calls hn hagrees hc hd) fun _ _ _ _ => id
  refine List.pairwise_flatMap.mpr ⟨h.sorted, (hchain.pairwise.and hnodup).imp_of_mem ?_⟩
  intro c d hc hd hcd a ha b hb
  exact h.before_of_leads hn hagrees hc hd hcd.2 hcd.1 ha hb

end

end Arranged

end

namespace Batch

/-- What reaches each other stands together, and what is called comes before all callers that
it does not reach. -/
structure RespectsCalls (batch : List Declaration) (order : List Nat) : Prop where
  adjacent : ∀ i < batch.length, ∃ front segment back, order = front ++ segment ++ back ∧
    ∀ j, j ∈ segment ↔ Together (Reaches batch) i j
  callees_first : ∀ i j, Calls batch i j → ¬ Together (Reaches batch) i j →
    order.idxOf j < order.idxOf i

variable (s : Settings) {batch : List Declaration}

theorem before_total (hv : Valid batch) {i j : Nat} (hi : i < batch.length) (hj : j < batch.length)
    (hne : i ≠ j) : Before s batch i j ∨ Before s batch j i := by
  have hranks : s.rankOf batch i ≠ s.rankOf batch j := fun h => hne (s.rankOf_inj batch i hi j hj h)
  exact (Nat.lt_or_gt_of_ne hranks).imp (s.rankOf_lt_iff batch hv.indices hi hj).mp
    (s.rankOf_lt_iff batch hv.indices hj hi).mp

/-- What stands between two members of a segment is in the segment. -/
theorem RespectsCalls.between (hv : Valid batch) (h : RespectsCalls batch (s.sortedIndices batch))
    {i j k : Nat} (hij : Before s batch i j) (hjk : Before s batch j k)
    (hik : Together (Reaches batch) i k) : Together (Reaches batch) i j := by
  obtain ⟨front, segment, back, hsplit, hmem⟩ := h.adjacent i (Both.lt hij).1
  have hsorted := s.sortedIndices_sorted batch hv.indices
  have hj := s.mem_sortedIndices batch (Both.lt hij).2
  rw [hsplit] at hsorted hj
  obtain ⟨hfront, _, hback⟩ := List.pairwise_append.mp hsorted
  have hi : i ∈ segment := (hmem i).mpr (.inl rfl)
  have hk : k ∈ segment := (hmem k).mpr hik
  rcases List.mem_append.mp hj with hj | hj
  · rcases List.mem_append.mp hj with hj | hj
    · have hji := (List.pairwise_append.mp hfront).2.2 j hj i hi
      exact absurd hji (Both.asymm Settings.Less.asymm hij)
    · exact (hmem j).mp hj
  · have hkj := hback k (List.mem_append_right front hk) j hj
    exact absurd hkj (Both.asymm Settings.Less.asymm hjk)

theorem RespectsCalls.agrees (hv : Valid batch) (h : RespectsCalls batch (s.sortedIndices batch)) :
    Agrees (Calls batch) (Before s batch) (List.range batch.length) where
  total i hi j hj := before_total s hv (List.mem_range.mp hi) (List.mem_range.mp hj)
  asymm _ _ := Both.asymm Settings.Less.asymm
  trans _ _ _ := Both.trans fun _ _ _ => Std.TransCmp.lt_trans
  adjacent i j k hij hjk := by
    rw [reaches_range]
    exact h.between s hv hij hjk
  callees_first i hi j _ hcalls hapart := by
    rw [reaches_range] at hapart
    have hi := s.mem_sortedIndices batch (List.mem_range.mp hi)
    exact rel_of_idxOf_lt (s.sortedIndices_sorted batch hv.indices) hi
      (h.callees_first i j hcalls hapart)

/-- Without calls there is nothing to respect. -/
theorem respectsCalls_of_no_calls (hnone : ∀ i j, ¬ Calls batch i j) :
    RespectsCalls batch (s.sortedIndices batch) where
  adjacent i hi := by
    obtain ⟨front, back, hsplit⟩ := List.append_of_mem (s.mem_sortedIndices batch hi)
    refine ⟨front, [i], back, by rw [hsplit, List.append_assoc]; rfl, fun j => ?_⟩
    rw [List.mem_singleton]
    refine ⟨fun heq => .inl heq.symm, ?_⟩
    rintro (heq | ⟨hij, _⟩)
    · exact heq.symm
    · obtain ⟨k, hik, _⟩ := Relation.TransGen.head'_iff.mp hij
      exact absurd hik (hnone i k)
  callees_first i j hij := absurd hij (hnone i j)

end Batch

variable (s : Settings) {batch : List Declaration}

theorem ordering_respectsCalls (hv : Batch.Valid batch) :
    Batch.RespectsCalls batch (ordering s batch) where
  adjacent i hi := by
    obtain ⟨front, segment, back, hsplit, hmem, _⟩ := ordering_segment s hv hi
    exact ⟨front, segment, back, hsplit, hmem⟩
  callees_first i j hij hapart := by
    have hreaches : Batch.Reaches batch i j := .single hij
    exact idxOf_ordering_lt s hv hreaches fun hback => hapart (.inr ⟨hreaches, hback⟩)

/-- A batch is sorted in one way only. -/
theorem eq_sortedIndices (hv : Batch.Valid batch) {order : List Nat}
    (hperm : order.Perm (List.range batch.length))
    (hsorted : order.Pairwise (Batch.Before s batch)) :
    order = s.sortedIndices batch := by
  refine List.Perm.eq_of_pairwise (fun i j _ _ hij hji => ?_) hsorted
    (s.sortedIndices_sorted batch hv.indices) (hperm.trans (s.sortedIndices_perm batch).symm)
  exact absurd hji (Both.asymm Settings.Less.asymm hij)

theorem ordering_eq_sortedIndices (hv : Batch.Valid batch)
    (h : Batch.RespectsCalls batch (s.sortedIndices batch)) :
    ordering s batch = s.sortedIndices batch := by
  have hsorted := (orderedGroups_arranged s hv).pairwise_before List.nodup_range (h.agrees s hv)
  rw [flatMap_circle_members] at hsorted
  exact eq_sortedIndices s hv (ordering_perm s hv) hsorted

/-- **The order is the plain sort** exactly when the plain sort respects the calls, and so it is
when there are none. -/
theorem computeOrder_sorted (hv : Batch.Valid batch) :
    (((computeOrder Probe.never s batch).outcome 0).1 = .ok (s.sortedIndices batch) ↔
      Batch.RespectsCalls batch (s.sortedIndices batch)) ∧
    ((∀ i j, ¬ Batch.Calls batch i j) → Batch.RespectsCalls batch (s.sortedIndices batch) ∧
      ((computeOrder Probe.never s batch).outcome 0).1 = .ok (s.sortedIndices batch)) := by
  have hiff : ((computeOrder Probe.never s batch).outcome 0).1 = .ok (s.sortedIndices batch) ↔
      Batch.RespectsCalls batch (s.sortedIndices batch) := by
    rw [outcome_computeOrder_iff]
    constructor
    · rintro ⟨_, heq⟩
      exact heq ▸ ordering_respectsCalls s hv
    · exact fun h => ⟨hv, ordering_eq_sortedIndices s hv h⟩
  refine ⟨hiff, fun hnone => ?_⟩
  have hrespects := Batch.respectsCalls_of_no_calls s hnone
  exact ⟨hrespects, hiff.mpr hrespects⟩

namespace Batch

instance (s : Settings) (batch : List Declaration) : DecidableRel (Before s batch) := fun i j =>
  inferInstanceAs (Decidable (∃ a ∈ batch[i]?, ∃ b ∈ batch[j]?, s.compareDeclarations a b = .lt))

/-- A cycle in alphabetical order behind what it calls. -/
def settled : List Declaration :=
  [⟨0, .method, "beta", 0, [], 0, .ofList ["alpha", "gamma"]⟩,
    ⟨1, .method, "gamma", 0, [], 1, .ofList ["beta"]⟩, ⟨2, .method, "alpha", 0, [], 2, ∅⟩]

theorem settled_respectsCalls : RespectsCalls settled [2, 0, 1] where
  adjacent i hi := by
    have hmem : ∀ segment : List Nat, (∀ j ∈ segment, j < 3) →
        (∀ j < 3, j ∈ segment ↔ Together (Reaches settled) i j) →
        ∀ j, j ∈ segment ↔ Together (Reaches settled) i j := by
      intro segment hlt hsegment j
      refine ⟨fun hj => (hsegment j (hlt j hj)).mp hj, fun hij => (hsegment j ?_).mpr hij⟩
      exact hij.elim (fun heq => heq ▸ hi) fun hboth => hboth.1.lt.2
    match i, hi with
    | 0, _ => exact ⟨[2], [0, 1], [], rfl, hmem _ (by decide) (by decide +kernel)⟩
    | 1, _ => exact ⟨[2], [0, 1], [], rfl, hmem _ (by decide) (by decide +kernel)⟩
    | 2, _ => exact ⟨[], [2], [0, 1], rfl, hmem _ (by decide) (by decide +kernel)⟩
  callees_first i j hij := by
    have hchecked : ∀ i < 3, ∀ j < 3, Reaches settled i j → ¬ Together (Reaches settled) i j →
        [2, 0, 1].idxOf j < [2, 0, 1].idxOf i := by decide +kernel
    exact hchecked i hij.lt.1 j hij.lt.2 (.single hij)

end Batch

theorem computeOrder_sorted_sample : Batch.Valid Batch.settled ∧ Batch.Reaches Batch.settled 0 2 ∧
    Batch.RespectsCalls Batch.settled (Settings.sortedIndices {} Batch.settled) ∧
    ((computeOrder Probe.never {} Batch.settled).outcome 0).1 = .ok [2, 0, 1] ∧
    (∀ i j, ¬ Batch.Calls (Batch.settled.drop 1) i j) ∧
    ((computeOrder Probe.never {} (Batch.settled.drop 1)).outcome 0).1 = .ok [1, 0] := by
  have hv : Batch.Valid Batch.settled := by decide +kernel
  have hsorted : [2, 0, 1] = Settings.sortedIndices {} Batch.settled :=
    eq_sortedIndices {} hv (by decide) (by decide +kernel)
  have hrespects := hsorted ▸ Batch.settled_respectsCalls
  -- Without the member that is called, the call of its name leads nowhere.
  have hv' : Batch.Valid (Batch.settled.drop 1) := by decide +kernel
  have hsorted' : [1, 0] = Settings.sortedIndices {} (Batch.settled.drop 1) :=
    eq_sortedIndices {} hv' (by decide) (by decide +kernel)
  have hnone : ∀ i j, ¬ Batch.Calls (Batch.settled.drop 1) i j := by
    have hchecked : ∀ i < 2, ∀ j < 2, ¬ Batch.Reaches (Batch.settled.drop 1) i j := by
      decide +kernel
    exact fun i j hij => hchecked i hij.lt.1 j hij.lt.2 (.single hij)
  refine ⟨hv, by decide +kernel, hrespects, ?_, hnone, ?_⟩
  · rw [hsorted]
    exact (computeOrder_sorted {} hv).1.mpr hrespects
  · rw [hsorted']
    exact ((computeOrder_sorted {} hv').2 hnone).2

end CalleeFirst
