import CalleeFirst.Proofs.MemberPlaces

/-! Where the blocks of a text stand.

Behind a closing brace everything is passed, so a block has ended before the next one is opened.
`Reader.Lays` says of a reader that the blocks it makes stand one behind the other and in front of
what the reader leaves, `Reader.Confines` only that they stand in order where the trees stand that
it was given. Inside of braces the second is enough for the first.

`blocks_successive`: the blocks of a text stand one behind the other, however deep the modules
are that hold them. -/
namespace CalleeFirst.Grammar

open Lexeme (Delimiter Position Span Stand Tree)
open Reader Rule
open Syntax (Block Item Member)

/-- Blocks stand one behind the other between two positions, each with all of its members. -/
def Successive (p : Position) : List Block → Position → Prop
  | [], q => p ≤ q
  | b :: rest, q => p ≤ b.inside ∧
    ∃ stop, b.inside ≤ stop ∧ (∀ m ∈ b.members, m.span.stop ≤ stop) ∧ Successive stop rest q

namespace Successive
variable {p q r : Position} {found more : List Block}

theorem le (h : Successive p found q) : p ≤ q := by
  induction found generalizing p with
  | nil => exact h
  | cons b rest ih =>
    obtain ⟨hopen, stop, hclose, _, hrest⟩ := h
    exact le_trans hopen (le_trans hclose (ih hrest))

theorem of_le (hr : r ≤ p) (h : Successive p found q) : Successive r found q := by
  cases found with
  | nil => exact le_trans hr h
  | cons b rest => exact ⟨le_trans hr h.1, h.2⟩

theorem append (h : Successive p found q) (h' : Successive q more r) :
    Successive p (found ++ more) r := by
  induction found generalizing p with
  | nil => exact h'.of_le h
  | cons b rest ih =>
    obtain ⟨hopen, stop, hclose, hmembers, hrest⟩ := h
    exact ⟨hopen, stop, hclose, hmembers, ih hrest⟩

theorem inside_le (h : Successive p found q) : ∀ b ∈ found, p ≤ b.inside := by
  induction found generalizing p with
  | nil => exact fun b hb => absurd hb List.not_mem_nil
  | cons b rest ih =>
    obtain ⟨hopen, stop, hclose, _, hrest⟩ := h
    exact List.forall_mem_cons.mpr ⟨hopen,
      fun c hc => le_trans (le_trans hopen hclose) (ih hrest c hc)⟩

/-- The members of a block end before the next block is opened. -/
theorem pairwise (h : Successive p found q) :
    found.Pairwise fun b c => ∀ m ∈ b.members, m.span.stop ≤ c.inside := by
  induction found generalizing p with
  | nil => exact .nil
  | cons b rest ih =>
    obtain ⟨_, stop, _, hmembers, hrest⟩ := h
    exact List.pairwise_cons.mpr
      ⟨fun c hc m hm => le_trans (hmembers m hm) (hrest.inside_le c hc), ih hrest⟩

end Successive

/-! ### Readers -/

/-- Braces are opened behind a position, and what is left of the trees stands behind them. -/
theorem stand_behind {s : Stream} {inner rest : List Tree} {span : Span} {p q : Position}
    (hs : Stand p s.rest q) (hrest : s.rest = .group .brace inner span :: rest) :
    p ≤ insideOf span ∧ Stand span.stop rest q := by
  rw [hrest, ← List.nil_append (_ :: rest)] at hs
  exact ⟨le_trans hs.order.1 (span.start.le_next Delimiter.brace.opener), hs.behind⟩

/-- The blocks that a reader makes stand in order, in front of what it leaves. -/
structure Reader.Lays (r : Reader α) (made : α → List Block) : Prop where
  of_run : ∀ {s t a p q}, .start ≤ p → Stand p s.rest q → r.run s = .ok (a, t) →
    ∃ stop, Successive p (made a) stop ∧ Stand stop t.rest q

/-- The blocks that a reader makes stand in order among the trees it is given. -/
structure Reader.Confines (r : Reader α) (made : α → List Block) : Prop where
  of_run : ∀ {s t a p q}, .start ≤ p → Stand p s.rest q → r.run s = .ok (a, t) →
    Successive p (made a) q

namespace Reader.Lays
variable {made : α → List Block} {made' : β → List Block}

theorem bind {r : Reader α} {f : α → Reader β} (hr : r.Lays made)
    (hf : ∀ a, (f a).Makes ordered fun b => made' b = made a) : (r >>= f).Lays made' where
  of_run hp hs hrun := by
    obtain ⟨a, t, hfirst, hsecond⟩ := of_run_bind hrun
    obtain ⟨stop, hmade, hleft⟩ := hr.of_run hp hs hfirst
    have hsame := (hf a).of_run ⟨stop, _, le_trans hp hmade.le, hleft⟩ hsecond
    exact ⟨stop, hsame ▸ hmade, ((f a).leads hsecond).stand hleft⟩

/-- Whatever was read before. -/
theorem skip {r : Reader α} {f : α → Reader β} (hf : ∀ a, (f a).Lays made') :
    (r >>= f).Lays made' where
  of_run hp hs hrun := by
    obtain ⟨a, t, hfirst, hsecond⟩ := of_run_bind hrun
    exact (hf a).of_run hp ((r.leads hfirst).stand hs) hsecond

/-- What holds no blocks. -/
theorem of_makes {r : Reader α} (hr : r.Makes ordered fun a => made a = []) : r.Lays made where
  of_run {s t a p q} hp hs hrun := by
    have hnone := hr.of_run ⟨p, q, hp, hs⟩ hrun
    exact ⟨p, by rw [hnone]; exact le_refl p, (r.leads hrun).stand hs⟩

theorem ite {c : Prop} [Decidable c] {r r' : Reader α} (hr : r.Lays made) (hr' : r'.Lays made) :
    (if c then r else r').Lays made := by
  split
  · exact hr
  · exact hr'

/-- Behind a brace stands what is left. -/
theorem inBraces {r : Reader α} (hr : r.Confines made) :
    (inGroup .brace r).Lays fun found => made found.1 where
  of_run {s t found p q} hp hs hrun := by
    obtain ⟨inner, s', t', hrest, _, hinner, hread⟩ := of_run_inGroup hrun
    obtain ⟨hstart, hinside⟩ := stand_inside hp hs hrest
    rw [← hinner] at hinside
    obtain ⟨hopen, hleft⟩ := stand_behind hs hrest
    exact ⟨found.2.stop, (hr.of_run hstart hinside hread).of_le hopen, hleft⟩

end Reader.Lays

theorem Reader.Confines.skip {made : β → List Block} {r : Reader α} {f : α → Reader β}
    (hf : ∀ a, (f a).Confines made) : (r >>= f).Confines made where
  of_run hp hs hrun := by
    obtain ⟨a, t, hfirst, hsecond⟩ := of_run_bind hrun
    exact (hf a).of_run hp ((r.leads hfirst).stand hs) hsecond

theorem Repeats.successive {r : Reader α} {made : α → List Block} (hr : r.Lays made) {s : Stream}
    {found : List α} (h : Repeats r s found) {p q : Position} (hp : .start ≤ p)
    (hs : Stand p s.rest q) :
    Successive p (found.flatMap made) q := by
  induction h generalizing p with
  | done => exact hs.order.le
  | more first _ ih =>
    obtain ⟨stop, hmade, hleft⟩ := hr.of_run hp hs first
    exact hmade.append (ih (le_trans hp hmade.le) hleft)

theorem Reader.Lays.untilEnd {r : Reader α} {made : α → List Block} (hr : r.Lays made) :
    (Reader.untilEnd r).Confines (List.flatMap made) where
  of_run hp hs hrun := (repeats_of_untilEnd hrun).successive hr hp hs

/-! ### Blocks and items -/

theorem Repeats.stop_le {g : Rules} {s : Stream} {members : List Member}
    (h : Repeats (member g) s members) {p q : Position} (hp : .start ≤ p) (hs : Stand p s.rest q) :
    ∀ m ∈ members, m.span.stop ≤ q := by
  induction h generalizing p with
  | done => exact fun m hm => absurd hm List.not_mem_nil
  | more first _ ih =>
    obtain ⟨hstart, hstop, _, hleft⟩ := member_inOrder hp hs first
    exact List.forall_mem_cons.mpr ⟨hleft.order.le, ih (le_trans hp (le_trans hstart hstop)) hleft⟩

theorem implementation_lays (g : Rules) : (implementation g).Lays Option.toList := by
  refine .skip fun head => ⟨fun {s u found p q} hp hs hrun => ?_⟩
  obtain ⟨⟨members, span⟩, t, hgroup, hrun⟩ := of_run_bind hrun
  obtain ⟨inner, s', t', hrest, _, hinner, hread⟩ := of_run_inGroup hgroup
  obtain ⟨hstart, hinside⟩ := stand_inside hp hs hrest
  obtain ⟨attributes, s'', hattributes, hmembers⟩ := of_run_bind hread
  rw [← hinner] at hinside
  have hstop := (repeats_of_untilEnd hmembers).stop_le hstart
    ((Reader.leads _ hattributes).stand hinside)
  obtain ⟨hopen, hleft⟩ := stand_behind hs hrest
  dsimp only at hrun
  split at hrun
  · cases hrun
    exact ⟨span.stop, ⟨hopen, span.stop, hinside.order.le, hstop, le_refl _⟩, hleft⟩
  · cases hrun
    exact ⟨span.stop, le_trans hopen hinside.order.le, hleft⟩

theorem implementationItem_lays (g : Rules) : (implementationItem g).Lays Item.blocks := by
  have hwritten : (written (implementation g)).Lays fun found => found.1.toList :=
    .skip fun _ => .bind (implementation_lays g) fun _ => .skip fun _ => .pure rfl
  exact .bind hwritten fun _ => .pure rfl

section
variable {g : Rules} (hg : ∀ attributes, (g.item attributes).Lays Item.blocks)
include hg

theorem items_confines : (Reader.untilEnd do g.item (← outerAttributes g)).Confines
      (List.flatMap Item.blocks) :=
  Reader.Lays.untilEnd (.skip fun attributes => hg attributes)

theorem moduleItem_lays : (moduleItem g).Lays Item.blocks := by
  refine .skip fun _ => .skip fun _ => .ite (.of_makes (.skip fun _ => .pure rfl)) ?_
  have hinside : (do
      let attributes ← innerAttributes g
      return (attributes, ← untilEnd do g.item (← outerAttributes g))).Confines fun found =>
        found.2.flatMap Item.blocks := by
    refine .skip fun _ => ⟨fun hp hs hrun => ?_⟩
    obtain ⟨items, t, hitems, hreturn⟩ := of_run_bind hrun
    cases hreturn
    exact (items_confines hg).of_run hp hs hitems
  exact .bind (.inBraces hinside) fun _ => .pure rfl

theorem item_lays (attributes : List Syntax.Node) : (item g attributes).Lays Item.blocks := by
  have attributed {r : Reader Item} (hr : r.Lays Item.blocks) : (do
      let found ← r
      let node := Syntax.Node.attributedItem attributes found.node
      return { found with node }).Lays Item.blocks :=
    .bind hr fun _ => .pure rfl
  have plain (r : Reader Syntax.Node) := attributed (r := do return { node := ← r })
    (.of_makes (.skip fun _ => .pure rfl))
  have block := attributed (implementationItem_lays g)
  have failing (trees : List Tree) := attributed (.of_makes (.failBefore trees))
  refine .skip fun _ => ?_
  exact .ite (plain _) <| .ite (plain _) <| .ite (plain _) <| .ite (plain _) <| .ite (plain _) <|
    .ite (plain _) <| .ite block <| .ite (plain _) <| .ite (attributed (moduleItem_lays hg)) <|
    .ite (failing _) <| .ite (plain _) <| .ite (plain _) <| .ite (plain _) <| .ite (plain _) <|
    .ite (plain _) <| .ite (plain _) <| .ite block <| .ite (plain _) <| .ite (plain _) <| failing _

end

theorem rules_item_lays (arguments : List Tree → List Syntax.Node) (depth : Nat)
    (attributes : List Syntax.Node) :
    ((rules arguments depth).item attributes).Lays Item.blocks := by
  induction depth generalizing attributes with
  | zero => exact .of_makes .failHere
  | succ depth ih => exact ⟨(item_lays ih attributes).of_run⟩

/-! ### Whole texts -/

/-- **Blocks stand in order.** One has ended before the next is opened. -/
theorem blocks_successive {trees : List Tree} {stop : Position} (hs : Stand .start trees stop)
    {found : List Block} (h : blocks trees = .ok found) : Successive .start found stop := by
  obtain ⟨s, hrun⟩ := of_readAll h
  obtain ⟨_, s', hattributes, hrun⟩ := of_run_bind hrun
  obtain ⟨items, t, hitems, hreturn⟩ := of_run_bind hrun
  cases hreturn
  exact (items_confines (rules_item_lays _ _)).of_run (le_refl _)
    ((Reader.leads _ hattributes).stand hs) hitems

end CalleeFirst.Grammar
