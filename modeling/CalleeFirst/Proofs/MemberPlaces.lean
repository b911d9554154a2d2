import CalleeFirst.Proofs.Readers
import CalleeFirst.Proofs.TreePlaces

/-! Where the members of a block stand.

Trees that stand in order stay in order whatever was read before (`ordered`), and `Reader.Makes`
says what readers make of them. `Reader.Ends` says that a reader ends with a semicolon or a brace,
behind which everything is passed.

`blocks_orderly`: in every block that is read the members stand one behind the other, behind
the opening brace, and every function has a name. -/
namespace CalleeFirst

/-- A function has a name. -/
def Syntax.MemberKind.Named : Syntax.MemberKind → Prop
  | .function signature _ => signature.name ≠ ""
  | _ => True

namespace Grammar

open Lexeme (Consecutive Delimiter Position Span Stand Tree)
open Reader Rule
open Syntax (Block Item Member MemberKind Node Signature)

/-- Members stand one behind the other, and functions have names. -/
def InOrder (p : Position) : List Member → Prop
  | [] => True
  | m :: rest =>
    p ≤ m.span.start ∧ m.span.start ≤ m.span.stop ∧ m.kind.Named ∧ InOrder m.span.stop rest

theorem InOrder.named {p : Position} {members : List Member} (h : InOrder p members) :
    ∀ m ∈ members, m.kind.Named := by
  induction members generalizing p with
  | nil => exact fun m hm => absurd hm List.not_mem_nil
  | cons first rest ih => exact List.forall_mem_cons.mpr ⟨h.2.2.1, ih h.2.2.2⟩

/-- The members of a block stand in order, behind its brace. -/
structure Orderly (b : Block) : Prop where
  inside : .start ≤ b.inside
  members : InOrder b.inside b.members

theorem Stream.LeadsTo.stand {s t : Stream} {p q : Position} (h : s.LeadsTo t)
    (hs : Stand p s.rest q) :
    Stand p t.rest q := by
  obtain ⟨taken, hrest, _⟩ := h
  rw [hrest] at hs
  exact hs.right

/-- Trees that stand in order. -/
def ordered : Kept where
  Holds trees := ∃ p q, .start ≤ p ∧ Stand p trees q
  behind := fun ⟨p, q, hp, hs⟩ => ⟨p, q, hp, hs.right⟩

/-! ### Names -/

theorem takeIdentifier_makes : takeIdentifier.Makes ordered fun found => found.1 ≠ "" where
  of_run hs hrun := by
    obtain ⟨p, q, _, hs⟩ := hs
    obtain ⟨tree, t, htree, hfound⟩ := of_run_bind hrun
    obtain ⟨hlook, hrest, _⟩ := of_run_treeIf htree
    rw [hrest] at hlook hs
    cases hs.each tree List.mem_cons_self with
    | word named =>
      cases hfound
      exact named
    | _ => simp [Look.identifier] at hlook

theorem signature_makes (g : Rules) (safe : Bool) :
    (signature g safe).Makes ordered fun found => found.1.name ≠ "" := by
  refine .skip fun _ => .bind takeIdentifier_makes fun _ hname => .skip fun _ => .skip fun _ =>
    .skip fun _ => ?_
  refine .ite (.skip fun _ => .skip fun _ => .skip fun _ => ?_) (.skip fun _ => ?_)
  all_goals exact .skip fun _ => .pure hname

theorem memberFunction_makes (g : Rules) (omitted : Bool) :
    (memberFunction g omitted).Makes ordered MemberKind.Named := by
  refine .skip fun _ => .skip fun _ => .bind (signature_makes g false) fun _ hname =>
    .skip fun _ => ?_
  exact .ite (.skip fun _ => .pure trivial) (.skip fun _ => .pure hname)

theorem memberKind_makes (g : Rules) (head : MemberHead) :
    (memberKind g head).Makes ordered MemberKind.Named := by
  refine .ite (memberFunction_makes g true)
    (.ite (.skip fun _ => ?_) (.ite ?_ (.ite ?_ (.failBefore _))))
  · refine .ite (.skip fun _ => .skip fun found => .pure ?_)
      (.skip fun _ => .skip fun found => .pure ?_)
    all_goals split <;> trivial
  · refine .skip fun _ => .skip fun _ => .skip fun found => .pure ?_
    split <;> trivial
  · exact .skip fun _ => .pure trivial

/-! ### How readers end -/

/-- Trees were taken, and behind the last of them everything is passed. -/
def Stream.Closes (s t : Stream) : Prop :=
  ∃ front last, s.rest = front ++ last :: t.rest ∧ t.last = some last ∧ last.passed = last.stop

theorem Stream.LeadsTo.closes {s t u : Stream} (h : s.LeadsTo t) (h' : t.Closes u) :
    s.Closes u := by
  obtain ⟨taken, hrest, _⟩ := h
  obtain ⟨front, last, hfront, hlast⟩ := h'
  exact ⟨taken ++ front, last, by rw [hrest, hfront, List.append_assoc], hlast⟩

/-- A reader takes trees up to one that passes everything. -/
structure Reader.Ends (r : Reader α) : Prop where
  of_run : ∀ {s t a}, r.run s = .ok (a, t) → s.Closes t

namespace Reader.Ends

theorem bind {r : Reader α} {f : α → Reader β} (hf : ∀ a, (f a).Ends) : (r >>= f).Ends where
  of_run hrun := by
    obtain ⟨a, t, hfirst, hsecond⟩ := of_run_bind hrun
    exact (r.leads hfirst).closes ((hf a).of_run hsecond)

/-- Making something of what was read takes nothing. -/
theorem map {r : Reader α} (hr : r.Ends) (f : α → β) : (r >>= fun a => Pure.pure (f a)).Ends where
  of_run hrun := by
    obtain ⟨a, t, hfirst, hsecond⟩ := of_run_bind hrun
    cases hsecond
    exact hr.of_run hfirst

theorem ite {c : Prop} [Decidable c] {r r' : Reader α} (hr : r.Ends) (hr' : r'.Ends) :
    (if c then r else r').Ends := by
  split
  · exact hr
  · exact hr'

theorem failBefore (trees : List Tree) : (Grammar.failBefore trees : Reader α).Ends where
  of_run hrun := by
    unfold Grammar.failBefore at hrun
    split at hrun
    · cases hrun
    · obtain ⟨_, _, _, hfail⟩ := of_run_bind hrun
      cases hfail

end Reader.Ends

theorem semicolon_ends : (op ";").Ends := by
  refine ⟨fun {s u nodes} hrun => ?_⟩
  obtain ⟨answer, s', hlook, hmarks⟩ := of_run_bind hrun
  cases hlook
  split at hmarks
  · next hyes =>
    obtain ⟨tree, t, htree, hnil⟩ := of_run_bind hmarks
    cases hnil
    obtain ⟨hrest, hlast⟩ := of_run_anyTree htree
    refine ⟨[], tree, hrest, hlast, ?_⟩
    rw [hrest] at hyes
    cases tree with
    | mark char joined span =>
      obtain rfl : ';' = char := by
        have hmark : (';' == char && char != '\'') = true := hyes
        simpa using (Bool.and_eq_true_iff.mp hmark).1
      rfl
    | _ => cases hyes
  · obtain ⟨_, _, _, hfail⟩ := of_run_bind hmarks
    cases hfail

theorem braces_ends (r : Reader α) : (inGroup .brace r).Ends where
  of_run hrun := by
    obtain ⟨inner, _, _, hrest, hlast, _⟩ := of_run_inGroup hrun
    exact ⟨[], _, hrest, hlast, rfl⟩

theorem functionBody_ends (g : Rules) : (functionBody g).Ends := (braces_ends _).map _

theorem constantDefinition_ends (g : Rules) : (constantDefinition g).Ends :=
  .bind fun _ => .bind fun _ => .bind fun _ => .bind fun _ => .bind fun _ => .bind fun _ =>
    semicolon_ends.map _

theorem aliasDefinition_ends (g : Rules) (place : ConditionPlace) :
    (aliasDefinition g place).Ends := by
  refine .bind fun _ => .bind fun _ => .bind fun _ => .bind fun _ => ?_
  refine .ite (.bind fun _ => .bind fun _ => ?_) (.bind fun _ => .bind fun _ => ?_)
  all_goals exact .ite (.bind fun _ => semicolon_ends.map _) (.bind fun _ => semicolon_ends.map _)

theorem memberFunction_ends (g : Rules) (omitted : Bool) : (memberFunction g omitted).Ends := by
  refine .bind fun _ => .bind fun _ => .bind fun _ => .bind fun _ => ?_
  exact .ite (semicolon_ends.map _) ((functionBody_ends g).map _)

/-- A macro that needs no semicolon ends with a brace. -/
theorem invocation_ends {g : Rules} {path : List Node} {s t : Stream} {whole : Node}
    (h : (invocation g path).run s = .ok (whole, t)) (hend : macroItem.needsEnd whole = false) :
    s.Closes t := by
  obtain ⟨bang, s', hbang, h⟩ := of_run_bind h
  obtain ⟨body, t', hbody, h⟩ := of_run_bind h
  cases h
  obtain ⟨_, hrest, hlast⟩ := of_run_treeIf hbody
  refine (Reader.leads _ hbang).closes ⟨[], body, hrest, hlast, ?_⟩
  cases body with
  | group delimiter inner span => rfl
  | _ => simp [macroItem.needsEnd, Tree.isBrace] at hend

theorem macroItem_ends (g : Rules) : (macroItem g).Ends := by
  refine .bind fun path => ⟨fun {s u nodes} hrun => ?_⟩
  obtain ⟨whole, t, hwhole, hrest⟩ := of_run_bind hrun
  dsimp only at hrest
  split at hrest
  · exact (Reader.leads _ hwhole).closes ((semicolon_ends.map _).of_run hrest)
  · next hend =>
    cases hrest
    exact invocation_ends hwhole (by simpa using hend)

theorem memberKind_ends (g : Rules) (head : MemberHead) : (memberKind g head).Ends := by
  refine .ite (memberFunction_ends g true)
    (.ite (.bind fun _ => ?_) (.ite ?_ (.ite ?_ (.failBefore _))))
  · exact .ite (.bind fun _ => (constantDefinition_ends g).map _)
      (.bind fun _ => (constantDefinition_ends g).map _)
  · exact .bind fun _ => .bind fun _ => (aliasDefinition_ends g _).map _
  · exact (macroItem_ends g).map _

/-! ### Members -/

/-- A stream stands where its first tree starts. -/
theorem Stream.here_le {s : Stream} {front back : List Tree} {last : Tree} {p q : Position}
    (hs : Consecutive p s.rest q) (hrest : s.rest = front ++ last :: back) :
    p ≤ s.here ∧ s.here ≤ last.start := by
  unfold Stream.here
  split
  · next first more hfirst =>
    rw [hfirst] at hs hrest
    have hfrom : Consecutive first.start (front ++ last :: back) q := hrest ▸ ⟨le_refl _, hs.2⟩
    exact ⟨hs.1, hfrom.behind.1⟩
  · next hnil => simp [hnil] at hrest

theorem member_inOrder {g : Rules} {s t : Stream} {m : Member} {p q : Position} (hp : .start ≤ p)
    (hs : Stand p s.rest q) (h : (member g).run s = .ok (m, t)) :
    p ≤ m.span.start ∧ m.span.start ≤ m.span.stop ∧ m.kind.Named ∧ Stand m.span.stop t.rest q := by
  obtain ⟨start, s₁, hstart, h⟩ := of_run_bind h
  cases hstart
  obtain ⟨attributes, s₂, hattributes, h⟩ := of_run_bind h
  obtain ⟨head, s₃, hhead, h⟩ := of_run_bind h
  obtain ⟨kind, s₄, hkind, h⟩ := of_run_bind h
  obtain ⟨stop, s₅, hstop, h⟩ := of_run_bind h
  cases hstop
  cases h
  have hbefore := (Reader.leads _ hattributes).trans (Reader.leads _ hhead)
  have hnamed := (memberKind_makes g head).of_run ⟨p, q, hp, hbefore.stand hs⟩ hkind
  obtain ⟨front, last, hrest, hlast, hpassed⟩ :=
    hbefore.closes ((memberKind_ends g head).of_run hkind)
  obtain ⟨hstart, hlt⟩ := s.here_le hs.order hrest
  rw [hrest] at hs
  have hbehind := hs.behind
  rw [hpassed] at hbehind
  simp only [hlast]
  exact ⟨hstart, le_trans hlt hs.order.behind.2.1, hnamed, hbehind⟩

theorem Repeats.inOrder {g : Rules} {s : Stream} {members : List Member}
    (h : Repeats (member g) s members) {p q : Position} (hp : .start ≤ p) (hs : Stand p s.rest q) :
    InOrder p members := by
  induction h generalizing p with
  | done => trivial
  | more first _ ih =>
    obtain ⟨hstart, hstop, hnamed, hrest⟩ := member_inOrder hp hs first
    exact ⟨hstart, hstop, hnamed, ih (le_trans hp (le_trans hstart hstop)) hrest⟩

/-! ### Blocks -/

/-- What is inside of braces stands in order, behind the opening one. -/
theorem stand_inside {s : Stream} {inner rest : List Tree} {span : Span} {p q : Position}
    (hp : .start ≤ p) (hs : Stand p s.rest q) (hrest : s.rest = .group .brace inner span :: rest) :
    .start ≤ insideOf span ∧ Stand (insideOf span) inner span.stop := by
  rw [hrest] at hs
  have hinside : span.start.next Delimiter.brace.opener = insideOf span := rfl
  cases hs.each _ List.mem_cons_self with
  | group order each =>
    rw [hinside] at order
    refine ⟨?_, order rfl, each rfl⟩
    rw [← hinside]
    exact le_trans hp (le_trans hs.order.1 (span.start.le_next _))

theorem implementation_makes (g : Rules) :
    (implementation g).Makes ordered fun found => ∀ b ∈ found, Orderly b := by
  refine .skip fun head => ⟨fun {s u found} hs hrun => ?_⟩
  obtain ⟨p, q, hp, hs⟩ := hs
  obtain ⟨⟨members, span⟩, t, hgroup, hrun⟩ := of_run_bind hrun
  obtain ⟨inner, s', t', hrest, _, hinner, hread⟩ := of_run_inGroup hgroup
  obtain ⟨hstart, hinside⟩ := stand_inside hp hs hrest
  obtain ⟨attributes, s'', hattributes, hmembers⟩ := of_run_bind hread
  rw [← hinner] at hinside
  have horder := (repeats_of_untilEnd hmembers).inOrder hstart
    ((Reader.leads _ hattributes).stand hinside)
  dsimp only at hrun
  split at hrun
  · cases hrun
    intro b hb
    cases hb
    exact ⟨hstart, horder⟩
  · cases hrun
    intro b hb
    cases hb

/-! ### Items -/

/-- The blocks of an item have their members in order. -/
def OrderlyItem (i : Item) : Prop := ∀ b ∈ i.blocks, Orderly b

/-- What is made of the trees inside of braces. -/
theorem Reader.Makes.inBraces {r : Reader α} {P : α → Prop} (hr : r.Makes ordered P) :
    (inGroup .brace r).Makes ordered fun found => P found.1 where
  of_run hs hrun := by
    obtain ⟨p, q, hp, hs⟩ := hs
    obtain ⟨inner, s', t', hrest, _, hinner, hread⟩ := of_run_inGroup hrun
    obtain ⟨hstart, hinside⟩ := stand_inside hp hs hrest
    rw [← hinner] at hinside
    exact hr.of_run ⟨_, _, hstart, hinside⟩ hread

theorem implementationItem_makes (g : Rules) :
    (implementationItem g).Makes ordered OrderlyItem := by
  have hwritten : (written (implementation g)).Makes ordered fun found =>
      ∀ b ∈ found.1, Orderly b :=
    .skip fun _ => .bind (implementation_makes g) fun _ hblock => .skip fun _ => .pure hblock
  refine .bind hwritten fun found hblock => .pure fun b hb => hblock b ?_
  simpa using hb

section
variable {g : Rules} (hg : ∀ attributes, (g.item attributes).Makes ordered OrderlyItem)
include hg

theorem items_makes : (Reader.untilEnd do g.item (← outerAttributes g)).Makes ordered fun items =>
    ∀ b ∈ items.flatMap Item.blocks, Orderly b where
  of_run hs hrun := by
    have hitems := (repeats_of_untilEnd hrun).forall_mem (.skip fun attributes => hg attributes) hs
    intro b hb
    obtain ⟨i, hi, hb⟩ := List.mem_flatMap.mp hb
    exact hitems i hi b hb

theorem moduleItem_makes : (moduleItem g).Makes ordered OrderlyItem := by
  refine .skip fun _ => .skip fun _ => .ite (.skip fun _ => .pure ?_) ?_
  · exact fun b hb => absurd hb List.not_mem_nil
  · have hinside : (do
        let attributes ← innerAttributes g
        return (attributes, ← untilEnd do g.item (← outerAttributes g))).Makes ordered fun found =>
          ∀ b ∈ found.2.flatMap Item.blocks, Orderly b :=
      .skip fun _ => .bind (items_makes hg) fun _ hblocks => .pure hblocks
    exact .bind hinside.inBraces fun _ hblocks => .pure hblocks

theorem item_makes (attributes : List Node) : (item g attributes).Makes ordered OrderlyItem := by
  have attributed {r : Reader Item} (hr : r.Makes ordered OrderlyItem) : (do
      let found ← r
      return { found with node := Node.attributedItem attributes found.node
        }).Makes ordered OrderlyItem :=
    .bind hr fun _ h => .pure h
  have plain (r : Reader Node) := attributed (r := do return { node := ← r })
    (.skip fun _ => .pure fun b hb => absurd hb List.not_mem_nil)
  have block := attributed (implementationItem_makes g)
  refine .skip fun _ => ?_
  exact .ite (plain _) <| .ite (plain _) <| .ite (plain _) <| .ite (plain _) <| .ite (plain _) <|
    .ite (plain _) <| .ite block <| .ite (plain _) <| .ite (attributed (moduleItem_makes hg)) <|
    .ite (attributed (.failBefore _)) <| .ite (plain _) <| .ite (plain _) <| .ite (plain _) <|
    .ite (plain _) <| .ite (plain _) <| .ite (plain _) <| .ite block <| .ite (plain _) <|
    .ite (plain _) <|
    attributed (.failBefore _)

end

theorem rules_item_makes (arguments : List Tree → List Node) (depth : Nat)
    (attributes : List Node) :
    ((rules arguments depth).item attributes).Makes ordered OrderlyItem := by
  induction depth generalizing attributes with
  | zero => exact .failHere
  | succ depth ih => exact ⟨(item_makes ih attributes).of_run⟩

/-! ### Whole texts -/

/-- **Members stand in order.** In every block of a text the members stand one behind the
other, behind the opening brace, and every function has a name. -/
theorem blocks_orderly {trees : List Tree} {stop : Position} (hs : Stand .start trees stop)
    {found : List Block} (h : blocks trees = .ok found) : ∀ b ∈ found, Orderly b := by
  obtain ⟨s, hrun⟩ := of_readAll h
  have hblocks : Reader.Makes ordered (do
      let _ ← innerAttributes (rulesFor trees)
      let items ← untilEnd do (rulesFor trees).item (← outerAttributes (rulesFor trees))
      return items.flatMap Item.blocks)
      fun found => ∀ b ∈ found, Orderly b :=
    .skip fun _ => .bind (items_makes (rules_item_makes _ _)) fun _ hitems => .pure hitems
  exact hblocks.of_run ⟨_, _, le_refl _, hs⟩ hrun

end Grammar

end CalleeFirst
