import CalleeFirst.Proofs.MemberPlaces
import CalleeFirst.Proofs.Pushed

/-! The rules further to the right.

No rule looks at a place: `Rules.AreSteady` says so of the rules that need each other, and a lemma
for every other rule derives it from that. Where a rule asks for the form of a node that it has
made, the answer does not depend on a place either (`isForm_pushed`).

A few rules keep a place, those of receivers, members and blocks. At the end of a text there is no
place to compare, but there those rules fail (`Reader.Carries.place`). -/
namespace CalleeFirst.Grammar

open HasPlaces (pushed)
open Lexeme (Delimiter Position Span Tree)
open Reader Rule
open Syntax (ArgumentRole Block Form Item Member MemberKind Node Signature VisibilityMark)

/-! ### Shapes of nodes -/

section
variable (n : Nat)

@[simp] theorem isSegment_pushed (node : Node) : isSegment (pushed n node) = isSegment node := by
  cases node with
  | phrase form parts => cases form <;> rfl
  | _ => rfl

/-- The form of a path is not its place. -/
@[simp] theorem isPlainPath_pushed (parts : List Node) :
    Node.isPlainPath (pushed n parts) = Node.isPlainPath parts := by
  induction parts with
  | nil => rfl
  | cons node parts ih =>
    simp only [Node.isPlainPath] at ih
    simp only [Node.isPlainPath, pushed_cons, List.all_cons, ih]
    cases node with
    | phrase form parts => cases form <;> simp
    | _ => rfl

@[simp] theorem endsPlain_pushed (parts : List Node) :
    endsPlain (pushed n parts) = endsPlain parts := by
  rw [endsPlain, endsPlain, getLast?_pushed]
  cases parts.getLast? with
  | none => rfl
  | some node =>
    cases node with
    | phrase form parts => cases form <;> simp
    | _ => simp

@[simp] theorem isSoleWord_pushed (name : String) (parts : List Node) :
    Node.isSoleWord name (pushed n parts) = Node.isSoleWord name parts := by
  rcases parts with _ | ⟨node, _ | ⟨_, _⟩⟩
  · rfl
  · cases node with
    | phrase form parts =>
      rcases parts with _ | ⟨_, _ | ⟨_, _⟩⟩ <;> cases form <;> rfl
    | _ => rfl
  · simp [Node.isSoleWord]

@[simp] theorem canBeBound_pushed (node : Node) : canBeBound (pushed n node) = canBeBound node := by
  cases node with
  | phrase form parts =>
    cases form with
    | path role qualified => cases role <;> cases qualified <;> rfl
    | _ => rfl
  | _ => rfl

@[simp] theorem bare_pushed (node : Node) : (pushed n node).bare = pushed n node.bare := by
  cases node with
  | phrase form parts =>
    rw [pushed_phrase]
    cases form with
    | attributed =>
      rw [Node.bare, Node.bare, List.getLastD_eq_getLast?, List.getLastD_eq_getLast?,
        getLast?_pushed]
      cases parts.getLast? with
      | none => simp
      | some node => rfl
    | _ => simp [Node.bare]
  | _ => rfl

@[simp] theorem isForm_pushed (node : Node) (form : Form) :
    (pushed n node).isForm form = node.isForm form := by
  rw [Node.isForm, Node.isForm, bare_pushed]
  cases node.bare <;> rfl

/-- Attributes in front of a node are pushed with it. -/
@[simp] theorem attributed_pushed (attributes : List Node) (node : Node) :
    (pushed n node).attributed (pushed n attributes) = pushed n (node.attributed attributes) := by
  have hplain (node : Node) : (if (pushed n attributes).isEmpty then pushed n node
      else .phrase .attributed (pushed n attributes ++ [pushed n node])) = pushed n
        (if attributes.isEmpty then node else .phrase .attributed (attributes ++ [node])) := by
    rw [pushed_isEmpty]
    split <;> simp
  cases node with
  | phrase form parts =>
    cases form with
    | unread => rfl
    | _ => exact hplain (.phrase _ parts)
  | token tree => exact hplain (.token tree)
  | group delimiter span inner => exact hplain (.group delimiter span inner)
  | methodCall receiver method rest => exact hplain (.methodCall receiver method rest)
  | invocation braces written arguments => exact hplain (.invocation braces written arguments)

@[simp] theorem attributedItem_pushed (attributes : List Node) (node : Node) :
    (pushed n node).attributedItem (pushed n attributes) =
      pushed n (node.attributedItem attributes) := by
  have htrees : Node.treesAll (pushed n attributes) = pushed n (Node.treesAll attributes) :=
    Node.treesAll_moved rfl attributes
  cases node with
  | phrase form parts =>
    cases form with
    | nested => simp [Node.attributedItem]
    | unread => simp [Node.attributedItem, htrees]
    | _ => simp only [pushed_phrase, Node.attributedItem, ← attributed_pushed]
  | token tree => exact attributed_pushed n attributes (.token tree)
  | group delimiter span inner => exact attributed_pushed n attributes (.group delimiter span inner)
  | methodCall receiver method rest =>
    exact attributed_pushed n attributes (.methodCall receiver method rest)
  | invocation braces written arguments =>
    exact attributed_pushed n attributes (.invocation braces written arguments)

@[simp] theorem isTrait_pushed (node : Node) : isTrait (pushed n node) = isTrait node := by
  cases node with
  | phrase form parts =>
    cases form with
    | path role qualified => cases role <;> cases qualified <;> rfl
    | _ => rfl
  | _ => rfl

@[simp] theorem needsEnd_pushed (node : Node) :
    macroItem.needsEnd (pushed n node) = macroItem.needsEnd node := by
  cases node <;> rfl

@[simp] theorem needsSemicolon_pushed (node : Node) :
    needsSemicolon (pushed n node) = needsSemicolon node := by
  rw [needsSemicolon, needsSemicolon, bare_pushed, isBlockLike, isForm_pushed]
  cases node.bare <;> rfl

end

/-! ### What is made of nodes -/

instance : HasPlaces BoundKind := .none

instance : HasPlaces ArgumentRole := .none

instance : HasPlaces VisibilityMark := .none

instance : HasPlaces MacroStatement := .none

section
variable (n : Nat)

@[simp] theorem pushed_argumentRole (role : ArgumentRole) : pushed n role = role := rfl

@[simp] theorem pushed_visibilityMark (mark : VisibilityMark) : pushed n mark = mark := rfl

end

instance : HasPlaces ParenContent where
  pushed n
    | .type inner => .type (pushed n inner)
    | content => content

instance : HasPlaces Parameter where
  pushed n p :=
    { receiver := pushed n p.receiver, type := pushed n p.type, nodes := pushed n p.nodes }

@[simp] theorem pushed_parameter (n : Nat) (receiver : Option Position) (type : Option Node)
    (nodes : List Node) : pushed n (Parameter.mk receiver type nodes) =
      ⟨pushed n receiver, pushed n type, pushed n nodes⟩ := rfl

instance : HasPlaces Constant := ⟨fun n found => { found with nodes := pushed n found.nodes }⟩

@[simp] theorem pushed_constant (n : Nat) (name : String) (defined plain : Bool)
    (nodes : List Node) :
    pushed n (Constant.mk name defined plain nodes) = ⟨name, defined, plain, pushed n nodes⟩ := rfl

instance : HasPlaces Alias := ⟨fun n found => { found with nodes := pushed n found.nodes }⟩

@[simp] theorem pushed_alias (n : Nat) (name : String) (bounded defined : Bool)
    (nodes : List Node) :
    pushed n (Alias.mk name bounded defined nodes) = ⟨name, bounded, defined, pushed n nodes⟩ := rfl

instance : HasPlaces MemberHead := ⟨fun n head => { head with rest := pushed n head.rest }⟩

@[simp] theorem pushed_memberHead (n : Nat) (visibility : VisibilityMark) (isDefault : Bool)
    (rest : List Tree) :
    pushed n (MemberHead.mk visibility isDefault rest) = ⟨visibility, isDefault, pushed n rest⟩ :=
  rfl

instance : HasPlaces BlockHead where
  pushed n head := { head with
    start := pushed n head.start, selfType := pushed n head.selfType, trait := pushed n head.trait }

@[simp] theorem pushed_blockHead (n : Nat) (start : Position) (selfType : Node)
    (trait : Option Node) (plain : Bool) : pushed n (BlockHead.mk start selfType trait plain) =
      ⟨pushed n start, pushed n selfType, pushed n trait, plain⟩ := rfl

instance : HasPlaces Signature := ⟨fun n => Signature.moved (pushedPlace n)⟩

@[simp] theorem pushed_signature (n : Nat) (name : String) (hasReceiver : Bool)
    (parameters : List Node) (output : Option Node) :
    pushed n (Signature.mk name hasReceiver parameters output) =
      ⟨name, hasReceiver, pushed n parameters, pushed n output⟩ := rfl

instance : HasPlaces MemberKind := ⟨fun n => MemberKind.moved (pushedPlace n)⟩

instance : HasPlaces Member := ⟨fun n => Member.moved (pushedPlace n)⟩

instance : HasPlaces Block := ⟨fun n => Block.moved (pushedPlace n)⟩

@[simp] theorem pushed_block (n : Nat) (selfType : Node) (trait : Option Node)
    (start inside : Position) (members : List Member) :
    pushed n (Block.mk selfType trait start inside members) =
      ⟨pushed n selfType, pushed n trait, pushed n start, pushed n inside, pushed n members⟩ := rfl

/-- The first character inside a group stands behind the opening delimiter. -/
@[simp] theorem insideOf_pushed (n : Nat) (span : Span) :
    insideOf (pushed n span) = pushed n (insideOf span) := by
  obtain ⟨⟨line, column⟩, stop⟩ := span
  by_cases h : line = 1
  · simp [pushed, pushedPlace, Span.moved, insideOf, h, Nat.add_right_comm]
  · simp [pushed, pushedPlace, Span.moved, insideOf, h]

instance : HasPlaces Item := ⟨fun n item => ⟨pushed n item.node, pushed n item.blocks⟩⟩

@[simp] theorem pushed_item (n : Nat) (node : Node) (blocks : List Block) :
    pushed n (Item.mk node blocks) = ⟨pushed n node, pushed n blocks⟩ := rfl

section
variable (n : Nat)

theorem pushed_types (found : List Parameter) :
    (pushed n found).filterMap Parameter.type = pushed n (found.filterMap Parameter.type) := by
  induction found with
  | nil => rfl
  | cons next found ih =>
    obtain ⟨receiver, type, nodes⟩ := next
    cases type <;> simp [ih]

theorem pushed_hasReceiver (found : List Parameter) :
    (pushed n found).head?.any (·.receiver.isSome) = found.head?.any (·.receiver.isSome) := by
  cases found with
  | nil => rfl
  | cons next found => simp [pushed]

end

/-! ### Where readers end -/

/-- A reader that ends with a tree has read one. -/
theorem Reader.Ends.needsTree {α : Type} {r : Reader α} (h : r.Ends) : r.NeedsTree where
  fails {s} hs := by
    cases hrun : r.run s with
    | error p => exact ⟨p, rfl⟩
    | ok result =>
      obtain ⟨front, last, hrest, _⟩ := h.of_run hrun
      rw [hs, eq_comm, List.append_eq_nil_iff] at hrest
      cases hrest.2

theorem Reader.run_behindLast {s : Stream} {last : Tree} (h : s.last = some last) :
    Reader.behindLast.run s = .ok (last.stop, s) := by
  obtain ⟨rest, stop, before, stray⟩ := s
  obtain rfl : before = some last := h
  rfl

/-- The place behind what was just read. -/
theorem Reader.Carries.behindLast {α β : Type} [HasPlaces α] [HasPlaces β] {n : Nat}
    {r r' : Reader α} {f f' : α → Position → Reader β} (hr : r.Carries n r') (hends : r.Ends)
    (hf : ∀ a p, (f a p).Carries n (f' (pushed n a) (pushed n p))) :
    (r >>= fun a => Reader.behindLast >>= f a).Carries n
      (r' >>= fun a => Reader.behindLast >>= f' a) where
  alike {s t} hs := by
    dsimp only [Bind.bind]
    rcases (hr.alike hs).cases with ⟨p, q, h, h'⟩ | ⟨a, s', t', h, h', hrest⟩
    · rw [h, h']
      exact .fails p q
    · obtain ⟨_, last, _, hlast, _⟩ := hends.of_run h
      have hstop : t'.last = some (pushed n last) := by rw [hrest.last, hlast, pushed_some]
      simp only [h, h', run_behindLast hlast, run_behindLast hstop, stop_pushed]
      exact (hf a last.stop).alike hrest

/-! ### The rules that need each other -/

/-- The rules do not look at places. -/
structure Rules.AreSteady (n : Nat) (g : Rules) : Prop where
  type {plus : Bool} : (g.type plus).Steady n
  bound {capturing constant : Bool} : (g.bound capturing constant).Steady n
  expression {structs : Bool} : (g.expression structs).Steady n
  operand {structs : Bool} : (g.operand structs).Steady n
  operators {left : Node} {structs : Bool} {base : Level} :
    (g.operators left structs base).Carries n (g.operators (pushed n left) structs base)
  standing : g.standing.Steady n
  pattern : g.pattern.Steady n
  alternatives : g.alternatives.Steady n
  statements : g.statements.Steady n
  item {attributes : List Node} : (g.item attributes).Carries n (g.item (pushed n attributes))
  useTree {root : Bool} : (g.useTree root).Steady n
  arguments (inner : List Tree) : g.arguments (pushed n inner) = pushed n (g.arguments inner)

namespace Reader.Carries
variable {n : Nat}

/-! ### Without other rules -/

/-- The path of a macro or a module. -/
theorem plainPath : Grammar.plainPath.Steady n := by
  refine .bind .optionalOp fun root => .bind (.repeated ?_) fun segments => ?_
  · refine .look (.or .identifier .words) fun _ =>
      .ite (.bind .takeWord fun (name, node) => ?_) (.pure rfl)
    exact .look .op fun _ => .ite (.bind .op fun _ => .pure (by simp)) (.pure (by simp))
  · rw [getLast?_pushed]
    cases segments.getLast? with
    | none => exact .failHere
    | some last => exact .cond (by simp) (.pure (by simp)) .failHere

theorem attributePath : Grammar.attributePath.Steady n :=
  .look .word fun _ => .ite .word .plainPath

theorem captures : Grammar.captures.Steady n :=
  .seq ⟨.word, .op, .upTo .op (.choose ⟨⟨.lifetime, .lifetime⟩, .or .identifier .word, .anyWord⟩),
    .op⟩

theorem optionalConvention : Grammar.optionalConvention.Steady n :=
  .onlyIf .word (.seq ⟨.word, .onlyIf .text .text⟩)

theorem pointerVariadic : Grammar.pointerVariadic.Steady n :=
  .seq ⟨.onlyIf (.or .identifier .word) (.seq ⟨.anyWord, .op⟩), .op, .optionalOp⟩

theorem lifetimeParameter : Grammar.lifetimeParameter.Steady n :=
  .seq ⟨.lifetime, .onlyIf .op (.seq ⟨.op, .chain (.or .end_ .ops) .lifetime⟩)⟩

/-- What is in the parentheses decides whether they belong to the visibility. -/
theorem visibility : Grammar.visibility.Steady n := by
  refine .look .word fun _ => .ite (.pure rfl) (.bind .word fun keyword => .stream fun s t hs => ?_)
  rw [hs.rest]
  rcases s.rest with _ | ⟨_ | _ | _ | ⟨_ | _ | _, inner, span⟩, rest⟩
  case cons.group.paren =>
    rw [pushed_cons, pushed_group]
    rcases inner with _ | ⟨⟨scope, place⟩ | _ | _ | _, _ | ⟨next, others⟩⟩
    case cons.word.nil =>
      refine .ite (.bind (.parens .anyWord) fun _ => .pure (by simp)) (.ite ?_ (.pure rfl))
      exact .bind (.parens (.seq ⟨.word, .plainPath⟩)) fun _ => .pure (by simp)
    case cons.word.cons =>
      by_cases hin : scope = "in"
      · subst hin
        refine .bind (.inGroup (.bind .word fun _ => .bind .plainPath fun path => .pure ?_))
          fun ((_, _), _) => .pure (by simp)
        simp
      · simp only [List.cons.injEq, Tree.group.injEq, Tree.word.injEq, hin, false_and, and_false,
          imp_self, implies_true, pushed_cons, pushed_word]
        exact .pure rfl
    all_goals exact .pure rfl
  all_goals exact .pure rfl

theorem visibilityNodes : Grammar.visibilityNodes.Steady n :=
  .bind .visibility fun (_, _) => .pure rfl

theorem rangeOperator {obsolete : Bool} : (Grammar.rangeOperator obsolete).Steady n :=
  .look .op fun _ => .ite (.bind .op fun _ => .pure rfl) (.look .op fun _ => .ite
    (.ite (.bind .takeMarks fun _ => .pure rfl) .failHere) (.bind .op fun _ => .pure rfl))

theorem fieldName : Grammar.fieldName.Steady n := by
  refine .look .identifier fun _ => .ite (.bind .takeIdentifier fun (_, _) => .pure rfl) ?_
  refine .here fun _ _ => .bind (.treeIf .whole) fun tree => ?_
  cases tree with
  | literal text span => exact .ite (.pure rfl) .failAt
  | _ => exact .failAt

theorem variadic : Grammar.variadic.Steady n := .seq ⟨.op, .onlyIf (.not .end_) .op⟩

theorem qualifiers {safe : Bool} : (Grammar.qualifiers safe).Steady n := by
  have hsafety : (if safe then Look.words ["unsafe", "safe"] else .word "unsafe").Steady n := by
    split
    · exact .words
    · exact .word
  exact .seq ⟨.optionalWord, .optionalWord, .onlyIf hsafety .anyWord, .optionalConvention⟩

theorem externCrate : Grammar.externCrate.Steady n :=
  .seq ⟨.visibilityNodes, .word, .word, .choose ⟨⟨.word, .anyWord⟩, .always, .identifier⟩,
    .onlyIf .word (.seq ⟨.word, .choose ⟨⟨.word, .anyWord⟩, .always, .identifier⟩⟩), .op⟩

theorem ifLegal {r r' : Reader (Bool × List Node)} (h : r.Carries n r') :
    (Grammar.ifLegal r).Carries n (Grammar.ifLegal r') :=
  .bind (.written h) fun ((isLegal, _), _) => .pure (by cases isLegal <;> simp)

end Reader.Carries

namespace Look.Steady
variable {n : Nat}

theorem bangAhead : Grammar.bangAhead.Steady n := .and .op (.not .op)

theorem boundStart : Grammar.boundStart.Steady n := .any ⟨.anyWord, .op, .op, .lifetime, .paren⟩

theorem namedAhead : Grammar.namedAhead.Steady n := .and (.second .op) (.not (.second .op))

theorem mutableSelf : Grammar.mutableSelf.Steady n := .and .word (.second .word)

theorem variadicAhead : Grammar.variadicAhead.Steady n :=
  .or .op (.and (.or .identifier .word) (.and (.second .op) (.third .op)))

theorem genericsAhead : Grammar.genericsAhead.Steady n :=
  .and .op (.any ⟨.second .ops, .and (.or (.second .lifetime) (.second .identifier))
    (.or (.third .ops) (.and (.third .op) (.not (.third .op)))), .second .word⟩)

theorem soleColon : Grammar.soleColon.Steady n := .and .op (.not .op)

theorem whereEnd : Grammar.whereEnd.Steady n := .any ⟨.end_, .brace, .ops, .soleColon⟩

theorem valuePathStart : Grammar.valuePathStart.Steady n := .any ⟨.identifier, .ops, .words⟩

theorem soleBar : Grammar.soleBar.Steady n := .and .op (.not .ops)

theorem closureBinderAhead : Grammar.closureBinderAhead.Steady n :=
  .and .word (.and (.second .op) (.or (.third .lifetime) (.third .op)))

theorem expressionStart : Grammar.expressionStart.Steady n :=
  .any ⟨.anyWord, .paren, .bracket, .brace, .literal, .lifetime, .ops, .and .op (.not .op),
    .and .op (.not .ops), .and .op (.not .op), .and .op (.not .op), .and .op (.not .op),
    .and .op (.not .ops)⟩

theorem afterOpenRange : Grammar.afterOpenRange.Steady n :=
  .any ⟨.end_, .ops, .and .op (.not .op), .word⟩

theorem assignAhead : Grammar.assignAhead.Steady n := .and .op (.not .op)

theorem closureStart : Grammar.closureStart.Steady n :=
  .any ⟨.op, .word, .closureBinderAhead, .and .word (.not (.second .brace)), .word,
    .and .word (.second (.or .op .word))⟩

theorem asyncBlockStart : Grammar.asyncBlockStart.Steady n :=
  .and .word (.or (.second .brace) (.and (.second .word) (.third .brace)))

theorem builtinStart : Grammar.builtinStart.Steady n := .and .word (.second .op)

theorem pathStart : Grammar.pathStart.Steady n :=
  .or .valuePathStart (.and .word (.second .ops))

theorem soleDot : Grammar.soleDot.Steady n := .and .op (.not .op)

theorem afterCast : Grammar.afterCast.Steady n := .any ⟨.soleDot, .op, .bracket, .paren⟩

theorem itemStart : Grammar.itemStart.Steady n :=
  .any ⟨.words, .and .word (.not (.second .op)), .and .word (.second (.or .word .identifier)),
    .and .word (.not (.any ⟨.second .brace, .second .words, .second .op,
      .and (.second .word) (.not (.third .words))⟩)),
    .and .word (.not (.second .brace)), .and .word (.second .words),
    .and .word (.second .identifier), .and .word (.second .word), .and .word (.second .words)⟩

theorem macroStart : Grammar.macroStart.Steady n := .any ⟨.identifier, .words, .op⟩

theorem autoTrait : Grammar.autoTrait.Steady n := .and .word (.second .word)

end Look.Steady

namespace Reader.Carries
variable {n : Nat} {g : Rules} (hg : g.AreSteady n)
include hg

/-! ### Attributes -/

/-- A sole literal is known by what is ahead. -/
theorem attributeValue : (Grammar.attributeValue g).Steady n := by
  refine .bind (.ahead (.bind .literal fun _ => .look .end_ fun _ => .ite (.pure rfl) .failHere))
    fun sole => .cond (by simp) .literal ?_
  exact .look (.and .op (.second .bracket)) fun _ => .ite .failHere (.one hg.expression)

theorem attributeBody : (Grammar.attributeBody g).Steady n :=
  .bind .attributePath fun _ => .bind (.choose ⟨⟨.any ⟨.paren, .bracket, .brace⟩, .anyGroup⟩,
    ⟨.op, .seq ⟨.op, .attributeValue hg⟩⟩, .always, .empty⟩) fun _ => .pure (by simp)

theorem outerAttribute : (Grammar.outerAttribute g).Steady n :=
  .seq ⟨.op, .brackets (.attributeBody hg)⟩

theorem innerAttribute : (Grammar.innerAttribute g).Steady n :=
  .seq ⟨.op, .op, .brackets (.attributeBody hg)⟩

theorem outerAttributes : (Grammar.outerAttributes g).Steady n :=
  .whileLook .op (.outerAttribute hg)

theorem innerAttributes : (Grammar.innerAttributes g).Steady n :=
  .whileLook (.and .op (.second .op)) (.innerAttribute hg)

theorem bodyArguments_pushed (tree : Tree) :
    bodyArguments g (pushed n tree) = pushed n (bodyArguments g tree) := by
  cases tree with
  | group delimiter inner span => exact (congrArg _ (pushed_group ..)).trans (hg.arguments inner)
  | _ => rfl

/-- The arguments of a macro are read from its body, which is pushed. -/
theorem invocation {path path' : List Node} (h : path' = pushed n path) :
    (Grammar.invocation g path).Carries n (Grammar.invocation g path') :=
  .bind .op fun _ => .bind (.treeIf (.any ⟨.paren, .bracket, .brace⟩)) fun _ =>
    .pure (by simp [h, bodyArguments_pushed hg])

/-! ### Paths and bounds -/

theorem blockBody : (Grammar.blockBody g).Steady n :=
  .braces (.seq ⟨.innerAttributes hg, hg.statements⟩)

theorem constantArgument : (Grammar.constantArgument g).Steady n :=
  .choose ⟨⟨.literal, .literal⟩, ⟨.identifier, .identifier⟩, .brace, .blockBody hg⟩

theorem boundNodes {capturing constant : Bool} :
    (Grammar.boundNodes g capturing constant).Steady n :=
  .bind hg.bound fun (_, _) => .pure rfl

/-- Whether a type is the name of something that is bound is seen by its form. -/
theorem genericArgument : (Grammar.genericArgument g).Steady n := by
  refine .look (.and .lifetime (.not (.second .op))) fun _ =>
    .ite (.bind .lifetime fun _ => .pure rfl) ?_
  refine .look (.or .literal .brace) fun _ =>
    .ite (.bind (.constantArgument hg) fun _ => .pure rfl) ?_
  refine .bind hg.type fun type => ?_
  cases type with
  | phrase form parts =>
    cases form with
    | path role qualified =>
      rcases role, qualified with ⟨_ | _ | _, _ | _⟩
      case type.false =>
        rcases parts with _ | ⟨_ | _ | ⟨form, inner⟩ | _ | _, _ | ⟨_, _⟩⟩
        case cons.phrase.nil =>
          cases form with
          | segment name =>
            exact .look .op fun _ => .ite (.bind .op fun _ => .look (.or .literal .brace) fun _ =>
                .ite (.bind (.constantArgument hg) fun _ => .pure (by simp))
                (.bind hg.type fun _ => .pure (by simp)))
              (.look .op fun _ => .ite (.bind .op fun _ =>
                .bind (.chain .ops (.boundNodes hg)) fun _ => .pure (by simp)) (.pure rfl))
          | _ => exact .pure rfl
        case cons.phrase.cons => cases form <;> exact .pure rfl
        all_goals exact .pure rfl
      all_goals exact .pure rfl
    | _ => exact .pure rfl
  | _ => exact .pure rfl

theorem genericArguments : (Grammar.genericArguments g).Steady n := by
  refine .bind (.seq ⟨.optionalOp, .op⟩) fun front => .bind (.repeated ?_) fun arguments =>
    .bind .op fun _ => .pure (by simp)
  refine .look .op fun _ => .ite (.pure rfl) (.bind (.genericArgument hg) fun (role, parts) => ?_)
  exact .look .op fun _ => .ite (.pure (by simp)) (.bind .op fun _ => .pure (by simp))

/-- In an expression, arguments need a double colon in front of them. -/
theorem pathSegment {inExpression : Bool} : (Grammar.pathSegment g inExpression).Steady n := by
  have hopens : (if inExpression then Look.none
      else .and (.op "<") (.not (.op "<="))).Steady n := by
    split
    · exact .none
    · exact .and .op (.not .op)
  refine .look .words fun _ => .ite (.bind .takeWord fun (_, _) => .pure (by simp)) ?_
  refine .bind (.wordIf (.or .word .identifier)) fun (_, _) =>
    .look (.or hopens (.and .op (.third .op))) fun _ => .ite ?_ (.pure (by simp))
  exact .bind (.genericArguments hg) fun _ => .pure (by simp)

theorem path {inExpression : Bool} : (Grammar.path g inExpression).Steady n :=
  .seq ⟨.optionalOp, .pathSegment hg, .whileLook (.and .op (.not (.third .paren)))
    (.seq ⟨.op, .pathSegment hg⟩)⟩

/-- A path may start with a type in angle brackets. -/
theorem qualifiedPath {inExpression : Bool} : (Grammar.qualifiedPath g inExpression).Steady n :=
  .look .op fun _ => .ite
    (.bind (.seq ⟨.op, .one hg.type, .onlyIf .word (.seq ⟨.word, .path hg⟩), .op, .op,
      .pathSegment hg, .whileLook .op (.seq ⟨.op, .pathSegment hg⟩)⟩) fun _ => .pure rfl)
    (.bind (.path hg) fun _ => .pure rfl)

theorem lifetimeBinder : (Grammar.lifetimeBinder g).Steady n :=
  .seq ⟨.word, .op, .upTo .op (.seq ⟨.outerAttributes hg, .lifetime⟩), .op⟩

theorem optionalBinder : (Grammar.optionalBinder g).Steady n := .onlyIf .word (.lifetimeBinder hg)

theorem returnType {plus : Bool} : (Grammar.returnType g plus).Steady n :=
  .onlyIf .op (.seq ⟨.op, .one hg.type⟩)

theorem functionArguments : (Grammar.functionArguments g).Steady n :=
  .seq ⟨.parens (.commas (.one hg.type)), .returnType hg⟩

/-- Only what fails needs the places here. -/
theorem traitBound {constant : Bool} : (Grammar.traitBound g constant).Steady n := by
  refine .bind (.optionalBinder hg) fun early => .here fun _ _ =>
    .look (.or .bracket .word) fun isConstant => ?_
  refine .look .bracket fun _ => .iteBind .rfl (.brackets .word) .optionalWord fun mark =>
    .failAtIf .rfl (.here fun _ _ => ?_)
  refine .bind .optionalOp fun question =>
    .iteBind (by simp) (.optionalBinder hg) .empty fun late => ?_
  refine .bind (.path hg) fun parts => .look (.or .paren (.and .op (.third .paren))) fun _ => ?_
  exact .cond (by simp)
    (.bind .optionalOp fun _ => .bind (.functionArguments hg) fun arguments =>
      .failAtIf (by simp) (.pure (by simp)))
    (.bind .empty fun arguments => .failAtIf (by simp) (.pure (by simp)))

theorem bound {capturing constant : Bool} : (Grammar.bound g capturing constant).Steady n := by
  refine .look .lifetime fun _ => .ite (.bind .lifetime fun _ => .pure rfl) ?_
  refine .look .word fun _ => .ite (.here fun _ _ => .bind .captures fun _ =>
    .ite (.pure rfl) .failAt) ?_
  refine .bind (.written (.look .paren fun _ => .ite
    (.bind (.inGroup (.traitBound hg)) fun ((_, _), _) => .pure (by simp)) (.traitBound hg)))
    fun ((isConstant, _), _) => .pure (by cases isConstant <;> rfl)

/-- Bounds without a trait are refused at a place that may be any. -/
theorem objectBounds {p q : Position} {plus capturing constant : Bool} :
    (Grammar.objectBounds g p plus capturing constant).Carries n
      (Grammar.objectBounds g q plus capturing constant) := by
  have hstarts : (if constant then .or Grammar.boundStart (.or .bracket (.word "const"))
      else Grammar.boundStart).Steady n := by
    split
    · exact .or .boundStart (.or .bracket .word)
    · exact .boundStart
  refine .bind (.repeated (.bind hg.bound fun (kind, nodes) => ?_)) fun bounds => ?_
  · exact .look .op fun _ => .ite (.bind .op fun _ => .look hstarts fun _ => .pure (by simp))
      (.pure rfl)
  · rw [any_pushed n fun _ => rfl]
    exact .ite (.pure (pushed_flatMap (f := Prod.snd) n (fun _ => rfl) bounds)) .failAt

theorem moreBounds : (Grammar.moreBounds g).Steady n :=
  .whileLook .op (.seq ⟨.op, .boundNodes hg⟩)

/-! ### Function pointers -/

theorem pointerParameter {first : Bool} : (Grammar.pointerParameter g first).Steady n := by
  have hname : (Look.any [.identifier, .word "_",
      if first then .word "self" else .none]).Steady n :=
    .any ⟨.identifier, .word, by
      split
      · exact .word
      · exact .none⟩
  refine .look .mutableSelf fun _ => .ite (.asWritten (.bind .word fun _ =>
    .look .namedAhead fun _ => .ite (.seq ⟨.word, .op, .one hg.type⟩) .word)) ?_
  refine .iteBind .rfl (.answer .word) (.pure rfl) fun receiver => ?_
  refine .bind (.onlyIf (.and hname .namedAhead) (.seq ⟨.anyWord, .op⟩)) fun named => ?_
  refine .look .mutableSelf fun _ => .cond (by simp) ?_ (.bind hg.type fun _ => .pure (by simp))
  exact .bind (.seq ⟨.word, .word⟩) fun _ => .pure (by simp)

/-- A parameter of a function pointer, or the dots that stand for more of them. -/
theorem pointerItem {first : Bool} : (Grammar.pointerItem g first).Steady n := by
  refine .look .end_ fun _ => .ite (.pure rfl) (.bind (.outerAttributes hg) fun _ => ?_)
  refine .look .variadicAhead fun _ => .ite (.bind .pointerVariadic fun _ => .pure (by simp)) ?_
  refine .bind (.pointerParameter hg) fun _ => .look .end_ fun _ => .ite (.pure (by simp)) ?_
  exact .bind .op fun _ => .pure (by simp)

theorem pointerParameters : (Grammar.pointerParameters g).Steady n :=
  .bind (.pointerItem hg) fun (_, _) => .ite
    (.bind (.repeated (.pointerItem hg)) fun _ => .pure (by simp)) (.pure rfl)

theorem functionPointer : (Grammar.functionPointer g).Steady n :=
  .seq ⟨.optionalWord, .optionalConvention, .word, .parens (.pointerParameters hg), .returnType hg⟩

/-! ### Types -/

theorem parenContent : (Grammar.parenContent g).Steady n := by
  refine .look .end_ fun _ => .ite (.pure rfl) (.look .lifetime fun _ => .ite
    (.here fun _ _ => .bind (.objectBounds hg) fun _ => .pure rfl) ?_)
  refine .look .op fun _ => .ite (.bind (.traitBound hg) fun (_, _) => .pure rfl) ?_
  refine .bind hg.type fun _ => .look .op fun _ => .ite (.bind .op fun _ => ?_) (.pure rfl)
  exact .bind (.commas (.one hg.type)) fun _ => .pure (by simp; rfl)

/-- What stands in parentheses decides what may follow them. -/
theorem parenType {plus : Bool} : (Grammar.parenType g plus).Steady n := by
  refine .bind (.inGroup (.parenContent hg)) fun ((content, inner), span) => ?_
  cases content with
  | tuple => exact .pure (by simp)
  | bounds => exact .pure (by simp)
  | maybe => exact .bind (.moreBounds hg) fun _ => .pure (by simp)
  | type first =>
    exact .cond (by simp) (.bind (.moreBounds hg) fun _ => .pure (by simp)) (.pure (by simp))

/-- A path, a macro in place of a type, or bounds. -/
theorem pathType {binder binder' : List Node} (h : binder' = pushed n binder) {plus : Bool} :
    (Grammar.pathType g binder plus).Carries n (Grammar.pathType g binder' plus) := by
  subst h
  refine .bind (.qualifiedPath hg) fun (qualified, parts) => .ite (.pure (by simp)) ?_
  refine .look .bangAhead fun _ => .cond (by simp) (.invocation hg (by simp)) ?_
  refine .look .op fun _ => .cond (by simp) (.pure (by simp)) ?_
  refine .iteBind .rfl (.repeated (.look .op fun _ => .ite (.bind .op fun _ => ?_) (.pure rfl)))
    .empty fun more => .pure (by simp)
  exact .look .boundStart fun _ => .ite (.bind (.boundNodes hg) fun _ => .pure (by simp))
    (.pure rfl)

theorem objectType {plus : Bool} : (Grammar.objectType g plus).Steady n := by
  refine .here fun _ _ => .bind (.written (.bind .word fun _ => .bind .optionalOp fun _ =>
    .bind (.objectBounds hg) fun _ => .pure (by simp))) fun ((star, _), _) => .pure ?_
  cases star <;> simp

/-- Every form of a type. -/
theorem type {plus : Bool} : (Grammar.type g plus).Steady n := by
  have hpath : (Look.or .identifier (.words ["super", "self", "Self", "crate"])).Steady n :=
    .or .identifier .words
  refine .bind (.optionalBinder hg) fun binder => .look (.or hpath .words) fun _ =>
    .failHereIf (by simp) ?_
  refine .look .paren fun _ => .ite (.parenType hg) (.look .words fun _ => .ite
    (.bind (.functionPointer hg) fun _ => .pure (by simp)) ?_)
  refine .look (.or hpath .ops) fun _ => .ite (.pathType hg rfl) (.look .word fun _ => .ite
    (.objectType hg) (.here fun p q => .node (.choose₂ ?_)))
  exact
    .cons ⟨rfl, .bracket, .brackets (.seq ⟨.one hg.type,
      .onlyIf .op (.seq ⟨.op, .one hg.expression⟩)⟩)⟩ <|
    .cons ⟨rfl, .op, .seq ⟨.op, .choose ⟨⟨.word, .word⟩, .word, .word⟩, .one hg.type⟩⟩ <|
    .cons ⟨rfl, .op, .seq ⟨.op, .optionalLifetime, .optionalWord, .one hg.type⟩⟩ <|
    .cons ⟨rfl, .op, .op⟩ <|
    .cons ⟨rfl, .word, .seq₂ (.cons .word (.cons (.objectBounds hg) .nil))⟩ <|
    .cons ⟨rfl, .word, .word⟩ <|
    .cons ⟨rfl, .lifetime, .objectBounds hg⟩ .nil

/-! ### Parameters and conditions -/

theorem typeParameter : (Grammar.typeParameter g).Steady n :=
  .seq ⟨.identifier, .onlyIf .op (.seq ⟨.op, .chain (.or .end_ .ops) (.boundNodes hg)⟩),
    .onlyIf .op (.seq ⟨.op, .one hg.type⟩)⟩

theorem constantParameter : (Grammar.constantParameter g).Steady n :=
  .seq ⟨.word, .identifier, .op, .one hg.type, .onlyIf .op (.seq ⟨.op, .constantArgument hg⟩)⟩

theorem genericParameters : (Grammar.genericParameters g).Steady n :=
  .seq ⟨.op, .upTo .op (.seq ⟨.outerAttributes hg, .choose ⟨⟨.lifetime, .lifetimeParameter⟩,
    ⟨.identifier, .typeParameter hg⟩, ⟨.word, .constantParameter hg⟩, .word, .word⟩⟩), .op⟩

theorem optionalGenerics : (Grammar.optionalGenerics g).Steady n :=
  .onlyIf .op (.genericParameters hg)

theorem wherePredicate : (Grammar.wherePredicate g).Steady n :=
  .look (.and .lifetime (.second .op)) fun _ => .ite
    (.seq ⟨.lifetime, .op, .chain (.any ⟨.end_, .brace, .ops⟩) .lifetime⟩)
    (.seq ⟨.optionalBinder hg, .one hg.type, .op, .chain .whereEnd (.boundNodes hg)⟩)

theorem optionalWhere : (Grammar.optionalWhere g).Steady n :=
  .onlyIf .word (.seq ⟨.word, .chain .whereEnd (.wherePredicate hg)⟩)

/-! ### Patterns -/

theorem constantBlock : (Grammar.constantBlock g).Steady n := .seq ⟨.word, .blockBody hg⟩

theorem valuePath : (Grammar.valuePath g).Steady n :=
  .bind (.qualifiedPath hg) fun (_, _) => .pure (by simp)

theorem rangeBound : (Grammar.rangeBound g).Steady n :=
  .look (.any ⟨.end_, .ops, .word, .and .op (.not .op)⟩) fun _ => .ite .empty
    (.choose ⟨⟨.literal, .literal⟩, ⟨.valuePathStart, .one (.valuePath hg)⟩, .word,
      .bind (.constantBlock hg) fun _ => .pure (by simp)⟩)

theorem rangeRest {lower lower' : List Node} (h : lower' = pushed n lower) :
    (Grammar.rangeRest g lower).Carries n (Grammar.rangeRest g lower') :=
  .bind .rangeOperator fun (_, _) => .bind (.rangeBound hg) fun _ =>
    .failHereIf (by simp) (.pure (by simp [h]))

theorem rangeFromDots : (Grammar.rangeFromDots g).Steady n :=
  .bind .rangeOperator fun (_, _) => .bind (.rangeBound hg) fun _ =>
    .failHereIf (by simp) (.pure (by simp))

theorem fieldPattern : (Grammar.fieldPattern g).Steady n := by
  refine .bind (.seq ⟨.optionalWord, .optionalWord, .optionalWord⟩) fun _ =>
    .cond (by simp) (.bind .identifier fun _ => .pure (by simp)) ?_
  refine .bind .fieldName fun (_, _) => .look .op fun _ => .cond (by simp) ?_ (.pure rfl)
  exact .bind (.seq ⟨.op, .one hg.alternatives⟩) fun _ => .pure (by simp)

/-- Two dots end the fields of a pattern. -/
theorem structPattern : (Grammar.structPattern g).Steady n := by
  refine .braces (.repeated (.look .end_ fun _ => .ite (.pure rfl) ?_))
  refine .bind (.outerAttributes hg) fun _ => .look .op fun _ =>
    .ite (.bind .op fun _ => .pure (by simp)) (.bind (.fieldPattern hg) fun _ => ?_)
  exact .look .end_ fun _ => .ite (.pure (by simp)) (.bind .op fun _ => .pure (by simp))

theorem pathPattern : (Grammar.pathPattern g).Steady n := by
  refine .bind (.qualifiedPath hg) fun (qualified, parts) => .look .bangAhead fun _ =>
    .cond (by simp) (.invocation hg (by simp)) ?_
  refine .look .brace fun _ => .ite (.bind (.structPattern hg) fun _ => .pure (by simp)) ?_
  refine .look .paren fun _ => .ite
    (.bind (.parens (.commas (.one hg.alternatives))) fun _ => .pure (by simp)) ?_
  exact .look .op fun _ => .ite (.rangeRest hg (by simp)) (.pure (by simp))

theorem bindingPattern : (Grammar.bindingPattern g).Steady n :=
  .seq ⟨.optionalWord, .optionalWord, .choose ⟨⟨.word, .word⟩, .always, .identifier⟩,
    .onlyIf .op (.seq ⟨.op, .one hg.pattern⟩)⟩

theorem sliceElement : (Grammar.sliceElement g).Steady n := by
  refine .bind hg.alternatives fun element => ?_
  cases element with
  | phrase form parts =>
    cases form with
    | openRange =>
      -- Wherever the operator stands, a range without an end is refused.
      rw [pushed_phrase]
      dsimp only
      cases rangePlace parts <;> cases rangePlace (pushed n parts) <;> exact ⟨fun _ => .fails ..⟩
    | _ => exact .pure rfl
  | _ => exact .pure rfl

/-- Every form of a pattern. -/
theorem pattern : (Grammar.pattern g).Steady n := by
  refine .look (.any ⟨.and .identifier (.second (.any ⟨.ops, .brace, .paren⟩)),
    .and .word (.second .op), .ops, .words⟩) fun _ => .ite (.pathPattern hg) ?_
  refine .look .word fun _ => .ite (.node .word) (.look .word fun _ => .ite
    (.node (.asWritten (.seq ⟨.word, .one hg.pattern⟩))) ?_)
  refine .look (.any ⟨.op, .literal, .word⟩) fun _ => .ite (.bind (.rangeBound hg) fun _ =>
    .look .op fun _ => .ite (.rangeRest hg rfl) (.pure (by simp))) ?_
  refine .look (.or .identifier .words) fun _ => .ite (.node (.bindingPattern hg)) ?_
  refine .look .op fun _ => .ite (.node (.seq ⟨.op, .optionalWord, .one hg.pattern⟩)) ?_
  refine .look .paren fun _ => .ite (.node (.parens (.commas (.one hg.alternatives)))) ?_
  refine .look .bracket fun _ => .ite (.node (.brackets (.commas (.sliceElement hg)))) ?_
  exact .look (.and .op (.not .op)) fun _ => .ite (.rangeFromDots hg) .failHere

theorem alternatives : (Grammar.alternatives g).Steady n := by
  refine .bind .optionalOp fun _ => .bind hg.pattern fun _ => .look .soleBar fun _ =>
    .cond (by simp) (.pure rfl) ?_
  exact .bind (.whileLook .soleBar (.seq ⟨.op, .one hg.pattern⟩)) fun _ => .pure (by simp)

/-! ### Operands -/

theorem plainBlock : (Grammar.plainBlock g).Steady n := .braces hg.statements

theorem condition : (Grammar.condition g).Steady n := .one hg.expression

theorem ifExpression : (Grammar.ifExpression g).Steady n := by
  refine .repeated (.bind (.seq ⟨.word, .condition hg, .plainBlock hg⟩) fun _ =>
    .look .word fun _ => .ite (.bind .word fun _ => ?_) (.pure rfl))
  exact .look .word fun _ => .ite (.pure (by simp))
    (.bind (.plainBlock hg) fun _ => .pure (by simp))

theorem whileExpression : (Grammar.whileExpression g).Steady n :=
  .seq ⟨.word, .condition hg, .blockBody hg⟩

theorem forExpression : (Grammar.forExpression g).Steady n :=
  .seq ⟨.word, .one hg.alternatives, .word, .condition hg, .blockBody hg⟩

theorem loopExpression : (Grammar.loopExpression g).Steady n := .seq ⟨.word, .blockBody hg⟩

/-- An arm that is no block needs a comma behind it, unless it is the last one. -/
theorem matchArm : (Grammar.matchArm g).Steady n := by
  refine .bind (.seq ⟨.outerAttributes hg, .one hg.alternatives,
    .onlyIf .word (.seq ⟨.word, .one hg.expression⟩), .op⟩) fun _ => ?_
  exact .bind hg.standing fun _ => .look .end_ fun _ =>
    .iteBind (by simp [isBlockLike]) .optionalOp .op fun _ => .pure (by simp)

theorem matchExpression : (Grammar.matchExpression g).Steady n :=
  .seq ⟨.word, .condition hg, .braces (.seq ⟨.innerAttributes hg, .ruleUntilEnd (.matchArm hg)⟩)⟩

theorem tryBlock : (Grammar.tryBlock g).Steady n := .seq ⟨.word, .plainBlock hg⟩

theorem unsafeBlock : (Grammar.unsafeBlock g).Steady n := .seq ⟨.word, .blockBody hg⟩

theorem labeled : (Grammar.labeled g).Steady n :=
  .seq ⟨.lifetime, .op, .choose ⟨⟨.word, .whileExpression hg⟩, ⟨.word, .forExpression hg⟩,
    ⟨.word, .loopExpression hg⟩, .brace, .blockBody hg⟩⟩

theorem blockLike : (Grammar.blockLike g).Forall fun p => p.1.Steady n ∧ p.2.Steady n :=
  ⟨⟨.word, .ifExpression hg⟩, ⟨.word, .whileExpression hg⟩,
    ⟨.and .word (.not .closureBinderAhead), .forExpression hg⟩, ⟨.word, .loopExpression hg⟩,
    ⟨.word, .matchExpression hg⟩, ⟨.and .word (.second .brace), .tryBlock hg⟩,
    ⟨.word, .unsafeBlock hg⟩, ⟨.and .word (.second .brace), .constantBlock hg⟩,
    ⟨.brace, .blockBody hg⟩, .lifetime, .labeled hg⟩

theorem parenExpression : (Grammar.parenExpression g).Steady n := by
  refine .bind (.inGroup (.look .end_ fun _ => .ite (.pure rfl) (.bind hg.expression fun _ => ?_)))
    fun ((sole, _), _) => .pure (by simp)
  refine .look .end_ fun _ => .ite (.pure rfl) (.bind .op fun _ => ?_)
  exact .bind (.commas (.one hg.expression)) fun _ => .pure (by simp)

theorem arrayExpression : (Grammar.arrayExpression g).Steady n := by
  refine .brackets (.look .end_ fun _ => .ite (.pure rfl) (.bind hg.expression fun _ => ?_))
  refine .look .end_ fun _ => .ite (.pure rfl) (.look .op fun _ => .ite (.bind .op fun _ => ?_) ?_)
  · exact .bind (.commas (.one hg.expression)) fun _ => .pure (by simp)
  · exact .bind (.seq ⟨.op, .one hg.expression⟩) fun _ => .pure rfl

theorem fieldValue : (Grammar.fieldValue g).Steady n := by
  refine .bind (.outerAttributes hg) fun _ => .bind .fieldName fun (_, _) => .look .op fun _ =>
    .cond (by simp) ?_ (.pure (by simp))
  exact .bind (.seq ⟨.op, .one hg.expression⟩) fun _ => .pure (by simp)

theorem structFields : (Grammar.structFields g).Steady n := by
  refine .braces (.repeated (.look .end_ fun _ => .ite (.pure rfl) (.look .op fun _ => .ite ?_ ?_)))
  · exact .bind (.seq ⟨.op, .onlyIf (.not .end_) (.one hg.expression)⟩) fun _ => .pure rfl
  · exact .bind (.fieldValue hg) fun _ => .look .end_ fun _ => .ite (.pure rfl)
      (.bind .op fun _ => .pure (by simp))

theorem pathExpression {structs : Bool} : (Grammar.pathExpression g structs).Steady n := by
  refine .bind (.qualifiedPath hg) fun (_, _) => .look .bangAhead fun _ =>
    .cond (by simp) (.invocation hg (by simp)) ?_
  exact .look .brace fun _ => .ite (.bind (.structFields hg) fun _ => .pure (by simp))
    (.pure (by simp))

theorem closureParameter : (Grammar.closureParameter g).Steady n :=
  .seq ⟨.outerAttributes hg, .one hg.pattern, .onlyIf .op (.seq ⟨.op, .one hg.type⟩)⟩

theorem closure {structs : Bool} : (Grammar.closure g structs).Steady n := by
  refine .bind (.seq ⟨.optionalBinder hg, .optionalWord, .optionalWord, .optionalWord,
    .optionalWord, .op, .upTo .op (.closureParameter hg), .op⟩) fun _ => ?_
  exact .look .op fun _ => .ite
    (.bind (.seq ⟨.op, .one hg.type, .plainBlock hg⟩) fun _ => .pure (by simp))
    (.bind hg.expression fun _ => .pure (by simp))

theorem breakExpression {structs : Bool} : (Grammar.breakExpression g structs).Steady n := by
  have hvalue : (if structs then expressionStart
      else .and expressionStart (.not .brace)).Steady n := by
    split
    · exact .expressionStart
    · exact .and .expressionStart (.not .brace)
  refine .bind .word fun _ => .look (.and .lifetime (.second .op)) fun _ =>
    .ite (.here fun _ _ => .bind hg.expression fun _ => .failAt_bind) ?_
  exact .bind .optionalLifetime fun _ => .bind (.onlyIf hvalue (.one hg.expression)) fun _ =>
    .pure (by simp)

theorem letExpression {structs : Bool} : (Grammar.letExpression g structs).Steady n :=
  .bind (.seq ⟨.word, .one hg.alternatives, .op⟩) fun _ => .bind hg.operand fun _ =>
    .bind hg.operators fun _ => .pure (by simp)

omit hg in
theorem binaryOperator?_pushed (trees : List Tree) :
    binaryOperator? (pushed n trees) = binaryOperator? trees := by
  simp only [binaryOperator?, Look.Steady.op.eq]

omit hg in
theorem nextLevel_pushed (trees : List Tree) : nextLevel (pushed n trees) = nextLevel trees := by
  simp only [nextLevel, binaryOperator?_pushed, Look.Steady.assignAhead.eq, Look.Steady.op.eq,
    Look.Steady.word.eq]

/-- The level of the next operator decides how long a right operand is. -/
theorem tighterOperators {structs : Bool} {level : Level} {bound : Nat} {right : Node} :
    (Grammar.tighterOperators g structs level bound right).Carries n
      (Grammar.tighterOperators g structs level bound (pushed n right)) := by
  induction bound generalizing right with
  | zero => exact .pure rfl
  | succ bound ih =>
    refine .stream fun s t hs => ?_
    simp only [hs.rest, nextLevel_pushed, length_pushed]
    refine .ite (.bind hg.operators fun longer => .stream fun s' t' hs' => ?_) (.pure rfl)
    rw [hs'.rest, length_pushed]
    exact .ite (.pure rfl) ih

theorem rightOperand {structs : Bool} {level : Level} :
    (Grammar.rightOperand g structs level).Steady n :=
  .bind hg.operand fun _ => .stream fun s t hs => by
    rw [hs.rest, length_pushed]
    exact .tighterOperators hg

theorem rangeEnd {structs closed : Bool} : (Grammar.rangeEnd g structs closed).Steady n := by
  have hstops : (if structs then afterOpenRange else .or afterOpenRange .brace).Steady n := by
    split
    · exact .afterOpenRange
    · exact .or .afterOpenRange .brace
  exact .look hstops fun _ => .ite .empty (.one (.rightOperand hg))

theorem rangeFrom {structs : Bool} {lower lower' : List Node} (h : lower' = pushed n lower) :
    (Grammar.rangeFrom g structs lower).Carries n (Grammar.rangeFrom g structs lower') :=
  .bind .rangeOperator fun (_, _) => .bind (.rangeEnd hg) fun _ => .pure (by simp [h])

/-- An operand without operators in front of it or behind it. -/
theorem atom {structs : Bool} : (Grammar.atom g structs).Steady n := by
  refine .look .literal fun _ => .ite (.node .literal) (.look .asyncBlockStart fun _ =>
    .ite (.node (.seq ⟨.word, .optionalWord, .plainBlock hg⟩)) ?_)
  refine .look .closureStart fun _ => .ite (.node (.closure hg)) (.look .builtinStart fun _ =>
    .ite (.node (.asWritten (.seq ⟨.word, .op, .identifier, .token (.treeIf .paren)⟩))) ?_)
  refine .look .pathStart fun _ => .ite (.pathExpression hg) (.look .paren fun _ =>
    .ite (.parenExpression hg) (.look .word fun _ => .ite (.node (.breakExpression hg)) ?_))
  refine .look .word fun _ => .ite (.node (.seq ⟨.word, .optionalLifetime⟩)) (.look .word fun _ =>
    .ite (.node (.seq ⟨.word, .onlyIf .expressionStart (.one hg.expression)⟩)) ?_)
  refine .look .word fun _ => .ite (.node (.asWritten (.seq ⟨.word, .one hg.expression⟩))) ?_
  refine .look .bracket fun _ => .ite (.node (.arrayExpression hg)) (.look .word fun _ =>
    .ite (.node (.letExpression hg)) ?_)
  refine .look .word fun _ => .ite
    (.node (.seq ⟨.word, .onlyIf .expressionStart (.one hg.expression)⟩)) ?_
  exact .look .op fun _ => .ite (.rangeFrom hg rfl) (.look .word fun _ =>
    .ite (.node .word) (.node (.choose (blockLike hg))))

/-! ### Expressions -/

omit hg in
/-- Fields that were scanned as one number. -/
theorem nestedFields_pushed (e : Node) (dot : List Node) (span : Span) (indices : List Nat) :
    nestedFields (pushed n e) (pushed n dot) (pushed n span) indices =
      pushed n (nestedFields e dot span indices) := by
  induction indices generalizing e dot with
  | nil => rfl
  | cons index indices ih => simp [nestedFields, ← ih]

theorem afterDot {e e' : Node} {dot dot' : List Node} (he : e' = pushed n e)
    (hdot : dot' = pushed n dot) :
    (Grammar.afterDot g e dot).Carries n (Grammar.afterDot g e' dot') := by
  subst he hdot
  refine .look .word fun _ => .ite (.bind .word fun _ => .pure (by simp)) ?_
  refine .bind .fieldName fun (name, node) => ?_
  cases name with
  | none => exact .pure (by simp)
  | some name =>
    refine .bind (.onlyIf .op (.one (.genericArguments hg))) fun _ => .look .paren fun _ =>
      .cond (by simp) ?_ (.pure (by simp))
    exact .bind (.parens (.commas (.one hg.expression))) fun _ => .pure (by simp)

/-- Calls, fields and indices behind an operand. -/
theorem trailer {e : Node} : (Grammar.trailer g e).Carries n (Grammar.trailer g (pushed n e)) := by
  refine .look .paren fun _ => .ite
    (.bind (.parens (.commas (.one hg.expression))) fun _ => .pure (by simp)) ?_
  refine .look .soleDot fun _ => .cond (by simp) (.bind .op fun dot => ?_) ?_
  · refine .look .real fun _ => .ite (.here fun _ _ => .bind .anyTree fun tree => ?_)
      (.bind (.afterDot hg rfl rfl) fun _ => .pure rfl)
    cases tree with
    | literal text span =>
      rw [pushed_literal]
      dsimp only
      rcases nestedIndices text with _ | ⟨indices, _ | _⟩
      · exact .failAt
      · exact .pure (by simp [nestedFields_pushed])
      · exact .bind (.afterDot hg (nestedFields_pushed ..) rfl) fun _ => .pure rfl
    | _ => exact .failAt
  · refine .look .bracket fun _ => .ite
      (.bind (.brackets (.one hg.expression)) fun _ => .pure (by simp)) ?_
    exact .look .op fun _ => .cond (by simp) (.bind .op fun _ => .pure (by simp)) (.pure rfl)

theorem trailersUpTo {bound : Nat} {e : Node} :
    (Grammar.trailersUpTo g bound e).Carries n (Grammar.trailersUpTo g bound (pushed n e)) := by
  induction bound generalizing e with
  | zero => exact .pure rfl
  | succ bound ih =>
    refine .bind (.trailer hg) fun longer => ?_
    cases longer with
    | none => exact .pure rfl
    | some longer => exact ih

theorem trailers {e : Node} : (Grammar.trailers g e).Carries n (Grammar.trailers g (pushed n e)) :=
  .stream fun s t hs => by
    rw [hs.rest, length_pushed]
    exact .trailersUpTo hg

theorem borrow {structs : Bool} : (Grammar.borrow g structs).Steady n := by
  refine .bind .op fun _ => .bind (.onlyIf (.and .word (.second .words)) .word) fun _ =>
    .bind .optionalWord fun _ => .iteBind (by simp) .word .empty fun _ => ?_
  exact .bind hg.operand fun _ => .pure (by simp)

theorem operand {structs : Bool} : (Grammar.operand g structs).Steady n := by
  refine .bind (.outerAttributes hg) fun _ => .look .op fun _ => .ite
    (.bind (.borrow hg) fun _ => .pure (by simp [← attributed_pushed])) ?_
  refine .look .ops fun _ => .ite (.bind (.choose ⟨⟨.op, .op⟩, ⟨.op, .op⟩, .op, .op⟩) fun _ =>
    .bind hg.operand fun _ => .pure (by simp [← attributed_pushed])) ?_
  exact .here fun _ _ => .bind (.atom hg) fun _ => .bind (.trailers hg) fun _ =>
    .failAtIf (by simp) (.pure (by simp))

/-- One operator after the other, as long as the level allows. -/
theorem operatorsUpTo {structs : Bool} {base : Level} {bound : Nat} {left left' : Node}
    (h : left' = pushed n left) : (Grammar.operatorsUpTo g structs base bound left).Carries n
      (Grammar.operatorsUpTo g structs base bound left') := by
  induction bound generalizing left left' with
  | zero => exact .pure h
  | succ bound ih =>
    subst h
    refine .cond (by simp) (.pure rfl) (.stream fun s t hs => ?_)
    rw [hs.rest, binaryOperator?_pushed]
    rcases binaryOperator? s.rest with _ | ⟨text, level⟩
    · refine .look .assignAhead fun _ => .ite
        (.bind .op fun _ => .bind (.rightOperand hg) fun _ => ih (by simp)) ?_
      refine .look .op fun _ => .ite (.bind (.rangeFrom hg (by simp)) fun _ => ih rfl) ?_
      refine .look .word fun _ => .ite (.bind (.seq ⟨.word, .one hg.type⟩) fun _ => ?_) (.pure rfl)
      exact .look .afterCast fun _ => .failHereIf .rfl (ih (by simp))
    · refine .ite (.pure rfl) (.failHereIf (by simp) (.bind .op fun _ => ?_))
      exact .bind (.rightOperand hg) fun _ => ih (by simp)

theorem operators {left : Node} {structs : Bool} {base : Level} :
    (Grammar.operators g left structs base).Carries n
      (Grammar.operators g (pushed n left) structs base) :=
  .stream fun s t hs => by
    rw [hs.rest, length_pushed]
    exact .operatorsUpTo hg rfl

theorem expression {structs : Bool} : (Grammar.expression g structs).Steady n :=
  .bind hg.operand fun _ => hg.operators

/-- An expression at the start of a statement ends with a block. -/
theorem standing : (Grammar.standing g).Steady n := by
  have hlooks : (Look.any ((Grammar.blockLike g).map Prod.fst)).Steady n :=
    .any ((List.forall_map_iff _).mpr ((blockLike hg).imp fun _ h => h.1))
  refine .bind (.outerAttributes hg) fun _ => .look hlooks fun _ => .ite ?_ ?_
  · refine .bind (.node (.choose (blockLike hg))) fun _ => .look (.or .soleDot .op) fun _ =>
      .ite (.bind (.trailers hg) fun _ => ?_) (.pure (by simp))
    rw [attributed_pushed]
    exact hg.operators
  · refine .bind hg.operand fun _ => ?_
    rw [attributed_pushed]
    exact hg.operators

end Reader.Carries

end CalleeFirst.Grammar
