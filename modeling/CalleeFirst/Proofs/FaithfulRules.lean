import CalleeFirst.Proofs.Faithful

/-! The grammar makes faithful nodes.

`Rules.AreFaithful` says so of the rules that need each other, and a lemma for every other rule
derives it from that. Macros are made in two places only (`invocation`, `namedMacro`), where the
body is a group that was just taken and so is lighter than the trees. -/
namespace CalleeFirst.Grammar

open Lexeme (Delimiter Position Span Tree weight)
open Reader Rule
open Syntax (Block Form Item Member MemberKind Node)

/-! ### What is made of nodes -/

instance : HasNodes Parameter := ⟨fun parameter => HasNodes.nodes parameter.nodes⟩

instance : HasNodes Constant := ⟨fun found => HasNodes.nodes found.nodes⟩

instance : HasNodes Alias := ⟨fun found => HasNodes.nodes found.nodes⟩

/-- The nodes of a function that matter are those of its body. -/
instance : HasNodes MemberKind where
  nodes
    | .function _ body => HasNodes.nodes body
    | _ => []

instance : HasNodes Member := ⟨fun m => HasNodes.nodes m.kind⟩

instance : HasNodes Block := ⟨fun b => HasNodes.nodes b.members⟩

instance : HasNodes Item := ⟨fun i => HasNodes.nodes (i.node, i.blocks)⟩

namespace Faithful

@[grind =] theorem parameter {parameter : Parameter} :
    Faithful parameter ↔ Faithful parameter.nodes := Iff.rfl

@[grind =] theorem constant {found : Constant} : Faithful found ↔ Faithful found.nodes := Iff.rfl

@[grind =] theorem typeAlias {found : Alias} : Faithful found ↔ Faithful found.nodes := Iff.rfl

@[grind =] theorem function {signature : Syntax.Signature} {body : List Node} :
    Faithful (MemberKind.function signature body) ↔ Faithful body := Iff.rfl

@[grind =] theorem member {m : Member} : Faithful m ↔ Faithful m.kind := Iff.rfl

@[grind =] theorem block {b : Block} : Faithful b ↔ Faithful b.members := Iff.rfl

@[grind =] theorem item {i : Item} : Faithful i ↔ Faithful i.node ∧ Faithful i.blocks := pair

@[grind ←] theorem itemNodes {items : List Item} (h : Faithful items) :
    Faithful (items.map Item.node) :=
  map h fun _ h => (item.mp h).1

@[grind ←] theorem itemBlocks {items : List Item} (h : Faithful items) :
    Faithful (items.flatMap Item.blocks) :=
  flatMap h fun _ h => (item.mp h).2

end Faithful

/-! ### The rules that need each other -/

/-- The rules make faithful values of trees of this weight, and know the arguments of macros that
are lighter. -/
structure Rules.AreFaithful (n : Nat) (g : Rules) : Prop where
  type (plus : Bool) : (g.type plus).IsFaithful n
  bound (capturing constant : Bool) : (g.bound capturing constant).IsFaithful n
  expression (structs : Bool) : (g.expression structs).IsFaithful n
  operand (structs : Bool) : (g.operand structs).IsFaithful n
  operators {left : Node} (structs : Bool) (base : Level) (h : Faithful left) :
    (g.operators left structs base).IsFaithful n
  standing : g.standing.IsFaithful n
  pattern : g.pattern.IsFaithful n
  alternatives : g.alternatives.IsFaithful n
  statements : g.statements.IsFaithful n
  item {attributes : List Node} (h : Faithful attributes) : (g.item attributes).IsFaithful n
  useTree (root : Bool) : (g.useTree root).IsFaithful n
  arguments {inner : List Tree} (h : weight inner < n) : g.arguments inner = argumentsOf inner

attribute [grind ←] Rules.AreFaithful.type Rules.AreFaithful.bound Rules.AreFaithful.expression
  Rules.AreFaithful.operand Rules.AreFaithful.operators Rules.AreFaithful.standing
  Rules.AreFaithful.pattern Rules.AreFaithful.alternatives Rules.AreFaithful.statements
  Rules.AreFaithful.item Rules.AreFaithful.useTree

variable {n : Nat}

/-! ### Without other rules -/

@[grind ←] theorem plainPath_isFaithful : plainPath.IsFaithful n := by
  unfold plainPath
  refine .bind optionalOp_isFaithful fun root hroot =>
    .bind (.repeated ?_) fun segments hsegments => ?_
  · refine .skip fun _ => .ite (.bind .takeWord fun (name, node) hword => ?_) ?_ <;> grind
  · grind

@[grind ←] theorem attributePath_isFaithful : attributePath.IsFaithful n := by grind [attributePath]

@[grind ←] theorem captures_isFaithful : captures.IsFaithful n := by grind [captures]

@[grind ←] theorem optionalConvention_isFaithful : optionalConvention.IsFaithful n := by
  grind [optionalConvention]

@[grind ←] theorem pointerVariadic_isFaithful : pointerVariadic.IsFaithful n := by
  grind [pointerVariadic]

@[grind ←] theorem lifetimeParameter_isFaithful : lifetimeParameter.IsFaithful n := by
  grind [lifetimeParameter]

@[grind ←] theorem visibility_isFaithful : visibility.IsFaithful n := by
  unfold visibility
  refine .skip fun _ => .ite (by grind) (.bind word_isFaithful fun keyword hkeyword =>
    .skip fun s => ?_)
  split
  · grind
  · refine .bind (.inGroup (.bind word_isFaithful fun _ _ => ?_)) ?_ <;> grind
  · grind

@[grind ←] theorem visibilityNodes_isFaithful : visibilityNodes.IsFaithful n := by
  grind [visibilityNodes]

@[grind ←] theorem rangeOperator_isFaithful {obsolete : Bool} :
    (rangeOperator obsolete).IsFaithful n := by
  grind [rangeOperator]

@[grind ←] theorem fieldName_isFaithful : fieldName.IsFaithful n := by
  unfold fieldName
  refine .skip fun _ => .ite (by grind) (.skip fun place => .skip fun tree => ?_)
  grind

@[grind ←] theorem variadic_isFaithful : variadic.IsFaithful n := by grind [variadic]

@[grind ←] theorem qualifiers_isFaithful {safe : Bool} : (qualifiers safe).IsFaithful n := by
  grind [qualifiers]

@[grind ←] theorem externCrate_isFaithful : externCrate.IsFaithful n := by
  unfold externCrate
  exact seq_isFaithful (by simp only [List.forall_mem_cons]; grind)

/-- An item is legal and as it was read, or it is as it is written. -/
@[grind ←] theorem ifLegal_isFaithful {reader : Reader (Bool × List Node)}
    (h : reader.IsFaithful n) :
    (ifLegal reader).IsFaithful n := by grind [ifLegal]

section
variable {g : Rules} (hg : g.AreFaithful n)
include hg

/-! ### Attributes and macros -/

@[grind ←] theorem attributeValue_isFaithful : (attributeValue g).IsFaithful n := by
  unfold attributeValue
  refine .skip fun sole => .ite ?_ (.skip fun _ => ?_) <;> grind

@[grind ←] theorem attributeBody_isFaithful : (attributeBody g).IsFaithful n := by
  unfold attributeBody
  refine .bind attributePath_isFaithful fun path hpath => .bind ?_ fun rest hrest => ?_ <;> grind

@[grind ←] theorem outerAttribute_isFaithful : (outerAttribute g).IsFaithful n := by
  grind [outerAttribute]

@[grind ←] theorem innerAttribute_isFaithful : (innerAttribute g).IsFaithful n := by
  grind [innerAttribute]

@[grind ←] theorem outerAttributes_isFaithful : (outerAttributes g).IsFaithful n := by
  grind [outerAttributes]

@[grind ←] theorem innerAttributes_isFaithful : (innerAttributes g).IsFaithful n := by
  grind [innerAttributes]

/-- A macro is faithful whose body was just taken. -/
theorem faithful_invocation {s t : Stream} (hs : weight s.rest ≤ n) (braces : Bool)
    (head : List Node) (body : Tree)
    (h : (treeIf (.any [.paren, .bracket, .brace])).run s = .ok (body, t)) :
    Faithful (Node.invocation braces (head ++ [.token body]) (bodyArguments g body)) := by
  obtain ⟨hlook, hrest, _⟩ := of_run_treeIf h
  rw [hrest] at hlook
  -- The body is a group, and its inside is lighter than the trees that it was taken from.
  cases body with
  | group delimiter inner span =>
    have hlight : weight inner < n := Nat.lt_of_lt_of_le (Lexeme.weight_inner_lt hrest) hs
    rw [bodyArguments, hg.arguments hlight, Faithful.node_iff]
    exact .invocation
  | _ => simp [Look.any, Look.paren, Look.bracket, Look.brace, Look.group] at hlook

@[grind ←] theorem invocation_isFaithful {path : List Node} : (invocation g path).IsFaithful n where
  makes.of_run hs hrun := by
    obtain ⟨bang, s', hbang, hrun⟩ := of_run_bind hrun
    obtain ⟨body, t, hbody, hrun⟩ := of_run_bind hrun
    cases hrun
    exact faithful_invocation hg ((Reader.leads _ hbang).kept hs) body.isBrace (path ++ bang)
      body hbody

/-! ### Paths -/

@[grind ←] theorem blockBody_isFaithful : (blockBody g).IsFaithful n := by grind [blockBody]

@[grind ←] theorem constantArgument_isFaithful : (constantArgument g).IsFaithful n := by
  grind [constantArgument]

@[grind ←] theorem boundNodes_isFaithful {capturing constant : Bool} :
    (boundNodes g capturing constant).IsFaithful n := by
  grind [boundNodes]

@[grind ←] theorem genericArgument_isFaithful : (genericArgument g).IsFaithful n := by
  unfold genericArgument
  refine .skip fun _ => .ite (by grind) (.skip fun _ =>
    .ite (by grind) (.bind (hg.type true) fun type htype => ?_))
  split
  · refine .skip fun _ => .ite (.bind op_isFaithful fun sign hsign => ?_) ?_ <;> grind
  · grind

@[grind ←] theorem genericArguments_isFaithful : (genericArguments g).IsFaithful n := by
  unfold genericArguments
  refine .bind (by grind) fun front hfront => .bind (.repeated ?_) fun arguments harguments => ?_
  · refine .skip fun _ => .ite (by grind)
      (.bind (genericArgument_isFaithful hg) fun argument hargument => ?_)
    grind
  · grind

@[grind ←] theorem pathSegment_isFaithful {inExpression : Bool} :
    (pathSegment g inExpression).IsFaithful n := by
  unfold pathSegment
  refine .skip fun _ => .ite (by grind) (.bind .wordIf fun word hword => ?_)
  grind

@[grind ←] theorem path_isFaithful {inExpression : Bool} : (path g inExpression).IsFaithful n := by
  grind [path]

@[grind ←] theorem qualifiedPath_isFaithful {inExpression : Bool} :
    (qualifiedPath g inExpression).IsFaithful n := by
  unfold qualifiedPath
  refine .skip fun _ => .ite (.bind (seq_isFaithful ?_) fun parts hparts => ?_) ?_
  · simp only [List.forall_mem_cons]
    grind
  · grind
  · grind

/-! ### Bounds -/

@[grind ←] theorem lifetimeBinder_isFaithful : (lifetimeBinder g).IsFaithful n := by
  grind [lifetimeBinder]

@[grind ←] theorem optionalBinder_isFaithful : (optionalBinder g).IsFaithful n := by
  grind [optionalBinder]

@[grind ←] theorem returnType_isFaithful {plus : Bool} : (returnType g plus).IsFaithful n := by
  grind [returnType]

@[grind ←] theorem functionArguments_isFaithful : (functionArguments g).IsFaithful n := by
  grind [functionArguments]

@[grind ←] theorem traitBound_isFaithful {constant : Bool} :
    (traitBound g constant).IsFaithful n := by
  unfold traitBound
  refine .bind (optionalBinder_isFaithful hg) fun early hearly => .skip fun place =>
    .skip fun isConstant => ?_
  refine .skip fun _ => .iteBind (by grind) (by grind) fun mark hmark =>
    .failAtIf (.skip fun questionPlace => ?_)
  refine .bind optionalOp_isFaithful fun question hquestion =>
    .iteBind (by grind) (by grind) fun late hlate => ?_
  refine .bind (path_isFaithful hg) fun parts hparts => .skip fun _ => ?_
  refine .ite (.skip fun _ => .bind (by grind) fun arguments harguments => .failAtIf ?_)
    (.bind (by grind) fun arguments harguments => .failAtIf ?_)
  all_goals grind

@[grind ←] theorem bound_isFaithful {capturing constant : Bool} :
    (bound g capturing constant).IsFaithful n := by
  unfold bound
  refine .skip fun _ => .ite (by grind) (.skip fun _ =>
    .ite (.skip fun place => ?_) (.bind (.written ?_) ?_))
  · grind
  · refine .skip fun _ => .ite (.bind (.inGroup (traitBound_isFaithful hg)) ?_) ?_ <;> grind
  · grind

@[grind ←] theorem objectBounds_isFaithful {place : Position} {plus capturing constant : Bool} :
    (objectBounds g place plus capturing constant).IsFaithful n := by
  unfold objectBounds
  refine .bind (.repeated (.bind (hg.bound _ _) fun (kind, nodes) hnodes => ?_))
    fun bounds hbounds => ?_
  · grind
  · grind

@[grind ←] theorem moreBounds_isFaithful : (moreBounds g).IsFaithful n := by grind [moreBounds]

/-! ### Types -/

@[grind ←] theorem pointerParameter_isFaithful {first : Bool} :
    (pointerParameter g first).IsFaithful n := by
  unfold pointerParameter
  refine .skip fun _ => .ite (by grind) ?_
  refine .iteBind (by grind) (by grind) fun receiver _ => .bind (by grind) fun named hnamed =>
    .skip fun _ => ?_
  grind

@[grind ←] theorem pointerItem_isFaithful {first : Bool} : (pointerItem g first).IsFaithful n := by
  unfold pointerItem
  refine .skip fun _ => .ite (by grind) (.bind (outerAttributes_isFaithful hg)
    fun attributes hattributes => ?_)
  refine .skip fun _ => .ite (by grind) (.bind (pointerParameter_isFaithful hg)
    fun parameter hparameter => ?_)
  grind

@[grind ←] theorem pointerParameters_isFaithful : (pointerParameters g).IsFaithful n := by
  grind [pointerParameters]

@[grind ←] theorem functionPointer_isFaithful : (functionPointer g).IsFaithful n := by
  grind [functionPointer]

@[grind ←] theorem parenContent_isFaithful : (parenContent g).IsFaithful n := by
  unfold parenContent
  refine .skip fun _ => .ite (by grind) (.skip fun _ =>
    .ite (by grind) (.skip fun _ => .ite (by grind) ?_))
  refine .bind (hg.type true) fun first hfirst => .skip fun _ =>
    .ite (.bind op_isFaithful fun comma hcomma => ?_) ?_
  all_goals grind

@[grind ←] theorem parenType_isFaithful {plus : Bool} : (parenType g plus).IsFaithful n := by
  unfold parenType
  refine .bind (.inGroup (parenContent_isFaithful hg)) fun ((content, inner), span) hinner => ?_
  grind

@[grind ←] theorem pathType_isFaithful {binder : List Node} {plus : Bool} (h : Faithful binder) :
    (pathType g binder plus).IsFaithful n := by
  unfold pathType
  refine .bind (qualifiedPath_isFaithful hg) fun (qualified, parts) hparts => .ite (by grind) ?_
  refine .skip fun _ => .ite (by grind) (.skip fun _ => .ite (by grind) ?_)
  refine .iteBind (.repeated (.skip fun _ => .ite ?_ (by grind))) (by grind) fun more hmore => ?_
  · refine .bind op_isFaithful fun sign hsign => ?_
    grind
  · grind

@[grind ←] theorem objectType_isFaithful {plus : Bool} : (objectType g plus).IsFaithful n := by
  unfold objectType
  refine .skip fun place => .bind (.written (.bind word_isFaithful fun keyword hkeyword => ?_)) ?_
    <;> grind

@[grind ←] theorem type_isFaithful {plus : Bool} : (type g plus).IsFaithful n := by
  unfold type
  refine .bind (optionalBinder_isFaithful hg) fun binder hbinder => .skip fun _ =>
    .failHereIf (.skip fun _ => ?_)
  refine .ite (by grind) (.skip fun _ => .ite (by grind) (.skip fun _ => .ite (by grind) ?_))
  refine .skip fun _ => .ite (by grind) (.skip fun place => node_isFaithful (choose_isFaithful ?_))
  simp only [List.forall_mem_cons]
  grind

/-! ### Generic parameters and conditions -/

@[grind ←] theorem typeParameter_isFaithful : (typeParameter g).IsFaithful n := by
  grind [typeParameter]

@[grind ←] theorem constantParameter_isFaithful : (constantParameter g).IsFaithful n := by
  grind [constantParameter]

@[grind ←] theorem genericParameters_isFaithful : (genericParameters g).IsFaithful n := by
  have hparameter : (seq [outerAttributes g,
    choose [(.lifetime, lifetimeParameter), (.identifier, typeParameter g),
      (.word "const", constantParameter g), (.word "_", word "_")]]).IsFaithful n := by grind
  grind [genericParameters]

@[grind ←] theorem optionalGenerics_isFaithful : (optionalGenerics g).IsFaithful n := by
  grind [optionalGenerics]

@[grind ←] theorem wherePredicate_isFaithful : (wherePredicate g).IsFaithful n := by
  grind [wherePredicate]

@[grind ←] theorem optionalWhere_isFaithful : (optionalWhere g).IsFaithful n := by
  grind [optionalWhere]

/-! ### Patterns -/

@[grind ←] theorem constantBlock_isFaithful : (constantBlock g).IsFaithful n := by
  grind [constantBlock]

@[grind ←] theorem valuePath_isFaithful : (valuePath g).IsFaithful n := by grind [valuePath]

@[grind ←] theorem rangeBound_isFaithful : (rangeBound g).IsFaithful n := by grind [rangeBound]

@[grind ←] theorem rangeRest_isFaithful {lower : List Node} (h : Faithful lower) :
    (rangeRest g lower).IsFaithful n := by
  unfold rangeRest
  refine .bind rangeOperator_isFaithful fun (closed, sign) hsign => ?_
  refine .bind (rangeBound_isFaithful hg) fun upper hupper => ?_
  exact .failHereIf (by grind)

@[grind ←] theorem rangeFromDots_isFaithful : (rangeFromDots g).IsFaithful n := by
  unfold rangeFromDots
  refine .bind rangeOperator_isFaithful fun (closed, sign) hsign => ?_
  refine .bind (rangeBound_isFaithful hg) fun upper hupper => ?_
  exact .failHereIf (by grind)

@[grind ←] theorem fieldPattern_isFaithful : (fieldPattern g).IsFaithful n := by
  unfold fieldPattern
  refine .bind (by grind) fun modifiers hmodifiers => .ite (by grind) ?_
  refine .bind fieldName_isFaithful fun (name, node) hnode => .skip fun _ => ?_
  grind

@[grind ←] theorem structPattern_isFaithful : (structPattern g).IsFaithful n := by
  unfold structPattern
  refine braces_isFaithful (.repeated (.skip fun _ => .ite (by grind) ?_))
  refine .bind (outerAttributes_isFaithful hg) fun attributes hattributes => .skip fun _ =>
    .ite (by grind) ?_
  refine .bind (fieldPattern_isFaithful hg) fun field hfield => ?_
  grind

@[grind ←] theorem pathPattern_isFaithful : (pathPattern g).IsFaithful n := by
  unfold pathPattern
  refine .bind (qualifiedPath_isFaithful hg) fun (qualified, parts) hparts => .skip fun _ =>
    .ite (by grind) ?_
  refine .skip fun _ => .ite (by grind) (.skip fun _ => .ite (by grind) (.skip fun _ => ?_))
  grind

@[grind ←] theorem bindingPattern_isFaithful : (bindingPattern g).IsFaithful n := by
  grind [bindingPattern]

@[grind ←] theorem sliceElement_isFaithful : (sliceElement g).IsFaithful n := by
  grind [sliceElement]

@[grind ←] theorem pattern_isFaithful : (pattern g).IsFaithful n := by
  unfold pattern
  refine .skip fun _ => .ite (by grind) (.skip fun _ =>
    .ite (by grind) (.skip fun _ => .ite (by grind) ?_))
  refine .skip fun _ => .ite (by grind) (.skip fun _ =>
    .ite (by grind) (.skip fun _ => .ite (by grind) ?_))
  refine .skip fun _ => .ite (by grind) (.skip fun _ =>
    .ite (by grind) (.skip fun _ => .ite (by grind) ?_))
  exact .failHere

@[grind ←] theorem alternatives_isFaithful : (alternatives g).IsFaithful n := by
  unfold alternatives
  refine .bind optionalOp_isFaithful fun bar hbar => .bind hg.pattern fun first hfirst => ?_
  refine .skip fun _ => .ite (by grind) ?_
  grind

/-! ### Expressions with blocks -/

@[grind ←] theorem plainBlock_isFaithful : (plainBlock g).IsFaithful n := by grind [plainBlock]

@[grind ←] theorem condition_isFaithful : (condition g).IsFaithful n := by grind [condition]

@[grind ←] theorem ifExpression_isFaithful : (ifExpression g).IsFaithful n := by
  unfold ifExpression
  refine .repeated (.bind (by grind) fun clause hclause => .skip fun _ => .ite ?_ (by grind))
  refine .bind word_isFaithful fun keyword hkeyword => ?_
  grind

@[grind ←] theorem whileExpression_isFaithful : (whileExpression g).IsFaithful n := by
  grind [whileExpression]

@[grind ←] theorem forExpression_isFaithful : (forExpression g).IsFaithful n := by
  grind [forExpression]

@[grind ←] theorem loopExpression_isFaithful : (loopExpression g).IsFaithful n := by
  grind [loopExpression]

@[grind ←] theorem matchArm_isFaithful : (matchArm g).IsFaithful n := by
  unfold matchArm
  refine .bind (by grind) fun head hhead => .bind hg.standing fun body hbody => .skip fun _ => ?_
  exact .iteBind (by grind) (by grind) fun comma hcomma => by grind

@[grind ←] theorem matchExpression_isFaithful : (matchExpression g).IsFaithful n := by
  grind [matchExpression]

@[grind ←] theorem tryBlock_isFaithful : (tryBlock g).IsFaithful n := by grind [tryBlock]

@[grind ←] theorem unsafeBlock_isFaithful : (unsafeBlock g).IsFaithful n := by grind [unsafeBlock]

@[grind ←] theorem labeled_isFaithful : (labeled g).IsFaithful n := by grind [labeled]

@[grind ←] theorem blockLike_isFaithful : (choose (blockLike g)).IsFaithful n := by
  refine choose_isFaithful ?_
  simp only [blockLike, List.forall_mem_cons]
  grind

/-! ### Operands -/

@[grind ←] theorem parenExpression_isFaithful : (parenExpression g).IsFaithful n := by
  unfold parenExpression
  refine .bind (.inGroup (.skip fun _ =>
    .ite (by grind) (.bind (hg.expression true) fun first hfirst => ?_))) ?_
  · refine .skip fun _ => .ite (by grind) (.bind op_isFaithful fun comma hcomma => ?_)
    grind
  · grind

@[grind ←] theorem arrayExpression_isFaithful : (arrayExpression g).IsFaithful n := by
  unfold arrayExpression
  refine brackets_isFaithful (.skip fun _ =>
    .ite (by grind) (.bind (hg.expression true) fun first hfirst => ?_))
  refine .skip fun _ => .ite (by grind) (.skip fun _ =>
    .ite (.bind op_isFaithful fun comma hcomma => ?_) ?_) <;> grind

@[grind ←] theorem fieldValue_isFaithful : (fieldValue g).IsFaithful n := by
  unfold fieldValue
  refine .bind (outerAttributes_isFaithful hg) fun attributes hattributes => ?_
  refine .bind fieldName_isFaithful fun (name, node) hnode => .skip fun _ => ?_
  grind

@[grind ←] theorem structFields_isFaithful : (structFields g).IsFaithful n := by
  unfold structFields
  refine braces_isFaithful (.repeated (.skip fun _ =>
    .ite (by grind) (.skip fun _ => .ite (by grind) ?_)))
  refine .bind (fieldValue_isFaithful hg) fun field hfield => ?_
  grind

@[grind ←] theorem pathExpression_isFaithful {structs : Bool} :
    (pathExpression g structs).IsFaithful n := by
  unfold pathExpression
  refine .bind (qualifiedPath_isFaithful hg) fun (qualified, parts) hparts => .skip fun _ =>
    .ite (by grind) ?_
  grind

@[grind ←] theorem closureParameter_isFaithful : (closureParameter g).IsFaithful n := by
  grind [closureParameter]

@[grind ←] theorem closure_isFaithful {structs : Bool} : (closure g structs).IsFaithful n := by
  unfold closure
  refine .bind (seq_isFaithful (by simp only [List.forall_mem_cons]; grind)) fun head hhead => ?_
  grind

@[grind ←] theorem breakExpression_isFaithful {structs : Bool} :
    (breakExpression g structs).IsFaithful n := by
  unfold breakExpression
  refine .bind word_isFaithful fun keyword hkeyword => .skip fun _ => ?_
  refine .ite (.skip fun place => .skip fun _ => .failAt_bind) ?_
  refine .bind optionalLifetime_isFaithful fun label hlabel => ?_
  grind

@[grind ←] theorem letExpression_isFaithful {structs : Bool} :
    (letExpression g structs).IsFaithful n := by
  grind [letExpression]

@[grind ←] theorem tighterOperators_isFaithful {structs : Bool} {level : Level} {bound : Nat}
    {right : Node} (h : Faithful right) :
    (tighterOperators g structs level bound right).IsFaithful n := by
  induction bound generalizing right with grind [tighterOperators]

@[grind ←] theorem rightOperand_isFaithful {structs : Bool} {level : Level} :
    (rightOperand g structs level).IsFaithful n := by
  grind [rightOperand]

@[grind ←] theorem rangeEnd_isFaithful {structs closed : Bool} :
    (rangeEnd g structs closed).IsFaithful n := by
  grind [rangeEnd]

@[grind ←] theorem rangeFrom_isFaithful {structs : Bool} {lower : List Node} (h : Faithful lower) :
    (rangeFrom g structs lower).IsFaithful n := by grind [rangeFrom]

@[grind ←] theorem atom_isFaithful {structs : Bool} : (atom g structs).IsFaithful n := by
  unfold atom
  refine .skip fun _ => .ite (by grind) (.skip fun _ =>
    .ite (by grind) (.skip fun _ => .ite (by grind) ?_))
  refine .skip fun _ => .ite (by grind) (.skip fun _ =>
    .ite (by grind) (.skip fun _ => .ite (by grind) ?_))
  refine .skip fun _ => .ite (by grind) (.skip fun _ =>
    .ite (by grind) (.skip fun _ => .ite (by grind) ?_))
  refine .skip fun _ => .ite (by grind) (.skip fun _ =>
    .ite (by grind) (.skip fun _ => .ite (by grind) ?_))
  refine .skip fun _ => .ite (by grind) (.skip fun _ =>
    .ite (by grind) (.skip fun _ => .ite (by grind) ?_))
  exact node_isFaithful (blockLike_isFaithful hg)

/-! ### Expressions -/

omit hg in
@[grind ←] theorem faithful_nestedFields {e : Node} {dot : List Node} {span : Span}
    {indices : List Nat} (he : Faithful e) (hdot : Faithful dot) :
    Faithful (nestedFields e dot span indices) := by
  induction indices generalizing e dot with
  | nil => exact he
  | cons index rest ih => exact ih (by grind) (by grind)

@[grind ←] theorem afterDot_isFaithful {e : Node} {dot : List Node} (he : Faithful e)
    (hdot : Faithful dot) :
    (afterDot g e dot).IsFaithful n := by
  unfold afterDot
  refine .skip fun _ => .ite (by grind) (.bind fieldName_isFaithful fun (name, node) hnode => ?_)
  cases name with
  | none => grind
  | some name =>
    refine .bind (by grind) fun turbofish hturbofish => .skip fun _ =>
      .ite (.bind (by grind) fun arguments harguments => ?_) ?_
    all_goals grind

@[grind ←] theorem trailer_isFaithful {e : Node} (h : Faithful e) : (trailer g e).IsFaithful n := by
  unfold trailer
  refine .skip fun _ => .ite (by grind) (.skip fun _ =>
    .ite (.bind op_isFaithful fun dot hdot => .skip fun _ => ?_) ?_)
  · refine .ite (.skip fun place => .skip fun tree => ?_) (by grind)
    split
    · split <;> grind
    · exact .failAt
  · grind

@[grind ←] theorem trailersUpTo_isFaithful {bound : Nat} {e : Node} (h : Faithful e) :
    (trailersUpTo g bound e).IsFaithful n := by
  induction bound generalizing e with grind [trailersUpTo]

@[grind ←] theorem trailers_isFaithful {e : Node} (h : Faithful e) :
    (trailers g e).IsFaithful n := by grind [trailers]

@[grind ←] theorem borrow_isFaithful {structs : Bool} : (borrow g structs).IsFaithful n := by
  unfold borrow
  refine .bind op_isFaithful fun sign hsign => .bind (by grind) fun raw hraw => ?_
  refine .bind optionalWord_isFaithful fun mutable hmutable => ?_
  refine .iteBind (by grind) (by grind) fun constant hconstant => ?_
  grind

@[grind ←] theorem operand_isFaithful {structs : Bool} : (operand g structs).IsFaithful n := by
  unfold operand
  refine .bind (outerAttributes_isFaithful hg) fun attributes hattributes => .skip fun _ =>
    .ite (by grind) ?_
  refine .skip fun _ => .ite (by grind) (.skip fun place => ?_)
  refine .bind (atom_isFaithful hg) fun e he => .bind (trailers_isFaithful hg he) fun e he =>
    .failAtIf ?_
  grind

@[grind ←] theorem operatorsUpTo_isFaithful {structs : Bool} {base : Level} {bound : Nat}
    {left : Node} (h : Faithful left) : (operatorsUpTo g structs base bound left).IsFaithful n := by
  induction bound generalizing left with
  | zero => grind [operatorsUpTo]
  | succ bound ih =>
    unfold operatorsUpTo
    refine .ite (by grind) (.skip fun s => ?_)
    split
    · refine .ite (by grind) (.failHereIf (.bind op_isFaithful fun sign hsign => ?_))
      grind
    · refine .skip fun _ => .ite (.bind op_isFaithful fun sign hsign => ?_)
        (.skip fun _ => .ite ?_ ?_)
      · grind
      · grind
      · refine .skip fun _ => .ite (.bind (by grind) fun cast hcast => .skip fun _ =>
          .failHereIf ?_) ?_ <;> grind

@[grind ←] theorem operators_isFaithful {left : Node} {structs : Bool} {base : Level}
    (h : Faithful left) :
    (operators g left structs base).IsFaithful n := by grind [operators]

@[grind ←] theorem expression_isFaithful {structs : Bool} :
    (expression g structs).IsFaithful n := by grind [expression]

@[grind ←] theorem standing_isFaithful : (standing g).IsFaithful n := by grind [standing]

/-! ### Functions -/

@[grind ←] theorem receiver_isFaithful : (receiver g).IsFaithful n := by
  unfold receiver
  refine .bind (by grind) fun reference hreference =>
    .bind optionalWord_isFaithful fun mutable hmutable => ?_
  refine .skip fun place => .bind word_isFaithful fun keyword hkeyword => ?_
  exact .iteBind (by grind) (by grind) fun type htype => by grind

@[grind ←] theorem parameter_isFaithful : (parameter g).IsFaithful n := by
  unfold parameter
  refine .bind (outerAttributes_isFaithful hg) fun attributes hattributes => .skip fun _ =>
    .ite (by grind) ?_
  refine .bind (.attempt (receiver_isFaithful hg)) fun self hself => ?_
  split
  · grind
  · refine .skip fun _ => .ite (by grind) (.bind (by grind) fun head hhead => .skip fun _ => ?_)
    grind

@[grind ←] theorem parametersUpTo_isFaithful {bound : Nat} {found : List Parameter}
    (h : Faithful found) :
    (parametersUpTo g bound found).IsFaithful n := by
  induction bound generalizing found with
  | zero => grind [parametersUpTo]
  | succ bound ih =>
    unfold parametersUpTo
    refine .skip fun _ => .ite (by grind) (.bind (parameter_isFaithful hg)
      fun (next, more) hnext => ?_)
    have hrest : IsFaithful n (do
        if !more || (← look .end_) then return found ++ [next]
        let comma ← op ","
        parametersUpTo g bound (found ++ [{ next with nodes := next.nodes ++ comma }])) :=
      .skip fun _ => .ite (by grind) (.bind op_isFaithful fun comma hcomma => ih (by grind))
    dsimp only
    split
    · exact .failAtIf hrest
    · exact hrest

@[grind ←] theorem parameters_isFaithful : (parameters g).IsFaithful n := by grind [parameters]

@[grind ←] theorem signature_isFaithful {safe : Bool} : (signature g safe).IsFaithful n := by
  unfold signature
  refine .bind (by grind) fun head hhead => .bind .takeIdentifier fun (name, nameNode) hname => ?_
  refine .bind (optionalGenerics_isFaithful hg) fun generics hgenerics => ?_
  refine .bind (.inGroup (parameters_isFaithful hg)) fun (found, span) hfound => .skip fun _ => ?_
  refine .ite (.bind op_isFaithful fun arrow harrow => .bind (hg.type true) fun type htype => ?_) ?_
  all_goals
    refine .bind (.pure (by grind)) fun output houtput =>
      .bind (optionalWhere_isFaithful hg) fun conditions hconditions => ?_
    cases output with grind

/-! ### Macros, constants and aliases among items -/

@[grind ←] theorem macroItem_isFaithful : (macroItem g).IsFaithful n := by
  unfold macroItem
  refine .bind plainPath_isFaithful fun path hpath =>
    .bind (invocation_isFaithful hg) fun whole hwhole => ?_
  exact .iteBind (by grind) (by grind) fun semicolon hsemicolon => by grind

@[grind ←] theorem constantDefinition_isFaithful : (constantDefinition g).IsFaithful n := by
  unfold constantDefinition
  refine .bind word_isFaithful fun keyword hkeyword =>
    .bind .wordIf fun (name, nameNode) hname => ?_
  refine .bind (optionalGenerics_isFaithful hg) fun generics hgenerics =>
    .bind (by grind) fun type htype => ?_
  refine .bind (by grind) fun value hvalue =>
    .bind (optionalWhere_isFaithful hg) fun conditions hconditions => ?_
  grind

@[grind ←] theorem aliasDefinition_isFaithful {place : ConditionPlace} :
    (aliasDefinition g place).IsFaithful n := by
  unfold aliasDefinition
  refine .bind word_isFaithful fun keyword hkeyword =>
    .bind .takeIdentifier fun (name, nameNode) hname => ?_
  refine .bind (optionalGenerics_isFaithful hg) fun generics hgenerics =>
    .bind (by grind) fun bounds hbounds => ?_
  refine .iteBind (by grind) (by grind) fun early hearly => .bind (by grind) fun value hvalue => ?_
  refine .iteBind (by grind) (by grind) fun late hlate =>
    .bind op_isFaithful fun semicolon hsemicolon => ?_
  grind

/-! ### Members of implementations -/

@[grind ←] theorem functionBody_isFaithful : (functionBody g).IsFaithful n := by
  grind [functionBody]

@[grind ←] theorem memberFunction_isFaithful {omitted : Bool} :
    (memberFunction g omitted).IsFaithful n := by
  unfold memberFunction
  refine .skip fun _ => .skip fun _ => .skip fun signature => .skip fun _ =>
    .ite (.skip fun _ => ?_) ?_
  · exact .pure (.of_nodes_eq_nil rfl)
  · grind

@[grind ←] theorem memberKind_isFaithful {head : MemberHead} :
    (memberKind g head).IsFaithful n := by
  unfold memberKind
  have hother {c : Prop} [Decidable c] {kind : MemberKind} (h : HasNodes.nodes kind = []) :
      Faithful (if c then kind else .unknown) := by
    split
    · exact .of_nodes_eq_nil h
    · exact .of_nodes_eq_nil rfl
  refine .ite (by grind) (.ite (.skip fun _ => ?_)
    (.ite (.skip fun _ => .skip fun _ => ?_) (.ite ?_ .failBefore)))
  · exact .ite (.skip fun _ => .skip fun _ => .pure (hother rfl))
      (.skip fun _ => .skip fun _ => .pure (hother rfl))
  · exact .skip fun found => .pure (hother rfl)
  · exact .skip fun found => .pure (.of_nodes_eq_nil rfl)

@[grind ←] theorem member_isFaithful : (member g).IsFaithful n := by
  unfold member
  refine .skip fun start => .skip fun attributes => .skip fun head => ?_
  refine .bind (memberKind_isFaithful hg) fun kind hkind => ?_
  exact .skip fun stop => .pure hkind

@[grind ←] theorem implementation_isFaithful : (implementation g).IsFaithful n := by
  unfold implementation
  refine .skip fun head => .bind (.inGroup ?_) fun (members, span) hmembers => ?_
  · exact .skip fun _ => .untilEnd (member_isFaithful hg)
  · grind

/-! ### Statements -/

@[grind ←] theorem variableStatement_isFaithful : (variableStatement g).IsFaithful n := by
  unfold variableStatement
  refine .bind (by grind) fun head hhead => .skip fun _ =>
    .ite (.bind (by grind) fun value hvalue => ?_) ?_
  · exact .skip fun s => .iteBind (by grind) (by grind) fun otherwise hotherwise => by grind
  · grind

@[grind ←] theorem statement_isFaithful : (statement g).IsFaithful n := by
  unfold statement
  refine .bind (outerAttributes_isFaithful hg) fun attributes hattributes => .skip fun leading => ?_
  split
  · refine .bind plainPath_isFaithful fun path hpath =>
      .bind (invocation_isFaithful hg) fun whole hwhole => ?_
    grind
  · refine .skip fun _ => .ite (by grind)
      (.skip fun _ => .ite ?_ (.bind hg.standing fun e he => ?_))
    · refine .bind (hg.item hattributes) fun found hfound => .pure ?_
      grind
    · grind

@[grind ←] theorem statements_isFaithful : (statements g).IsFaithful n := by
  unfold statements
  refine .repeated (.bind (by grind) fun semicolons hsemicolons => .skip fun _ =>
    .ite (by grind) ?_)
  refine .bind (statement_isFaithful hg) fun (found, complete) hfound => .skip fun _ =>
    .ite (by grind) (.failHereIf ?_)
  grind

/-! ### Data types -/

@[grind ←] theorem namedField_isFaithful {fields : Rule} (h : fields.IsFaithful n) :
    (namedField g fields).IsFaithful n := by
  unfold namedField
  refine .bind (by grind) fun head hhead => .skip fun unnamed => .bind (by grind) fun name hname =>
    .skip fun _ => ?_
  grind

@[grind ←] theorem namedFieldsUpTo_isFaithful {depth : Nat} :
    (namedFieldsUpTo g depth).IsFaithful n := by
  induction depth with grind [namedFieldsUpTo]

@[grind ←] theorem namedFields_isFaithful : (namedFields g).IsFaithful n := by grind [namedFields]

@[grind ←] theorem tupleFields_isFaithful : (tupleFields g).IsFaithful n := by grind [tupleFields]

@[grind ←] theorem structItem_isFaithful : (structItem g).IsFaithful n := by
  unfold structItem
  refine .bind (by grind) fun head hhead => .bind (optionalWhere_isFaithful hg) fun early hearly =>
    .skip fun _ => ?_
  grind

@[grind ←] theorem variant_isFaithful : (variant g).IsFaithful n := by grind [variant]

@[grind ←] theorem enumItem_isFaithful : (enumItem g).IsFaithful n := by
  unfold enumItem
  exact seq_isFaithful (by simp only [List.forall_mem_cons]; grind)

@[grind ←] theorem unionItem_isFaithful : (unionItem g).IsFaithful n := by
  unfold unionItem
  exact seq_isFaithful (by simp only [List.forall_mem_cons]; grind)

/-! ### Traits -/

@[grind ←] theorem traitFunction_isFaithful : (traitFunction g).IsFaithful n := by
  grind [traitFunction]

@[grind ←] theorem traitConstant_isFaithful : (traitConstant g).IsFaithful n := by
  unfold traitConstant
  refine .skip fun _ => .ite (ifLegal_isFaithful
    (.bind (constantDefinition_isFaithful hg) fun found hfound => ?_)) ?_
  all_goals grind

@[grind ←] theorem traitMember_isFaithful : (traitMember g).IsFaithful n := by
  unfold traitMember
  refine .bind (outerAttributes_isFaithful hg) fun attributes hattributes =>
    .bind (ifLegal_isFaithful ?_) fun kind hkind => ?_
  · refine .bind (by grind) fun head hhead => ?_
    refine .skip fun _ => .skip fun _ => .skip fun _ => .skip fun _ =>
      .ite (by grind) (.ite (by grind) (.ite ?_ (.ite ?_ (by grind))))
    · refine .bind (aliasDefinition_isFaithful hg) fun found hfound => ?_
      grind
    · refine .bind (macroItem_isFaithful hg) fun found hfound => ?_
      grind
  · grind

@[grind ←] theorem traitRest_isFaithful : (traitRest g).IsFaithful n := by grind [traitRest]

@[grind ←] theorem qualifiedTrait_isFaithful : (qualifiedTrait g).IsFaithful n := by
  unfold qualifiedTrait
  exact seq_isFaithful (by simp only [List.forall_mem_cons]; grind)

@[grind ←] theorem traitItem_isFaithful : (traitItem g).IsFaithful n := by
  unfold traitItem
  exact seq_isFaithful (by simp only [List.forall_mem_cons]; grind)

/-! ### Foreign items -/

@[grind ←] theorem foreignStatic_isFaithful : (foreignStatic g).IsFaithful n := by
  unfold foreignStatic
  refine ifLegal_isFaithful (.bind (by grind) fun head hhead =>
    .bind (by grind) fun safety hsafety => ?_)
  refine .bind (by grind) fun type htype => .bind (by grind) fun value hvalue => ?_
  grind

@[grind ←] theorem foreignFunction_isFaithful : (foreignFunction g).IsFaithful n := by
  unfold foreignFunction
  refine ifLegal_isFaithful (.bind (by grind) fun head hhead => .skip fun safe => ?_)
  refine .bind (signature_isFaithful hg) fun (_, nodes) hnodes => .skip fun _ => ?_
  grind

@[grind ←] theorem foreignAlias_isFaithful : (foreignAlias g).IsFaithful n := by
  unfold foreignAlias
  refine ifLegal_isFaithful (.bind (by grind) fun head hhead => ?_)
  grind

@[grind ←] theorem foreignItem_isFaithful : (foreignItem g).IsFaithful n := by
  unfold foreignItem
  refine .bind (outerAttributes_isFaithful hg) fun attributes hattributes =>
    .skip fun (mark, rest) => ?_
  refine .ite (by grind) (.ite (by grind) (.ite (by grind) (.ite ?_ (by grind))))
  refine .bind (macroItem_isFaithful hg) fun found hfound => ?_
  grind

@[grind ←] theorem foreignBlock_isFaithful : (foreignBlock g).IsFaithful n := by
  grind [foreignBlock]

/-! ### Use declarations -/

@[grind ←] theorem useGroup_isFaithful {root : Bool} : (useGroup g root).IsFaithful n := by
  unfold useGroup
  refine .bind (.inGroup (.repeated (.skip fun _ => .ite (by grind) ?_)))
    fun (found, span) hfound => ?_
  · refine .iteBind (by grind) (by grind) fun sign hsign =>
      .bind (hg.useTree _) fun (rooted, nodes) hnodes => ?_
    refine .skip fun _ => .ite (by grind) (.bind op_isFaithful fun comma hcomma => ?_)
    grind
  · grind

@[grind ←] theorem useTree_isFaithful {root : Bool} : (useTree g root).IsFaithful n := by
  unfold useTree
  refine .skip fun _ => .ite (.bind anyWord_isFaithful fun name hname => .skip fun _ => ?_) ?_
  · refine .ite (.bind op_isFaithful fun sign hsign => ?_) ?_ <;> grind
  · grind

@[grind ←] theorem useItem_isFaithful : (useItem g).IsFaithful n := by
  unfold useItem
  refine ifLegal_isFaithful (.bind (by grind) fun head hhead =>
    .bind (by grind) fun sign hsign => ?_)
  grind

/-! ### Other items -/

@[grind ←] theorem functionItem_isFaithful : (functionItem g).IsFaithful n := by
  unfold functionItem
  refine .bind (by grind) fun head hhead =>
    .bind (signature_isFaithful hg) fun (_, nodes) hnodes => ?_
  grind

@[grind ←] theorem staticItem_isFaithful : (staticItem g).IsFaithful n := by
  unfold staticItem
  refine ifLegal_isFaithful (.bind (by grind) fun head hhead => .skip fun _ => .ite (by grind) ?_)
  refine .bind (by grind) fun type htype => .skip fun _ => ?_
  grind

@[grind ←] theorem constantItem_isFaithful : (constantItem g).IsFaithful n := by
  unfold constantItem
  refine ifLegal_isFaithful (.bind (by grind) fun head hhead => ?_)
  grind

@[grind ←] theorem aliasItem_isFaithful : (aliasItem g).IsFaithful n := by
  unfold aliasItem
  refine ifLegal_isFaithful (.bind (by grind) fun head hhead => ?_)
  grind

@[grind ←] theorem moduleItem_isFaithful : (moduleItem g).IsFaithful n := by
  unfold moduleItem
  refine .bind (by grind) fun head hhead => .skip fun _ =>
    .ite ?_ (.bind (.inGroup ?_) fun found hfound => ?_)
  · refine .bind op_isFaithful fun semicolon hsemicolon => .pure ?_
    grind
  · grind
  · grind

@[grind ←] theorem implementationItem_isFaithful : (implementationItem g).IsFaithful n := by
  unfold implementationItem
  refine .bind (.written (implementation_isFaithful hg)) fun (block, raw) hfound => .pure ?_
  cases block with grind

@[grind ←] theorem namedMacro_isFaithful : (namedMacro g).IsFaithful n where
  makes.of_run hs hrun := by
    obtain ⟨path, s₁, hpath, hrun⟩ := of_run_bind hrun
    obtain ⟨bang, s₂, hbang, hrun⟩ := of_run_bind hrun
    obtain ⟨name, s₃, hname, hrun⟩ := of_run_bind hrun
    obtain ⟨body, s₄, hbody, hrun⟩ := of_run_bind hrun
    have hs₃ := (Reader.leads _ hname).kept
      ((Reader.leads _ hbang).kept ((Reader.leads _ hpath).kept hs))
    have hinvocation := faithful_invocation hg hs₃ body.isBrace (path ++ bang ++ name) body hbody
    have hend (semicolon : List Node) (h : Faithful semicolon) : IsFaithful n
      (pure (Node.phrase .plain
        (.invocation body.isBrace (path ++ bang ++ name ++ [.token body]) (bodyArguments g body)
          :: semicolon))) :=
      .pure (by grind)
    exact (IsFaithful.iteBind empty_isFaithful op_isFaithful hend).makes.of_run
      ((Reader.leads _ hbody).kept hs₃) hrun

@[grind ←] theorem externItem_isFaithful {rest : List Tree} : (externItem g rest).IsFaithful n := by
  grind [externItem]

@[grind ←] theorem item_isFaithful {attributes : List Node} (h : Faithful attributes) :
    (item g attributes).IsFaithful n := by
  unfold item
  refine .skip fun (mark, rest) => ?_
  -- One goal for each kind of item.
  repeat' refine .ite ?_ ?_
  all_goals grind

end

/-! ### Whole texts -/

/-- The rules that are tied together, if they are told the arguments of lighter macros. -/
theorem rules_areFaithful {arguments : List Tree → List Node}
    (h : ∀ inner, weight inner < n → arguments inner = argumentsOf inner) (depth : Nat) :
    (rules arguments depth).AreFaithful n := by
  induction depth with
  | zero =>
    constructor
    case arguments => exact h _
    all_goals
      intros
      exact .failHere
  | succ depth ih =>
    unfold rules
    constructor
    case arguments => exact h _
    all_goals
      intros
      dsimp only
      grind

theorem rulesFor_areFaithful (trees : List Tree) : (rulesFor trees).AreFaithful n :=
  rules_areFaithful (fun _ _ => rfl) _

/-- What all of the trees are read as is faithful. -/
theorem faithful_of_readAll {α : Type} [HasNodes α] {reader : Reader α} {trees : List Tree}
    {value : α} (h : reader.IsFaithful (weight trees)) (hread : readAll reader trees = .ok value) :
    Faithful value := by
  obtain ⟨s, hrun⟩ := of_readAll hread
  exact h.makes.of_run (Nat.le_refl _) hrun

theorem faithful_of_expressionList {trees : List Tree} {list : List Node}
    (h : expressionList trees = .ok list) :
    Faithful list := by
  rw [expressionList] at h
  refine faithful_of_readAll (commas_isFaithful
    (one_isFaithful ((rules_areFaithful ?_ _).expression true))) h
  intro inner hlight
  rw [if_pos hlight, argumentsOf]

theorem faithful_of_blocks {trees : List Tree} {found : List Block} (h : blocks trees = .ok found) :
    Faithful found := by
  have hg := rulesFor_areFaithful (n := weight trees) trees
  refine faithful_of_readAll (.skip fun _ => .bind (.untilEnd ?_) fun items hitems =>
    .pure (.itemBlocks hitems)) h
  exact .bind (outerAttributes_isFaithful hg) fun attributes hattributes => hg.item hattributes

theorem faithful_of_function {trees : List Tree} {kind : MemberKind}
    (h : function trees = .ok kind) : Faithful kind :=
  faithful_of_readAll (.skip fun _ => memberFunction_isFaithful (rulesFor_areFaithful trees)) h

end CalleeFirst.Grammar
