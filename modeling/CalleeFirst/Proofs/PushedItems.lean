import CalleeFirst.Proofs.PushedRules

/-! The items of a text further to the right.

`toOption_blocks`: the blocks of a text are read alike wherever its first line starts. -/
namespace CalleeFirst.Grammar

open HasPlaces (pushed)
open Lexeme (Position Tree)
open Reader Rule
open Syntax (Item Member Node)

namespace Reader.Carries
variable {n : Nat} {g : Rules} (hg : g.AreSteady n)
include hg

/-! ### Functions -/

/-- The place of a receiver is kept, and there is a word at it. -/
theorem receiver : (Grammar.receiver g).Steady n := by
  refine .bind (.onlyIf .op (.seq ⟨.op, .optionalLifetime⟩)) fun _ => .bind .optionalWord fun _ =>
    .place (fun _ => word_needsTree.bind) (fun _ => word_needsTree.bind) fun place => ?_
  exact .bind .word fun _ => .iteBind (by simp) (.onlyIf .op (.seq ⟨.op, .one hg.type⟩)) .empty
    fun _ => .pure (by simp)

theorem parameter : (Grammar.parameter g).Steady n := by
  refine .bind (.outerAttributes hg) fun attributes => .look .op fun _ => .ite
    (.bind .variadic fun _ => .pure (by simp)) (.bind (.attempt (.receiver hg)) fun self => ?_)
  cases self with
  | some self => exact .pure (by cases self; simp)
  | none =>
    refine .look (.and .identifier (.second .op)) fun _ =>
      .ite (.bind hg.type fun _ => .pure (by simp)) ?_
    exact .bind (.seq ⟨.one hg.pattern, .op⟩) fun _ => .look .op fun _ => .ite
      (.bind .variadic fun _ => .pure (by simp)) (.bind hg.type fun _ => .pure (by simp))

/-- A receiver behind other parameters is refused at its place. -/
theorem parametersUpTo {bound : Nat} {found found' : List Parameter} (h : found' = pushed n found) :
    (Grammar.parametersUpTo g bound found).Carries n (Grammar.parametersUpTo g bound found') := by
  induction bound generalizing found found' with
  | zero => exact .pure h
  | succ bound ih =>
    subst h
    refine .look .end_ fun _ => .ite (.pure rfl) (.bind (.parameter hg) fun (next, more) => ?_)
    obtain ⟨receiver, type, nodes⟩ := next
    have hrest : Carries n
        (do
          if !more || (← Reader.look .end_) then return found ++ [⟨receiver, type, nodes⟩]
          let comma ← Rule.op ","
          Grammar.parametersUpTo g bound (found ++ [⟨receiver, type, nodes ++ comma⟩]))
        (do
          if !more || (← Reader.look .end_) then
            return pushed n found ++ [pushed n ⟨receiver, type, nodes⟩]
          let comma ← Rule.op ","
          Grammar.parametersUpTo g bound
            (pushed n found ++ [⟨pushed n receiver, pushed n type, pushed n nodes ++ comma⟩])) :=
      .look .end_ fun _ => .ite (.pure (by simp)) (.bind .op fun _ => ih (by simp))
    cases receiver with
    | none => exact hrest
    | some place => exact .failAtIf (by simp) hrest

theorem parameters : (Grammar.parameters g).Steady n :=
  .stream fun s t hs => by
    rw [hs.rest, length_pushed]
    exact .parametersUpTo hg rfl

end Reader.Carries

/-- Whether a function starts here is seen by reading what stands in front of `fn`. -/
theorem Look.Steady.signatureAhead {n : Nat} {safe : Bool} :
    (Grammar.signatureAhead safe).Steady n where
  eq trees := by
    have hs : Stream.Pushed n { rest := trees, stop := .start }
        { rest := pushed n trees, stop := .start } := ⟨rfl, rfl, rfl⟩
    have hqualifiers : (Grammar.qualifiers safe).Steady n := .qualifiers
    unfold Grammar.signatureAhead
    rcases (hqualifiers.alike hs).cases with ⟨p, q, h, h'⟩ | ⟨_, s, t, h, h', hrest⟩
    · rw [h, h']
    · rw [h, h']
      dsimp only
      rw [hrest.rest, Look.Steady.word.eq]

namespace Reader.Carries
variable {n : Nat} {g : Rules} (hg : g.AreSteady n)
include hg

theorem signature {safe : Bool} : (Grammar.signature g safe).Steady n := by
  refine .bind (.seq ⟨.qualifiers, .word⟩) fun _ => .bind .takeIdentifier fun (_, _) =>
    .bind (.optionalGenerics hg) fun _ => .bind (.inGroup (.parameters hg)) fun (found, span) => ?_
  refine .look .op fun _ => .ite (.bind .op fun _ => .bind hg.type fun _ =>
    .bind (.pure rfl) fun output => ?_) (.bind (.pure rfl) fun output => ?_)
  all_goals
    exact .bind (.optionalWhere hg) fun _ => .pure (by
      cases output <;> simp [pushed_types, pushed_hasReceiver,
        pushed_flatMap (f := Parameter.nodes) n fun _ => rfl])

/-! ### Members -/

theorem macroItem : (Grammar.macroItem g).Steady n :=
  .bind .plainPath fun _ => .bind (.invocation hg (by simp)) fun _ =>
    .iteBind (by simp) .op .empty fun _ => .pure (by simp)

theorem constantDefinition : (Grammar.constantDefinition g).Steady n := by
  refine .bind .word fun _ => .bind (.wordIf (.or .identifier .word)) fun (_, _) =>
    .bind (.optionalGenerics hg) fun _ => .bind (.seq ⟨.op, .one hg.type⟩) fun _ => ?_
  exact .bind (.onlyIf .op (.seq ⟨.op, .one hg.expression⟩)) fun _ =>
    .bind (.optionalWhere hg) fun _ => .bind .op fun _ => .pure (by simp)

theorem aliasDefinition {place : ConditionPlace} : (Grammar.aliasDefinition g place).Steady n := by
  refine .bind .word fun _ => .bind .takeIdentifier fun (_, _) =>
    .bind (.optionalGenerics hg) fun _ =>
      .bind (.onlyIf .op (.seq ⟨.op, .upTo (.or .word .ops) (.boundNodes hg)⟩)) fun _ => ?_
  refine .iteBind .rfl .empty (.optionalWhere hg) fun _ =>
    .bind (.onlyIf .op (.seq ⟨.op, .one hg.type⟩)) fun _ => ?_
  exact .iteBind (by simp) .empty (.optionalWhere hg) fun _ => .bind .op fun _ => .pure (by simp)

theorem functionBody : (Grammar.functionBody g).Steady n :=
  .bind (.inGroup (.bind (.innerAttributes hg) fun _ => hg.statements)) fun (_, _) => .pure rfl

theorem memberFunction {omitted : Bool} : (Grammar.memberFunction g omitted).Steady n := by
  refine .bind .visibility fun _ => .bind .optionalWord fun _ =>
    .bind (.signature hg) fun (_, _) => ?_
  exact .look .op fun _ => .ite (.bind .op fun _ => .pure rfl)
    (.bind (.functionBody hg) fun _ => .pure rfl)

omit hg in
theorem memberHead : Grammar.memberHead.Steady n := by
  refine .peek (.bind .visibility fun (_, _) => .look (.and .word (.not (.second .op))) fun _ => ?_)
  exact .iteBind .rfl .word .empty fun _ => .stream fun s t hs => .pure (by simp [hs.rest])

/-- The head that was read ahead decides what the member is. -/
theorem memberKind {head : MemberHead} :
    (Grammar.memberKind g head).Carries n (Grammar.memberKind g (pushed n head)) := by
  obtain ⟨visibility, isDefault, rest⟩ := head
  refine .cond (by simp [Look.Steady.signatureAhead.eq]) (.memberFunction hg)
    (.cond (by simp [Look.Steady.word.eq]) ?_ (.cond (by simp [Look.Steady.word.eq]) ?_ ?_))
  · exact .bind .visibility fun _ => .iteBind .rfl .word .empty fun _ =>
      .bind (.constantDefinition hg) fun found => .pure (by rw [apply_ite (pushed n)]; rfl)
  · exact .bind .visibility fun _ => .bind .optionalWord fun _ =>
      .bind (.aliasDefinition hg) fun found => .pure (by rw [apply_ite (pushed n)]; rfl)
  · exact .cond (by simp [Look.Steady.macroStart.eq])
      (.bind (.macroItem hg) fun (_, _) => .pure rfl) .failBefore

/-- The span of a member starts at its first tree and ends with its last one. -/
theorem member : (Grammar.member g).Steady n := by
  have hends (p : Position) : Reader.NeedsTree (do
      let _ ← Grammar.outerAttributes g
      let head ← Grammar.memberHead
      let kind ← Grammar.memberKind g head
      return (⟨kind, head.visibility, p, ← Reader.behindLast⟩ : Member)) :=
    .skip fun _ => .skip fun head => .bind (memberKind_ends g head).needsTree
  refine .place hends hends fun start => ?_
  refine .bind (.outerAttributes hg) fun _ => .bind .memberHead fun head => ?_
  exact .behindLast (.memberKind hg) (memberKind_ends g head) fun kind stop => .pure rfl

/-- The place of a block is that of its first word. -/
theorem blockHead : (Grammar.blockHead g).Steady n := by
  refine .bind .visibility fun (_, _) => .bind .optionalWord fun _ => .bind .optionalWord fun _ =>
    .place (fun _ => word_needsTree.bind) (fun _ => word_needsTree.bind) fun start => ?_
  refine .bind .word fun _ => .bind (.onlyIf .genericsAhead (.genericParameters hg)) fun _ => ?_
  refine .look (.or .word (.and .op (.second .word))) fun isConstant =>
    .ite (.bind .optionalOp fun _ => .bind .word fun _ => ?_) ?_
  all_goals
    refine .here fun _ _ => .look (.and .op (.not (.second .brace))) fun isNegative =>
      .ite (.bind .op fun _ => ?_) ?_
  all_goals
    refine .bind hg.type fun first => .look .word fun isFor => .failAtIf .rfl (.ite ?_ ?_)
    · exact .bind .word fun _ => .bind hg.type fun selfType => .bind (.optionalWhere hg) fun _ =>
        .pure (by cases isFor <;> simp)
    · exact .bind (.pure rfl) fun selfType => .bind (.optionalWhere hg) fun _ =>
        .pure (by cases isFor <;> simp)

/-- A block starts behind its brace. -/
theorem implementation : (Grammar.implementation g).Steady n := by
  refine .bind (.blockHead hg) fun head => .bind (.inGroup (.bind (.innerAttributes hg) fun _ =>
    .untilEnd (.member hg))) fun (members, span) => ?_
  exact .cond .rfl (.pure (by cases head; simp)) (.pure rfl)

/-! ### Statements -/

theorem variableStatement : (Grammar.variableStatement g).Steady n := by
  refine .bind (.seq ⟨.word, .one hg.pattern, .onlyIf .op (.seq ⟨.op, .one hg.type⟩)⟩) fun _ =>
    .look .op fun _ => .ite (.bind (.seq ⟨.op, .one hg.expression⟩) fun _ =>
      .stream fun s t hs => ?_) (.bind .op fun _ => .pure (by simp))
  rw [hs.last]
  refine .iteBind ?_ .empty (.onlyIf .word (.seq ⟨.word, .plainBlock hg⟩)) fun _ =>
    .bind .op fun _ => .pure (by simp)
  cases s.last <;> simp

omit hg in
/-- What stands behind the path decides what a macro is. -/
theorem macroAhead : Grammar.macroAhead.Steady n := by
  refine .bind (.ahead (.bind .plainPath fun _ => .stream fun s t hs => .pure hs.rest))
    fun behindPath => ?_
  cases behindPath with
  | none => exact .pure rfl
  | some trees =>
    have hnamed : (Look.and (.op "!") (.second (.or .identifier (.word "try")))).Steady n :=
      .and .op (.second (.or .identifier .word))
    have hgoesOn : (Look.and (.op "!") (.and (.second .brace)
        (.not (.third (.or Grammar.soleDot (.op "?")))))).Steady n :=
      .and .op (.and (.second .brace) (.not (.third (.or .soleDot .op))))
    exact .cond (by rw [← hnamed.eq trees]) (.pure rfl)
      (.cond (by rw [← hgoesOn.eq trees]) (.pure rfl) (.pure rfl))

theorem statement : (Grammar.statement g).Steady n := by
  refine .bind (.outerAttributes hg) fun _ => .bind .macroAhead fun leading => ?_
  cases leading with
  | statement =>
    exact .bind .plainPath fun _ => .bind (.invocation hg (by simp)) fun _ =>
      .bind .optionalOp fun _ => .pure (by simp)
  | _ =>
    refine .look .word fun _ => .ite (.bind (.variableStatement hg) fun _ => .pure (by simp)) ?_
    exact .look .itemStart fun _ => .ite (.bind hg.item fun _ => .pure rfl)
      (.bind hg.standing fun _ => .bind .optionalOp fun _ => .pure (by simp))

/-- Every statement but the last one is ended. -/
theorem statements : (Grammar.statements g).Steady n := by
  refine .repeated (.bind (.whileLook .op .op) fun _ => .look .end_ fun _ => .ite (.pure rfl) ?_)
  refine .bind (.statement hg) fun (_, _) => .look .end_ fun _ => .ite (.pure (by simp)) ?_
  exact .failHereIf .rfl (.pure (by simp))

/-! ### Data types -/

theorem namedField {fields : Rule} (h : fields.Steady n) :
    (Grammar.namedField g fields).Steady n := by
  refine .bind (.seq ⟨.outerAttributes hg, .visibilityNodes⟩) fun _ => .look .word fun unnamed => ?_
  have hname : (if unnamed then Rule.anyWord else Rule.identifier).Steady n :=
    .ite .anyWord .identifier
  refine .bind (.seq ⟨hname, .op⟩) fun _ =>
    .look (.or .word (.and .word (.second .brace))) fun _ => ?_
  exact .ite (.bind (.seq ⟨.anyWord, h⟩) fun _ => .pure (by simp))
    (.bind hg.type fun _ => .pure (by simp))

/-- Fields in fields, up to a depth. -/
theorem namedFieldsUpTo {depth : Nat} : (Grammar.namedFieldsUpTo g depth).Steady n := by
  induction depth with
  | zero => exact .failHere
  | succ depth ih => exact .braces (.commas (.namedField hg ih))

theorem namedFields : (Grammar.namedFields g).Steady n :=
  .stream fun s t hs => by
    rw [hs.rest, weight_pushed]
    exact .namedFieldsUpTo hg

theorem tupleFields : (Grammar.tupleFields g).Steady n :=
  .parens (.commas (.seq ⟨.outerAttributes hg, .visibilityNodes, .one hg.type⟩))

theorem structItem : (Grammar.structItem g).Steady n := by
  refine .bind (.seq ⟨.visibilityNodes, .word, .identifier, .optionalGenerics hg⟩) fun _ =>
    .bind (.optionalWhere hg) fun _ => .look .paren fun _ => .cond (by simp) ?_ ?_
  · exact .bind (.seq ⟨.tupleFields hg, .optionalWhere hg, .op⟩) fun _ => .pure (by simp)
  · exact .bind (.choose ⟨⟨.brace, .namedFields hg⟩, .op, .op⟩) fun _ => .pure (by simp)

theorem variant : (Grammar.variant g).Steady n :=
  .seq ⟨.outerAttributes hg, .visibilityNodes, .identifier, .choose ⟨⟨.brace, .namedFields hg⟩,
    ⟨.paren, .tupleFields hg⟩, .always, .empty⟩, .onlyIf .op (.seq ⟨.op, .one hg.expression⟩)⟩

theorem enumItem : (Grammar.enumItem g).Steady n :=
  .seq ⟨.visibilityNodes, .word, .identifier, .optionalGenerics hg, .optionalWhere hg,
    .braces (.commas (.variant hg))⟩

theorem unionItem : (Grammar.unionItem g).Steady n :=
  .seq ⟨.visibilityNodes, .word, .identifier, .optionalGenerics hg, .optionalWhere hg,
    .namedFields hg⟩

/-! ### Traits -/

theorem traitFunction : (Grammar.traitFunction g).Steady n :=
  .bind (.signature hg) fun (_, _) =>
    .bind (.choose ⟨⟨.brace, .blockBody hg⟩, .op, .op⟩) fun _ => .pure (by simp)

theorem traitConstant : (Grammar.traitConstant g).Steady n := by
  refine .look (.second (.or .identifier .word)) fun _ => .ite
    (.ifLegal (.bind (.constantDefinition hg) fun _ => .pure rfl)) ?_
  exact .look (.second .words) fun _ => .ite (.node (.traitFunction hg))
    (.bind .word fun _ => .failHere)

theorem traitMember : (Grammar.traitMember g).Steady n := by
  refine .bind (.outerAttributes hg) fun _ => .bind (.ifLegal (.bind
    (.seq ⟨.visibilityNodes, .optionalWord⟩) fun head => ?_)) fun _ => .pure (by simp)
  refine .look .signatureAhead fun _ => .look .word fun _ => .look .word fun _ =>
    .look .macroStart fun _ => .ite (.bind (.node (.traitFunction hg)) fun _ => .pure (by simp)) ?_
  refine .ite (.bind (.traitConstant hg) fun _ => .pure (by simp)) (.ite
    (.bind (.aliasDefinition hg) fun found => .bind (.pure ?_) fun _ => .pure (by simp)) ?_)
  · cases found
    simp
  · exact .cond (by simp) (.bind (.macroItem hg) fun (_, _) => .bind (.pure (by simp)) fun _ =>
      .pure (by simp)) (.bind .failHere fun _ => .pure (by simp))

theorem traitRest : (Grammar.traitRest g).Steady n :=
  .seq ⟨.onlyIf .op (.seq ⟨.op, .upTo (.or .word .brace) (.boundNodes hg)⟩), .optionalWhere hg,
    .braces (.seq ⟨.innerAttributes hg, .ruleUntilEnd (.traitMember hg)⟩)⟩

theorem qualifiedTrait : (Grammar.qualifiedTrait g).Steady n :=
  .seq ⟨.visibilityNodes, .optionalWord, .optionalWord, .word, .identifier, .optionalGenerics hg,
    .traitRest hg⟩

theorem traitItem : (Grammar.traitItem g).Steady n :=
  .seq ⟨.visibilityNodes, .word, .identifier, .optionalGenerics hg,
    .choose ⟨⟨.any ⟨.brace, .op, .word⟩, .traitRest hg⟩, .op,
      .seq ⟨.op, .upTo (.or .word .op) (.boundNodes hg), .optionalWhere hg, .op⟩⟩⟩

/-! ### Foreign items -/

theorem foreignStatic : (Grammar.foreignStatic g).Steady n := by
  refine .ifLegal (.bind .visibilityNodes fun _ => .bind (.onlyIf .words .anyWord) fun _ => ?_)
  refine .bind (.seq ⟨.word, .optionalWord, .identifier, .op, .one hg.type⟩) fun _ => ?_
  exact .bind (.onlyIf .op (.seq ⟨.op, .one hg.expression⟩)) fun _ => .bind .op fun _ =>
    .pure (by simp)

theorem foreignFunction : (Grammar.foreignFunction g).Steady n := by
  refine .ifLegal (.bind .visibilityNodes fun _ => .look .word fun _ =>
    .bind (.signature hg) fun (_, _) => .look .brace fun _ => .ite ?_ ?_)
  · exact .bind (.blockBody hg) fun _ => .pure (by simp)
  · exact .bind .op fun _ => .pure (by simp)

theorem foreignAlias : (Grammar.foreignAlias g).Steady n :=
  .ifLegal (.bind .visibilityNodes fun _ => .bind (.aliasDefinition hg) fun found =>
    .pure (by cases found; simp))

omit hg in
theorem behindVisibility : Grammar.behindVisibility.Steady n :=
  .peek (.bind .visibility fun (_, _) => .stream fun s t hs => .pure (by simp [hs.rest]))

theorem foreignItem : (Grammar.foreignItem g).Steady n := by
  refine .bind (.outerAttributes hg) fun _ => .bind .behindVisibility fun (mark, rest) => ?_
  have hstatic : (Look.or (.word "static")
      (.and (.words ["unsafe", "safe"]) (.second (.word "static")))).Steady n :=
    .or .word (.and .words (.second .word))
  refine .cond (by simp [Look.Steady.signatureAhead.eq])
    (.bind (.foreignFunction hg) fun _ => .pure (by simp)) ?_
  refine .cond (by rw [← hstatic.eq rest]) (.bind (.foreignStatic hg) fun _ => .pure (by simp)) ?_
  refine .cond (by simp [Look.Steady.word.eq])
    (.bind (.foreignAlias hg) fun _ => .pure (by simp)) ?_
  refine .cond (by simp [Look.Steady.macroStart.eq]) (.bind (.macroItem hg) fun (_, _) =>
    .bind (.pure (by simp)) fun _ => .pure (by simp)) ?_
  exact .bind .failBefore fun _ => .pure (by simp)

theorem foreignBlock : (Grammar.foreignBlock g).Steady n :=
  .seq ⟨.optionalWord, .word, .onlyIf .text .text,
    .braces (.seq ⟨.innerAttributes hg, .ruleUntilEnd (.foreignItem hg)⟩)⟩

/-! ### Use declarations -/

theorem useGroup {root : Bool} : (Grammar.useGroup g root).Steady n := by
  refine .bind (.inGroup (.repeated (.look .end_ fun _ => .ite (.pure rfl) ?_)))
    fun (found, span) => .pure (by simp [any_pushed (p := Prod.fst) n (fst_pushed n),
      pushed_flatMap (f := Prod.snd) n (snd_pushed n)])
  refine .iteBind .rfl .optionalOp .empty fun sign => ?_
  simp only [pushed_isEmpty]
  exact .bind hg.useTree fun (_, _) => .look .end_ fun _ => .ite (.pure (by simp))
    (.bind .op fun _ => .pure (by simp))

/-- A tree of names. -/
theorem useTree {root : Bool} : (Grammar.useTree g root).Steady n := by
  refine .look (.or .identifier .words) fun _ => .ite (.bind .anyWord fun _ => .look .op fun _ =>
    .ite ?_ ?_) (.look .op fun _ => .ite (.bind .op fun _ => .pure rfl) (.useGroup hg))
  · exact .bind .op fun _ => .bind hg.useTree fun (_, _) => .pure (by simp)
  · exact .bind (.onlyIf .word (.seq ⟨.word, .choose ⟨⟨.identifier, .identifier⟩,
      .word, .anyWord⟩⟩)) fun _ => .pure (by simp)

theorem useItem : (Grammar.useItem g).Steady n := by
  refine .ifLegal (.bind (.seq ⟨.visibilityNodes, .word⟩) fun _ => .bind .optionalOp fun sign => ?_)
  rw [pushed_isEmpty]
  exact .bind hg.useTree fun (_, _) => .bind .op fun _ => .pure (by simp)

/-! ### Items -/

theorem functionItem : (Grammar.functionItem g).Steady n :=
  .bind .visibilityNodes fun _ => .bind (.signature hg) fun (_, _) =>
    .bind (.choose ⟨⟨.op, .op⟩, .always, .blockBody hg⟩) fun _ => .pure (by simp)

theorem staticItem : (Grammar.staticItem g).Steady n := by
  have hvalue : (Rule.seq [Rule.op "=", Rule.one (g.expression true), Rule.op ";"]).Steady n :=
    .seq ⟨.op, .one hg.expression, .op⟩
  refine .ifLegal (.bind (.seq ⟨.visibilityNodes, .word, .optionalWord, .identifier⟩) fun _ =>
    .look .op fun _ => .ite (.bind hvalue fun _ => .pure (by simp)) ?_)
  refine .bind (.seq ⟨.op, .one hg.type⟩) fun _ => .look .op fun _ => .ite ?_ ?_
  · exact .bind .op fun _ => .pure (by simp)
  · exact .bind hvalue fun _ => .pure (by simp)

theorem constantItem : (Grammar.constantItem g).Steady n :=
  .ifLegal (.bind .visibilityNodes fun _ => .bind (.constantDefinition hg) fun found =>
    .pure (by cases found; simp))

theorem aliasItem : (Grammar.aliasItem g).Steady n :=
  .ifLegal (.bind .visibilityNodes fun _ => .bind (.aliasDefinition hg) fun found =>
    .pure (by cases found; simp))

theorem moduleItem : (Grammar.moduleItem g).Steady n := by
  refine .bind (.seq ⟨.visibilityNodes, .optionalWord, .word,
    .choose ⟨⟨.word, .anyWord⟩, .always, .identifier⟩⟩) fun _ => .look .op fun _ => .ite
      (.bind .op fun _ => .pure (by simp)) ?_
  refine .bind (.inGroup (.bind (.innerAttributes hg) fun _ => .bind (.untilEnd
    (.bind (.outerAttributes hg) fun _ => hg.item)) fun _ => .pure rfl)) fun ((_, items), _) =>
      .pure ?_
  simp [map_pushed (f := Item.node) n fun _ => rfl,
    pushed_flatMap (f := Item.blocks) n fun _ => rfl]

theorem implementationItem : (Grammar.implementationItem g).Steady n :=
  .bind (.written (.implementation hg)) fun (block, _) => .pure (by cases block <;> simp)

omit hg in
theorem macroDefinition : Grammar.macroDefinition.Steady n :=
  .seq ⟨.visibilityNodes, .word, .identifier, .onlyIf .paren .anyGroup, .token (.treeIf .brace)⟩

theorem namedMacro : (Grammar.namedMacro g).Steady n := by
  refine .bind .plainPath fun _ => .bind .op fun _ => .bind (.choose ⟨⟨.word, .anyWord⟩,
    ⟨.identifier, .identifier⟩, .always, .empty⟩) fun _ => ?_
  exact .bind (.treeIf (.any ⟨.paren, .bracket, .brace⟩)) fun _ => .iteBind (by simp) .empty .op
    fun _ => .pure (by simp [bodyArguments_pushed hg])

theorem externItem {rest : List Tree} :
    (Grammar.externItem g rest).Carries n (Grammar.externItem g (pushed n rest)) := by
  unfold Grammar.externItem
  simp only [drop_pushed, Look.Steady.word.eq, Look.Steady.brace.eq, Look.Steady.text.eq]
  exact .ite .externCrate (.ite (.foreignBlock hg) (.ite (.ite (.foreignBlock hg) .failBefore)
    .failBefore))

omit hg in
/-- An item that is a node and no more. -/
theorem simple {r r' : Reader Node} (h : r.Carries n r') :
    (do return ({ node := ← r } : Item)).Carries n (do return { node := ← r' }) :=
  .bind h fun _ => .pure rfl

omit hg in
theorem attributedItem {attributes : List Node} {r r' : Reader Item} (h : r.Carries n r') :
    (do
      let found ← r
      return { found with node := .attributedItem attributes found.node }).Carries n (do
        let found ← r'
        return { found with node := .attributedItem (pushed n attributes) found.node }) :=
  .bind h fun found => .pure (by cases found; simp)

/-- The first word behind the visibility decides which item it is. -/
theorem item {attributes : List Node} :
    (Grammar.item g attributes).Carries n (Grammar.item g (pushed n attributes)) := by
  refine .bind .behindVisibility fun (mark, rest) => ?_
  have hunion : (Look.and (.word "union") (.second .identifier)).Steady n :=
    .and .word (.second .identifier)
  have htrait : (Look.or (.word "trait") autoTrait).Steady n := .or .word .autoTrait
  have himpl : (Look.or (.word "impl")
      (.and (.word "default") (.not (.second (.op "!"))))).Steady n :=
    .or .word (.and .word (.not (.second .op)))
  simp only [pushed_pair, Look.Steady.signatureAhead.eq, Look.Steady.word.eq, hunion.eq, himpl.eq,
    Look.Steady.autoTrait.eq, Look.Steady.macroStart.eq, drop_pushed, ← apply_ite (pushed n),
    htrait.eq, pushed_visibilityMark]
  exact .ite (.attributedItem (.simple (.node (.functionItem hg)))) <|
    .ite (.attributedItem (.simple (.node (.externItem hg)))) <|
    .ite (.attributedItem (.simple (.useItem hg))) <|
    .ite (.attributedItem (.simple (.staticItem hg))) <|
    .ite (.attributedItem (.simple (.constantItem hg))) <|
    .ite (.attributedItem (.simple (.node (.qualifiedTrait hg)))) <|
    .ite (.attributedItem (.implementationItem hg)) <|
    .ite (.attributedItem (.simple (.node (.foreignBlock hg)))) <|
    .ite (.attributedItem (.moduleItem hg)) <|
    .ite (.attributedItem .failBefore) <|
    .ite (.attributedItem (.simple (.aliasItem hg))) <|
    .ite (.attributedItem (.simple (.node (.structItem hg)))) <|
    .ite (.attributedItem (.simple (.node (.enumItem hg)))) <|
    .ite (.attributedItem (.simple (.node (.unionItem hg)))) <|
    .ite (.attributedItem (.simple (.node (.traitItem hg)))) <|
    .ite (.attributedItem (.simple (.node (.qualifiedTrait hg)))) <|
    .ite (.attributedItem (.implementationItem hg)) <|
    .ite (.attributedItem (.simple (.node (.asWritten .macroDefinition)))) <|
    .ite (.attributedItem (.simple (.namedMacro hg))) (.attributedItem .failBefore)

end Reader.Carries

/-! ### Whole texts -/

variable {n : Nat}

/-- The rules do not look at places, however deep they go through each other. -/
theorem rules_areSteady {arguments : List Tree → List Node}
    (h : ∀ inner, arguments (pushed n inner) = pushed n (arguments inner)) (depth : Nat) :
    (rules arguments depth).AreSteady n := by
  induction depth with
  | zero =>
    constructor
    case arguments => exact h
    all_goals exact .failHere
  | succ depth ih =>
    unfold rules
    constructor
    case arguments => exact h
    all_goals
      dsimp only
      refine .deferred ?_
    exacts [.type ih, .bound ih, .expression ih, .operand ih, .operators ih, .standing ih,
      .pattern ih, .alternatives ih, .statements ih, .item ih, .useTree ih]

theorem getD_pushed (found : Option (List Node)) :
    (pushed n found).getD [] = pushed n (found.getD []) := by
  cases found <;> rfl

/-- Both texts are read to their ends, or neither is. -/
theorem toOption_readAll {α : Type} [HasPlaces α] {r : Reader α} (h : r.Steady n)
    (trees : List Tree) :
    (readAll r (pushed n trees)).toOption = pushed n (readAll r trees).toOption := by
  have hs : Stream.Pushed n { rest := trees, stop := .start }
      { rest := pushed n trees, stop := .start } := ⟨rfl, rfl, rfl⟩
  unfold readAll
  rcases (h.alike hs).cases with ⟨p, q, hrun, hrun'⟩ | ⟨a, s, t, hrun, hrun', hrest⟩
  · rw [hrun, hrun']
    rfl
  · rw [hrun, hrun']
    obtain ⟨rest, stop, last, stray⟩ := s
    obtain ⟨rest', stop', last', stray'⟩ := t
    obtain ⟨rfl, _, hstray⟩ := hrest
    cases stray <;> cases stray' <;> cases hstray <;> cases rest <;> rfl

/-- The arguments of macros are read alike. The induction is on the weight: a macro in them has
lighter arguments. -/
theorem toOption_expressionList (trees : List Tree) :
    (expressionList (pushed n trees)).toOption = pushed n (expressionList trees).toOption := by
  induction hweight : Lexeme.weight trees using Nat.strongRecOn generalizing trees with
  | ind weight ih =>
    subst hweight
    rw [expressionList, expressionList, depthFor, depthFor, weight_pushed]
    refine toOption_readAll (.commas (.one (rules_areSteady (fun inner => ?_) _).expression)) trees
    rw [weight_pushed]
    split
    · next hlighter =>
      rw [ih _ hlighter inner rfl]
      exact getD_pushed ..
    · rfl

/-- **Where its first line starts does not change what is read of a text.** -/
theorem toOption_blocks (trees : List Tree) :
    (blocks (pushed n trees)).toOption = pushed n (blocks trees).toOption := by
  have hg : (rulesFor trees).AreSteady n := rules_areSteady (fun inner => by
    rw [toOption_expressionList]
    exact getD_pushed ..) _
  have heq : rulesFor (pushed n trees) = rulesFor trees := by
    rw [rulesFor, rulesFor, depthFor, depthFor, weight_pushed]
  rw [blocks, blocks, heq]
  refine toOption_readAll ?_ trees
  exact .bind (.innerAttributes hg) fun _ => .bind (.untilEnd (.bind (.outerAttributes hg) fun _ =>
    hg.item)) fun _ => .pure (pushed_flatMap (f := Item.blocks) n (fun _ => rfl) _)

end CalleeFirst.Grammar
