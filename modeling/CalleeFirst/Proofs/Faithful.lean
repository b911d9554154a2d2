import CalleeFirst.Proofs.Readers

/-! Macros among the nodes.

A macro keeps its body as it is written, and the arguments that the body is a list of.
A node is faithful if this is so of every macro in it: the arguments are what the body is
read as, whatever text it was met in. Whether the body is a list of expressions can be told
only of a body that is lighter than the text, and so `Reader.IsFaithful` speaks of trees of a
bounded weight. Taking trees and going into a group both keep the bound. -/
namespace CalleeFirst

namespace Lexeme

theorem weight_append (a b : List Tree) : weight (a ++ b) = weight a + weight b := by
  induction a with
  | nil => simp [weight]
  | cons tree rest ih => rw [List.cons_append, weight, weight, ih, Nat.add_assoc]

theorem weight_inner_lt {trees inner rest : List Tree} {delimiter : Delimiter} {span : Span}
    (h : trees = .group delimiter inner span :: rest) : weight inner < weight trees := by
  rw [h, weight, weightTree]
  omega

end Lexeme

namespace Grammar

open Lexeme (Delimiter Position Span Tree weight)
open Reader Rule
open Syntax (ArgumentRole Block Form Item Member MemberKind Node Signature)

/-! ### Nodes -/

/-- The arguments of a macro with this body. -/
def argumentsOf (inner : List Tree) : List Node := (expressionList inner).toOption.getD []

/-- The arguments of every macro in the node are what its body is a list of. -/
inductive FaithfulNode : Node → Prop where
  | token {tree : Tree} : FaithfulNode (.token tree)
  | group {delimiter : Delimiter} {span : Span} {inner : List Node}
      (inside : ∀ n ∈ inner, FaithfulNode n) :
      FaithfulNode (.group delimiter span inner)
  | phrase {form : Form} {parts : List Node} (inside : ∀ n ∈ parts, FaithfulNode n) :
      FaithfulNode (.phrase form parts)
  | methodCall {receiver : Node} {method : String} {rest : List Node}
      (before : FaithfulNode receiver)
      (behind : ∀ n ∈ rest, FaithfulNode n) : FaithfulNode (.methodCall receiver method rest)
  | invocation {braces : Bool} {head : List Node} {delimiter : Delimiter} {inner : List Tree}
      {span : Span} :
      FaithfulNode (.invocation braces (head ++
        [.token (.group delimiter inner span)]) (argumentsOf inner))

/-- Values with nodes in them. -/
class HasNodes (α : Type) where
  nodes : α → List Node

instance (priority := low) noNodes {α : Type} : HasNodes α := ⟨fun _ => []⟩

instance : HasNodes Node := ⟨fun n => [n]⟩

instance {α : Type} [HasNodes α] : HasNodes (List α) := ⟨List.flatMap HasNodes.nodes⟩

instance {α β : Type} [HasNodes α] [HasNodes β] : HasNodes (α × β) :=
  ⟨fun p => HasNodes.nodes p.1 ++ HasNodes.nodes p.2⟩

instance {α : Type} [HasNodes α] : HasNodes (Option α) := ⟨fun a => HasNodes.nodes a.toList⟩

/-- Values without nodes. -/
class Plain (α : Type) [HasNodes α] : Prop where
  nodes_eq : ∀ a : α, HasNodes.nodes a = []

instance {α : Type} : @Plain α noNodes := ⟨fun _ => rfl⟩

instance {α : Type} [HasNodes α] [Plain α] : Plain (List α) where
  nodes_eq _ := List.flatMap_eq_nil_iff.mpr fun a _ => Plain.nodes_eq a

instance {α : Type} [HasNodes α] [Plain α] : Plain (Option α) := ⟨fun a => Plain.nodes_eq a.toList⟩

/-- All nodes in a value are faithful. -/
def Faithful {α : Type} [HasNodes α] (a : α) : Prop := ∀ n ∈ HasNodes.nodes a, FaithfulNode n

namespace Faithful
variable {α β : Type} [HasNodes α] [HasNodes β]

theorem of_nodes_eq_nil {a : α} (h : HasNodes.nodes a = []) : Faithful a := by
  rw [Faithful, h]
  exact fun _ h => absurd h List.not_mem_nil

@[grind ←] theorem plain [Plain α] (a : α) : Faithful a := of_nodes_eq_nil (Plain.nodes_eq a)

theorem node_iff {n : Node} : Faithful n ↔ FaithfulNode n := List.forall_mem_singleton

@[grind =] theorem nil : Faithful ([] : List α) ↔ True := iff_true_intro (of_nodes_eq_nil rfl)

@[grind =] theorem cons {a : α} {l : List α} : Faithful (a :: l) ↔ Faithful a ∧ Faithful l := by
  simp only [Faithful, HasNodes.nodes, List.flatMap_cons, List.forall_mem_append]

@[grind =] theorem singleton {a : α} : Faithful [a] ↔ Faithful a := by rw [cons, nil, and_true]

@[grind =] theorem append {a b : List α} : Faithful (a ++ b) ↔ Faithful a ∧ Faithful b := by
  simp only [Faithful, HasNodes.nodes, List.flatMap_append, List.forall_mem_append]

theorem list_iff {l : List α} : Faithful l ↔ ∀ a ∈ l, Faithful a := by
  induction l with
  | nil => simp [nil]
  | cons a l ih => rw [cons, ih, List.forall_mem_cons]

@[grind =] theorem pair {p : α × β} : Faithful p ↔ Faithful p.1 ∧ Faithful p.2 :=
  List.forall_mem_append

@[grind =] theorem none : Faithful (Option.none : Option α) ↔ True := nil

@[grind =] theorem some {a : α} : Faithful (Option.some a) ↔ Faithful a := by
  rw [show Faithful (Option.some a) ↔ Faithful [a] from Iff.rfl, singleton]

@[grind ←] theorem map {f : α → β} {l : List α} (h : Faithful l)
    (hf : ∀ a, Faithful a → Faithful (f a)) :
    Faithful (l.map f) := by
  rw [list_iff] at h ⊢
  intro b hb
  obtain ⟨a, ha, rfl⟩ := List.mem_map.mp hb
  exact hf a (h a ha)

@[grind ←] theorem flatMap {f : α → List β} {l : List α} (h : Faithful l)
    (hf : ∀ a, Faithful a → Faithful (f a)) :
    Faithful (l.flatMap f) := by
  rw [list_iff] at h ⊢
  intro b hb
  obtain ⟨a, ha, hb⟩ := List.mem_flatMap.mp hb
  exact list_iff.mp (hf a (h a ha)) b hb

@[grind =] theorem token {tree : Tree} : Faithful (Node.token tree) ↔ True :=
  iff_true_intro (node_iff.mpr .token)

@[grind =] theorem phrase {form : Form} {parts : List Node} :
    Faithful (Node.phrase form parts) ↔ Faithful parts := by
  simp only [list_iff, node_iff]
  exact ⟨fun | .phrase inside => inside, .phrase⟩

@[grind =] theorem group {delimiter : Delimiter} {span : Span} {inner : List Node} :
    Faithful (Node.group delimiter span inner) ↔ Faithful inner := by
  simp only [list_iff, node_iff]
  exact ⟨fun | .group inside => inside, .group⟩

@[grind =] theorem methodCall {receiver : Node} {method : String} {rest : List Node} :
    Faithful (Node.methodCall receiver method rest) ↔ Faithful receiver ∧ Faithful rest := by
  simp only [list_iff, node_iff]
  exact ⟨fun | .methodCall before behind => ⟨before, behind⟩, fun h => .methodCall h.1 h.2⟩

theorem invocation {braces : Bool} {written arguments : List Node} :
    Faithful (Node.invocation braces written arguments) ↔ ∃ head delimiter inner span,
      written = head ++ [.token (.group delimiter inner span)] ∧ arguments = argumentsOf inner := by
  rw [node_iff]
  constructor
  · rintro (_ | _ | _ | _ | _)
    exact ⟨_, _, _, _, rfl, rfl⟩
  · rintro ⟨head, delimiter, inner, span, rfl, rfl⟩
    exact .invocation

theorem arguments_eq {braces : Bool} {head arguments list : List Node} {delimiter : Delimiter}
    {inner : List Tree} {span : Span} (h : Faithful
      (Node.invocation braces (head ++ [.token (.group delimiter inner span)]) arguments))
    (hlist : expressionList inner = .ok list) : arguments = list := by
  obtain ⟨_, _, inner', _, hwritten, rfl⟩ := invocation.mp h
  obtain ⟨_, hlast⟩ := List.append_inj' hwritten rfl
  cases hlast
  rw [argumentsOf, hlist]
  rfl

@[grind ←] theorem tokens (trees : List Tree) : Faithful (trees.map Node.token) :=
  map (plain trees) fun _ _ => token.mpr trivial

@[grind ←] theorem attributed {attributes : List Node} {n : Node} (h : Faithful attributes)
    (hn : Faithful n) :
    Faithful (Node.attributed attributes n) := by
  unfold Node.attributed
  split
  · exact hn
  · grind

@[grind ←] theorem attributedItem {attributes : List Node} {n : Node} (h : Faithful attributes)
    (hn : Faithful n) :
    Faithful (Node.attributedItem attributes n) := by
  unfold Node.attributedItem
  split
  · grind
  · exact phrase.mpr (append.mpr ⟨tokens _, phrase.mp hn⟩)
  · exact attributed h hn

end Faithful

/-! ### Readers -/

/-- Trees of a bounded weight. -/
def light (n : Nat) : Kept where
  Holds trees := weight trees ≤ n
  behind {taken rest} h := by
    rw [Lexeme.weight_append] at h
    exact Nat.le_trans (Nat.le_add_left _ _) h

/-- A reader makes faithful values of trees of this weight. -/
structure Reader.IsFaithful {α : Type} [HasNodes α] (n : Nat) (r : Reader α) : Prop where
  makes : r.Makes (light n) Faithful

namespace Reader.IsFaithful
variable {n : Nat} {α β : Type} [HasNodes α] [HasNodes β]

@[grind ←] theorem pure {a : α} (h : Faithful a) : (Pure.pure a : Reader α).IsFaithful n :=
  ⟨.pure h⟩

@[grind ←] theorem bind {r : Reader α} {f : α → Reader β} (hr : r.IsFaithful n)
    (hf : ∀ a, Faithful a → (f a).IsFaithful n) : (r >>= f).IsFaithful n :=
  ⟨.bind hr.makes fun a ha => (hf a ha).makes⟩

/-- Whatever was read before. -/
theorem skip {γ : Type} {r : Reader γ} {f : γ → Reader β} (hf : ∀ a, (f a).IsFaithful n) :
    (r >>= f).IsFaithful n :=
  ⟨.skip fun a => (hf a).makes⟩

theorem ite {c : Prop} [Decidable c] {r r' : Reader α} (hr : r.IsFaithful n)
    (hr' : r'.IsFaithful n) :
    (if c then r else r').IsFaithful n := ⟨.ite hr.makes hr'.makes⟩

/-- What was read in one of two ways is gone on with in the same way. -/
theorem iteBind {c : Prop} [Decidable c] {r r' : Reader α} {f : α → Reader β} (hr : r.IsFaithful n)
    (hr' : r'.IsFaithful n) (hf : ∀ a, Faithful a → (f a).IsFaithful n) :
    (if c then r >>= f else r' >>= f).IsFaithful n :=
  .ite (.bind hr hf) (.bind hr' hf)

/-- A reader of what has no nodes. -/
@[grind ←] theorem plain [Plain α] (r : Reader α) : r.IsFaithful n := ⟨⟨fun _ _ => .plain _⟩⟩

@[grind ←] theorem failAt {place : Position} : (Reader.failAt place : Reader α).IsFaithful n :=
  ⟨.failAt place⟩

@[grind ←] theorem failHere : (Reader.failHere : Reader α).IsFaithful n := ⟨.failHere⟩

/-- Behind a failure anything may stand. -/
@[grind ←] theorem failAt_bind {γ : Type} {place : Position} {f : γ → Reader β} :
    (Reader.failAt place >>= f).IsFaithful n := ⟨⟨fun _ hrun => by cases hrun⟩⟩

theorem failAtIf {c : Prop} [Decidable c] {place : Position} {f : PUnit → Reader β}
    (hf : (f ⟨⟩).IsFaithful n) :
    (if c then Reader.failAt place >>= f else f ⟨⟩).IsFaithful n := .ite .failAt_bind hf

theorem failHereIf {c : Prop} [Decidable c] {f : PUnit → Reader β} (hf : (f ⟨⟩).IsFaithful n) :
    (if c then Reader.failHere >>= f else f ⟨⟩).IsFaithful n :=
  .ite (.bind .failHere fun _ _ => hf) hf

@[grind ←] theorem failBefore {trees : List Tree} :
    (Grammar.failBefore trees : Reader α).IsFaithful n :=
  ⟨.failBefore trees⟩

@[grind ←] theorem deferred {r : Unit → Reader α} (h : (r ()).IsFaithful n) :
    (Reader.deferred r).IsFaithful n :=
  ⟨⟨h.makes.of_run⟩⟩

@[grind ←] theorem inGroup {delimiter : Delimiter} {r : Reader α} (h : r.IsFaithful n) :
    (Reader.inGroup delimiter r).IsFaithful n where
  makes.of_run hs hrun := by
    obtain ⟨inner, s', t', hrest, _, hinner, hread⟩ := of_run_inGroup hrun
    have hlight : weight s'.rest ≤ n := by
      rw [hinner]
      exact Nat.le_trans (Nat.le_of_lt (Lexeme.weight_inner_lt hrest)) hs
    exact Faithful.pair.mpr ⟨h.makes.of_run hlight hread, .plain _⟩

@[grind ←] theorem attempt {r : Reader α} (h : r.IsFaithful n) :
    (Reader.attempt r).IsFaithful n where
  makes.of_run hs hrun := by
    unfold Reader.attempt at hrun
    dsimp only at hrun
    split at hrun
    · next value t hvalue =>
      cases hrun
      exact Faithful.some.mpr (h.makes.of_run hs hvalue)
    · cases hrun
      exact Faithful.none.mpr trivial

@[grind ←] theorem written {r : Reader α} (h : r.IsFaithful n) : (Reader.written r).IsFaithful n :=
  .skip fun _ => .bind h fun _ ha => .skip fun _ => .pure (Faithful.pair.mpr ⟨ha, .tokens _⟩)

@[grind ←] theorem repeatUpTo {body : Reader (List α × Bool)} (h : body.IsFaithful n)
    (bound : Nat) :
    (Reader.repeatUpTo body bound).IsFaithful n := by
  induction bound with grind [Reader.repeatUpTo]

@[grind ←] theorem repeated {body : Reader (List α × Bool)} (h : body.IsFaithful n) :
    (Reader.repeated body).IsFaithful n := .skip fun _ => repeatUpTo h _

@[grind ←] theorem untilEnd {r : Reader α} (h : r.IsFaithful n) :
    (Reader.untilEnd r).IsFaithful n := by
  grind [Reader.untilEnd]

@[grind ←] theorem wordIf {question : Look} : (Reader.wordIf question).IsFaithful n := by
  grind [Reader.wordIf]

@[grind ←] theorem takeWord : takeWord.IsFaithful n := wordIf

@[grind ←] theorem takeIdentifier : takeIdentifier.IsFaithful n := wordIf

@[grind ←] theorem takeMarks {marks : List Char} : (Reader.takeMarks marks).IsFaithful n := by
  induction marks with grind [Reader.takeMarks]

end Reader.IsFaithful

/-! ### Rules for single tokens -/

namespace Rule
variable {n : Nat} {text : String} {question : Look} {rule : Rule}

@[grind ←] theorem empty_isFaithful : empty.IsFaithful n := by grind [empty]

@[grind ←] theorem op_isFaithful : (op text).IsFaithful n := by grind [op]

@[grind ←] theorem word_isFaithful : (word text).IsFaithful n := by grind [word]

@[grind ←] theorem anyWord_isFaithful : anyWord.IsFaithful n := by grind [anyWord]

@[grind ←] theorem identifier_isFaithful : identifier.IsFaithful n := by grind [identifier]

@[grind ←] theorem lifetime_isFaithful : lifetime.IsFaithful n := by grind [lifetime]

@[grind ←] theorem literal_isFaithful : literal.IsFaithful n := by
  unfold literal
  refine .skip fun _ => .ite (.skip fun tree => ?_) .failHere
  grind

@[grind ←] theorem text_isFaithful : Rule.text.IsFaithful n := by grind [Rule.text]

@[grind ←] theorem anyGroup_isFaithful : anyGroup.IsFaithful n := by grind [anyGroup]

/-! ### Putting rules together -/

@[grind ←] theorem seq_isFaithful {rules : List Rule} (h : ∀ rule ∈ rules, rule.IsFaithful n) :
    (seq rules).IsFaithful n := by
  induction rules with grind [seq]

@[grind ←] theorem onlyIf_isFaithful (h : rule.IsFaithful n) :
    (onlyIf question rule).IsFaithful n := by
  grind [onlyIf]

@[grind ←] theorem choose_isFaithful {rules : List (Look × Rule)}
    (h : ∀ choice ∈ rules, choice.2.IsFaithful n) :
    (choose rules).IsFaithful n := by
  induction rules with grind [choose]

@[grind ←] theorem node_isFaithful {form : Form} (h : rule.IsFaithful n) :
    (node form rule).IsFaithful n := by
  grind [node]

@[grind ←] theorem one_isFaithful {reader : Reader Node} (h : reader.IsFaithful n) :
    (one reader).IsFaithful n := by
  grind [one]

@[grind ←] theorem optionalOp_isFaithful : (optionalOp text).IsFaithful n :=
  onlyIf_isFaithful op_isFaithful

@[grind ←] theorem optionalWord_isFaithful : (optionalWord text).IsFaithful n :=
  onlyIf_isFaithful word_isFaithful

@[grind ←] theorem optionalLifetime_isFaithful : optionalLifetime.IsFaithful n :=
  onlyIf_isFaithful lifetime_isFaithful

@[grind ←] theorem group_isFaithful {delimiter : Delimiter} (h : rule.IsFaithful n) :
    (group delimiter rule).IsFaithful n := by
  grind [group]

@[grind ←] theorem parens_isFaithful (h : rule.IsFaithful n) : (parens rule).IsFaithful n :=
  group_isFaithful h

@[grind ←] theorem brackets_isFaithful (h : rule.IsFaithful n) : (brackets rule).IsFaithful n :=
  group_isFaithful h

@[grind ←] theorem braces_isFaithful (h : rule.IsFaithful n) : (braces rule).IsFaithful n :=
  group_isFaithful h

@[grind ←] theorem whileLook_isFaithful (h : rule.IsFaithful n) :
    (whileLook question rule).IsFaithful n := by
  grind [whileLook]

@[grind ←] theorem untilEnd_isFaithful (h : rule.IsFaithful n) : (untilEnd rule).IsFaithful n :=
  whileLook_isFaithful h

@[grind ←] theorem upTo_isFaithful (h : rule.IsFaithful n) :
    (upTo question rule text).IsFaithful n := by
  unfold upTo
  refine .repeated (.skip fun _ => .ite (by grind) (.bind h fun found hfound => ?_))
  grind

@[grind ←] theorem commas_isFaithful (h : rule.IsFaithful n) : (commas rule).IsFaithful n :=
  upTo_isFaithful h

@[grind ←] theorem chain_isFaithful (h : rule.IsFaithful n) :
    (chain question rule text).IsFaithful n := by
  unfold chain
  refine .repeated (.skip fun _ => .ite (by grind) (.bind h fun found hfound => ?_))
  grind

@[grind ←] theorem asWritten_isFaithful {α : Type} (reader : Reader α) :
    (asWritten reader).IsFaithful n := by
  have hwritten : (written reader).Makes (light n) fun found => Faithful found.2 :=
    .skip fun _ => .skip fun _ => .skip fun _ => .pure (.tokens _)
  exact ⟨.bind hwritten fun _ h => .pure h⟩

end Rule

end Grammar

end CalleeFirst
