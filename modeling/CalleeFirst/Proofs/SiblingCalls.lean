import CalleeFirst.Proofs.FaithfulRules
import CalleeFirst.Proofs.References
import CalleeFirst.Source.Text

/-! The names that a body refers to.

A body refers to a sibling at a place (`Refers`) that stands in it at any depth (`Within`), outside
of the functions and implementations that it declares. The body of a macro is such a place where it
is a list of expressions, which is asked of the body as it is written. That the arguments kept with
a macro are these expressions is what makes the nodes faithful, and so the collected names are
exactly the ones referred to. -/
namespace CalleeFirst.Source

open Grammar (Faithful argumentsOf expressionList)
open Lexeme (Delimiter Span Tree)
open Syntax (Block Form Member Node Signature)

/-! ### Places -/

/-- A node stands in nodes, at any depth outside of nested items. What stands in a macro is asked of
its body. -/
inductive Within (n : Node) : List Node → Prop where
  | here {nodes : List Node} (h : n ∈ nodes) : Within n nodes
  | group {nodes inner : List Node} {delimiter : Delimiter} {span : Span}
      (h : .group delimiter span inner ∈ nodes)
      (inside : Within n inner) : Within n nodes
  | phrase {nodes parts : List Node} {form : Form} (h : .phrase form parts ∈ nodes)
      (hform : form ≠ .nested)
      (inside : Within n parts) : Within n nodes
  | receiver {nodes rest : List Node} {receiver : Node} {method : String}
      (h : .methodCall receiver method rest ∈ nodes)
      (inside : Within n [receiver]) : Within n nodes
  | behindDot {nodes rest : List Node} {receiver : Node} {method : String}
      (h : .methodCall receiver method rest ∈ nodes) (inside : Within n rest) : Within n nodes
  | invocation {nodes head arguments list : List Node} {braces : Bool} {delimiter : Delimiter}
      {inner : List Tree}
      {span : Span} (h : .invocation braces (head ++
        [.token (.group delimiter inner span)]) arguments ∈ nodes)
      (hlist : expressionList inner = .ok list) (inside : Within n list) : Within n nodes

theorem Within.mono {n : Node} {nodes more : List Node} (h : Within n nodes)
    (hmore : ∀ n ∈ nodes, n ∈ more) :
    Within n more := by
  cases h with
  | here h => exact .here (hmore _ h)
  | group h inside => exact .group (hmore _ h) inside
  | phrase h hform inside => exact .phrase (hmore _ h) hform inside
  | receiver h inside => exact .receiver (hmore _ h) inside
  | behindDot h inside => exact .behindDot (hmore _ h) inside
  | invocation h hlist inside => exact .invocation (hmore _ h) hlist inside

variable {name : String}

/-! ### Names at any depth -/

/-- What is collected at a place is collected of the whole. -/
theorem Within.mem_referencesAll {n : Node} {nodes : List Node} (h : Within n nodes)
    (hnodes : Faithful nodes) (hname : name ∈ references n) : name ∈ referencesAll nodes := by
  induction h with
  | here h => exact Source.mem_referencesAll.mpr ⟨n, h, hname⟩
  | group h _ ih =>
    have hinner := Faithful.group.mp (Faithful.list_iff.mp hnodes _ h)
    exact Source.mem_referencesAll.mpr ⟨_, h, ih hinner⟩
  | phrase h hform _ ih =>
    have hparts := Faithful.phrase.mp (Faithful.list_iff.mp hnodes _ h)
    exact Source.mem_referencesAll.mpr ⟨_, h, mem_references_phrase.mpr (.inr ⟨hform, ih hparts⟩)⟩
  | receiver h _ ih =>
    have hreceiver := (Faithful.methodCall.mp (Faithful.list_iff.mp hnodes _ h)).1
    have hinside := ih (Faithful.singleton.mpr hreceiver)
    rw [referencesAll, referencesAll, List.append_nil] at hinside
    exact Source.mem_referencesAll.mpr ⟨_, h, mem_references_methodCall.mpr (.inr (.inl hinside))⟩
  | behindDot h _ ih =>
    have hrest := (Faithful.methodCall.mp (Faithful.list_iff.mp hnodes _ h)).2
    exact Source.mem_referencesAll.mpr ⟨_, h,
      mem_references_methodCall.mpr (.inr (.inr (ih hrest)))⟩
  | invocation h hlist _ ih =>
    have harguments := Faithful.arguments_eq (Faithful.list_iff.mp hnodes _ h) hlist
    refine Source.mem_referencesAll.mpr ⟨_, h, ?_⟩
    rw [references, harguments]
    exact ih (Grammar.faithful_of_expressionList hlist)

mutual

/-- What is collected of a node is referred to at a place in it. -/
theorem exists_within_of_mem_references : ∀ n : Node, Faithful n → name ∈ references n →
    ∃ place, Within place [n] ∧ Refers name place
  | .token _, _, h => by simp [references] at h
  | .group _ _ inner, hn, h => by
    obtain ⟨place, hplace, hrefers⟩ := exists_within_of_mem_referencesAll inner
      (Faithful.group.mp hn) h
    exact ⟨place, .group (List.mem_singleton_self _) hplace, hrefers⟩
  | .phrase form parts, hn, h => by
    rcases mem_references_phrase.mp h with hrefers | ⟨hform, h⟩
    · exact ⟨_, .here (List.mem_singleton_self _), hrefers⟩
    · obtain ⟨place, hplace, hrefers⟩ := exists_within_of_mem_referencesAll parts
        (Faithful.phrase.mp hn) h
      exact ⟨place, .phrase (List.mem_singleton_self _) hform hplace, hrefers⟩
  | .methodCall receiver method rest, hn, h => by
    rcases mem_references_methodCall.mp h with hrefers | h | h
    · exact ⟨_, .here (List.mem_singleton_self _), hrefers⟩
    · obtain ⟨place, hplace, hrefers⟩ := exists_within_of_mem_references receiver
        (Faithful.methodCall.mp hn).1 h
      exact ⟨place, .receiver (List.mem_singleton_self _) hplace, hrefers⟩
    · obtain ⟨place, hplace, hrefers⟩ := exists_within_of_mem_referencesAll rest
        (Faithful.methodCall.mp hn).2 h
      exact ⟨place, .behindDot (List.mem_singleton_self _) hplace, hrefers⟩
  | .invocation braces written arguments, hn, h => by
    obtain ⟨head, delimiter, inner, span, rfl, hinner⟩ := Faithful.invocation.mp hn
    rw [references] at h
    cases hlist : expressionList inner with
    | error place =>
      rw [hinner, argumentsOf, hlist] at h
      cases h
    | ok list =>
      -- The recursion goes into the arguments, which are parts of the node. That they are faithful
      -- is known of the list that the body is read as.
      have harguments : arguments = list := Faithful.arguments_eq hn hlist
      have hfaithful : Faithful arguments := harguments ▸ Grammar.faithful_of_expressionList hlist
      obtain ⟨place, hplace, hrefers⟩ := exists_within_of_mem_referencesAll arguments hfaithful h
      exact ⟨place, .invocation (List.mem_singleton_self _) hlist (harguments ▸ hplace), hrefers⟩

theorem exists_within_of_mem_referencesAll :
    ∀ nodes : List Node, Faithful nodes → name ∈ referencesAll nodes →
    ∃ place, Within place nodes ∧ Refers name place
  | [], _, h => by simp [referencesAll] at h
  | n :: rest, hnodes, h => by
    obtain ⟨hn, hrest⟩ := Faithful.cons.mp hnodes
    rw [referencesAll, List.mem_append] at h
    rcases h with h | h
    · obtain ⟨place, hplace, hrefers⟩ := exists_within_of_mem_references n hn h
      exact ⟨place, hplace.mono (by simp), hrefers⟩
    · obtain ⟨place, hplace, hrefers⟩ := exists_within_of_mem_referencesAll rest hrest h
      exact ⟨place, hplace.mono fun _ => List.mem_cons_of_mem n, hrefers⟩

end

/-- **Collected names.** The names collected of faithful nodes are exactly the names that are
referred to in them. -/
theorem mem_callsOf_of_faithful {body : List Node} (h : Faithful body) :
    name ∈ callsOf body ↔ ∃ place, Within place body ∧ Refers name place := by
  rw [callsOf, NameSet.mem_ofList]
  constructor
  · exact exists_within_of_mem_referencesAll body h
  · rintro ⟨place, hplace, hrefers⟩
    exact hplace.mem_referencesAll h (mem_references_of_refers hrefers)

/-! ### Bodies of functions -/

/-- The body of a function that a text is, or that is a member of a block in the text. -/
inductive FunctionBody (text : List Char) (body : List Node) : Prop where
  | alone {found : List Tree} {signature : Signature} (hscan : Lexeme.scan text = .ok found)
      (h : Grammar.function found = .ok (.function signature body)) : FunctionBody text body
  | member {found : List Tree} {blocks : List Block} {b : Block} {m : Member}
      {signature : Signature}
      (hscan : trees (withoutMark text) = .ok found) (h : Grammar.blocks found = .ok blocks)
      (hblock : b ∈ blocks)
      (hmember : m ∈ b.members) (hkind : m.kind = .function signature body) : FunctionBody text body

theorem FunctionBody.faithful {text : List Char} {body : List Node} (h : FunctionBody text body) :
    Faithful body := by
  cases h with
  | alone _ h => exact Faithful.function.mp (Grammar.faithful_of_function h)
  | member _ h hblock hmember hkind =>
    have hmembers := Faithful.block.mp (Faithful.list_iff.mp (Grammar.faithful_of_blocks h) _
      hblock)
    have hfaithful := Faithful.member.mp (Faithful.list_iff.mp hmembers _ hmember)
    rw [hkind] at hfaithful
    exact Faithful.function.mp hfaithful

/-- The body of the function that a text is. -/
def bodyOf? (text : List Char) : Option (List Node) :=
  match Lexeme.scan text >>= Grammar.function with
  | .ok (.function _ body) => some body
  | _ => none

theorem functionBody_of_bodyOf? {text : List Char} {body : List Node}
    (h : bodyOf? text = some body) :
    FunctionBody text body := by
  unfold bodyOf? at h
  cases hscan : Lexeme.scan text with
  | error place =>
    rw [hscan] at h
    cases h
  | ok found =>
    rw [hscan] at h
    split at h
    · next hfunction =>
      cases h
      exact .alone hscan hfunction
    · cases h

/-- **Names of siblings.** The names collected of the body of a function are exactly the names that
are referred to in it, at any depth outside of the functions and implementations that it declares
and through the macros whose bodies are lists of expressions. -/
theorem callsOf_exact {text : List Char} {body : List Node} (h : FunctionBody text body)
    (name : String) :
    name ∈ callsOf body ↔ ∃ place, Within place body ∧ Refers name place :=
  mem_callsOf_of_faithful h.faithful

/-- There is a reference in a closure, one in a macro in a macro, one in a nested function, one in a
macro of some other form, and a call of what another call returns. -/
def siblingsText : List Char :=
  "fn a(&self) \x7b let f = || ((self)).b(); m!(self.c().d(), v![Self::e]); ".toList ++
    "fn g() \x7b Self::h() \x7d m!(i => self.j()); \x7d".toList

theorem callsOf_exact_sample : ∃ body, FunctionBody siblingsText body ∧
    (∃ place, Within place body ∧ Refers "e" place) ∧
      ¬ (∃ place, Within place body ∧ Refers "h" place) := by
  have hnames : (bodyOf? siblingsText).map (fun body => (callsOf body).toList) =
      some ["b", "c", "e"] := by
    decide +kernel
  obtain ⟨body, hbody, hnames⟩ := Option.map_eq_some_iff.mp hnames
  have hfunction := functionBody_of_bodyOf? hbody
  have hmem (name : String) : name ∈ callsOf body ↔ name ∈ ["b", "c", "e"] := by rw [← hnames]; rfl
  refine ⟨body, hfunction, (callsOf_exact hfunction "e").mp ?_, fun h => ?_⟩
  · exact (hmem "e").mpr (by decide)
  · exact absurd ((hmem "h").mp ((callsOf_exact hfunction "h").mpr h)) (by decide)

end CalleeFirst.Source
