import CalleeFirst.Source.Calls
import Mathlib.Data.List.Basic

/-! What a node refers to.

A node refers to a sibling (`Refers`) by calling a method of `self` or as a path that starts with
`Self`. The names collected of a node are those that it refers to itself and those collected of its
parts. So they are the same after any change that keeps forms, methods and the number of parts
(`Reshapes`): tokens and their places do not matter, nor how a macro is written, nor anything in a
nested item. -/
namespace CalleeFirst.Source

open Lexeme (Delimiter Span Tree)
open Syntax (Form Node)

/-- An expression is `self`, in any number of parentheses. Attributes on it do not matter. -/
inductive SelfValue : Node → Prop where
  | name {word : Node} : SelfValue (.phrase (.path .value false) [.phrase (.segment "self") [word]])
  | parens {delimiter : Delimiter} {span : Span} {inner : Node} (h : SelfValue inner) :
      SelfValue (.phrase .paren [.group delimiter span [inner]])
  | attributed {attributes : List Node} {n : Node} (h : SelfValue n) :
      SelfValue (.phrase .attributed (attributes ++ [n]))

/-- A node refers to a sibling: it is a call of a method of `self`, or a path of two segments for a
value whose first is `Self`. -/
inductive Refers (name : String) : Node → Prop where
  | method {receiver : Node} {rest : List Node} (h : SelfValue receiver) :
      Refers name (.methodCall receiver name rest)
  | path {parts : List Node} (h : Node.segmentNames parts = ["Self", name]) :
      Refers name (.phrase (.path .value false) parts)

/-! ### What is collected -/

theorem lastIsSelfValue_append (front : List Node) (last : Node) :
    lastIsSelfValue (front ++ [last]) = isSelfValue last := by
  induction front with
  | nil => rfl
  | cons first front ih =>
    cases front with
    | nil => rfl
    | cons next front => exact ih

theorem isSelfValue_of_selfValue {n : Node} (h : SelfValue n) : isSelfValue n = true := by
  induction h with
  | name => rfl
  | parens _ ih => exact ih
  | attributed _ ih =>
    rw [isSelfValue, lastIsSelfValue_append]
    exact ih

mutual

theorem selfValue_of_isSelfValue : ∀ n : Node, isSelfValue n = true → SelfValue n
  | n, h => by
    unfold isSelfValue at h
    split at h
    · unfold Node.isSoleWord at h
      split at h
      · cases beq_iff_eq.mp h
        exact .name
      · cases h
    · next inner => exact .parens (selfValue_of_isSelfValue inner h)
    · next parts =>
      obtain ⟨front, last, rfl, hlast⟩ := selfValue_of_lastIsSelfValue parts h
      exact .attributed hlast
    · cases h

theorem selfValue_of_lastIsSelfValue : ∀ nodes : List Node, lastIsSelfValue nodes = true →
    ∃ front last, nodes = front ++ [last] ∧ SelfValue last
  | [last], h => ⟨[], last, rfl, selfValue_of_isSelfValue last h⟩
  | first :: next :: rest, h => by
    obtain ⟨front, last, heq, hlast⟩ := selfValue_of_lastIsSelfValue (next :: rest) h
    exact ⟨first :: front, last, by rw [heq, List.cons_append], hlast⟩

end

/-- The test for a `self` receiver holds exactly of the values that are `self` but for groups. -/
theorem isSelfValue_iff {n : Node} : isSelfValue n = true ↔ SelfValue n :=
  ⟨selfValue_of_isSelfValue n, isSelfValue_of_selfValue⟩

/-- What a phrase refers to: itself, if it is a path of the right form, and its parts, unless
it is an item of its own. -/
theorem references_phrase (form : Form) (parts : List Node) : references (.phrase form parts) =
    if form = .nested then []
    else (if form = .path .value false then siblingOfPath parts else []) ++
      referencesAll parts := by
  unfold references
  split <;> simp_all

variable {name : String}

theorem mem_siblingOfPath {parts : List Node} :
    name ∈ siblingOfPath parts ↔ Node.segmentNames parts = ["Self", name] := by
  unfold siblingOfPath
  split <;> grind

/-- A phrase mentions a name if it refers to it itself or one of its parts mentions it. -/
theorem mem_references_phrase {form : Form} {parts : List Node} :
    name ∈ references (.phrase form parts) ↔
    Refers name (.phrase form parts) ∨ form ≠ .nested ∧ name ∈ referencesAll parts := by
  have hpath : Refers name (.phrase form parts) ↔ form = .path .value false ∧
      name ∈ siblingOfPath parts := by
    rw [mem_siblingOfPath]
    exact ⟨fun | .path h => ⟨rfl, h⟩, fun ⟨hform, h⟩ => hform ▸ .path h⟩
  rw [hpath, references_phrase]
  grind

/-- A method call mentions a name if it is a call of it on `self`, or one of its parts
mentions it. -/
theorem mem_references_methodCall {receiver : Node} {method : String} {rest : List Node} :
    name ∈ references (.methodCall receiver method rest) ↔
      Refers name (.methodCall receiver method rest) ∨
      name ∈ references receiver ∨ name ∈ referencesAll rest := by
  have hmethod : Refers name (.methodCall receiver method rest) ↔ name = method ∧
      isSelfValue receiver = true := by
    rw [isSelfValue_iff]
    exact ⟨fun | .method h => ⟨rfl, h⟩, fun ⟨hname, h⟩ => hname ▸ .method h⟩
  rw [hmethod, references]
  grind

theorem mem_references_of_refers {n : Node} (h : Refers name n) : name ∈ references n := by
  cases h with
  | method h => exact mem_references_methodCall.mpr (.inl (.method h))
  | path h => exact mem_references_phrase.mpr (.inl (.path h))

theorem mem_referencesAll {nodes : List Node} :
    name ∈ referencesAll nodes ↔ ∃ n ∈ nodes, name ∈ references n := by
  induction nodes with
  | nil => simp [referencesAll]
  | cons n rest ih => simp [referencesAll, ih]

/-! ### What does not matter -/

/-- A function on nodes goes into the parts of every node, and keeps what a node is. -/
structure Reshapes (f : Node → Node) : Prop where
  token (tree : Tree) : ∃ tree', f (.token tree) = .token tree'
  group (delimiter : Delimiter) (span : Span) (inner : List Node) :
    ∃ span', f (.group delimiter span inner) = .group delimiter span' (inner.map f)
  nested (parts : List Node) : ∃ parts', f (.phrase .nested parts) = .phrase .nested parts'
  phrase {form : Form} (h : form ≠ .nested) (parts : List Node) : f (.phrase form parts) =
    .phrase form (parts.map f)
  methodCall (receiver : Node) (method : String) (rest : List Node) :
    f (.methodCall receiver method rest) = .methodCall (f receiver) method (rest.map f)
  invocation (braces : Bool) (written arguments : List Node) :
    ∃ written', f (.invocation braces written arguments) =
      .invocation braces written' (arguments.map f)

namespace Reshapes
variable {f : Node → Node} (hf : Reshapes f)
include hf

theorem of_phrase {n : Node} {form : Form} {parts' : List Node} (h : f n = .phrase form parts')
    (hform : form ≠ .nested) : ∃ parts, n = .phrase form parts ∧ parts.map f = parts' := by
  cases n with
  | token tree => grind [hf.token tree]
  | group delimiter span inner => grind [hf.group delimiter span inner]
  | phrase form' parts =>
    by_cases hform' : form' = .nested
    · grind [hf.nested parts]
    · grind [hf.phrase hform' parts]
  | methodCall receiver method rest => grind [hf.methodCall receiver method rest]
  | invocation braces written arguments => grind [hf.invocation braces written arguments]

theorem of_group {n : Node} {delimiter : Delimiter} {span' : Span} {inner' : List Node}
    (h : f n = .group delimiter span' inner') :
    ∃ span inner, n = .group delimiter span inner ∧ inner.map f = inner' := by
  cases n with
  | token tree => grind [hf.token tree]
  | group delimiter span inner => grind [hf.group delimiter span inner]
  | phrase form' parts =>
    by_cases hform' : form' = .nested
    · grind [hf.nested parts]
    · grind [hf.phrase hform' parts]
  | methodCall receiver method rest => grind [hf.methodCall receiver method rest]
  | invocation braces written arguments => grind [hf.invocation braces written arguments]

/-- A reshaped value is `self` if and only if the value was. -/
theorem selfValue_iff {n : Node} : SelfValue (f n) ↔ SelfValue n := by
  constructor
  · intro h
    generalize hn : f n = n' at h
    induction h generalizing n with
    | name =>
      obtain ⟨parts, rfl, hparts⟩ := hf.of_phrase hn (by simp)
      obtain ⟨segment, rfl, hsegment⟩ := List.map_eq_singleton_iff.mp hparts
      obtain ⟨words, rfl, hwords⟩ := hf.of_phrase hsegment (by simp)
      obtain ⟨word, rfl, _⟩ := List.map_eq_singleton_iff.mp hwords
      exact .name
    | parens _ ih =>
      obtain ⟨parts, rfl, hparts⟩ := hf.of_phrase hn (by simp)
      obtain ⟨part, rfl, hpart⟩ := List.map_eq_singleton_iff.mp hparts
      obtain ⟨span, inner, rfl, hinner⟩ := hf.of_group hpart
      obtain ⟨value, rfl, hvalue⟩ := List.map_eq_singleton_iff.mp hinner
      exact .parens (ih hvalue)
    | attributed _ ih =>
      obtain ⟨parts, rfl, hparts⟩ := hf.of_phrase hn (by simp)
      obtain ⟨attributes, last, rfl, _, hlast⟩ := List.map_eq_append_iff.mp hparts
      obtain ⟨value, rfl, hvalue⟩ := List.map_eq_singleton_iff.mp hlast
      exact .attributed (ih hvalue)
  · intro h
    induction h with
    | name =>
      rw [hf.phrase (by simp), List.map_singleton, hf.phrase (by simp)]
      exact .name
    | @parens delimiter span inner _ ih =>
      obtain ⟨span', hgroup⟩ := hf.group delimiter span [inner]
      rw [hf.phrase (by simp), List.map_singleton, hgroup]
      exact .parens ih
    | attributed _ ih =>
      rw [hf.phrase (by simp), List.map_append]
      exact .attributed ih

theorem isSelfValue_eq (n : Node) : isSelfValue (f n) = isSelfValue n := by
  rw [Bool.eq_iff_iff, isSelfValue_iff, isSelfValue_iff, hf.selfValue_iff]

/-- Reshaping keeps the words of a path. -/
theorem segmentNames_map (parts : List Node) :
    Node.segmentNames (parts.map f) = Node.segmentNames parts := by
  rw [Node.segmentNames, List.filterMap_map]
  refine List.filterMap_congr fun n _ => ?_
  rw [Function.comp_apply]
  cases n with
  | token tree =>
    obtain ⟨_, htree⟩ := hf.token tree
    rw [htree]
  | group delimiter span inner =>
    obtain ⟨_, hgroup⟩ := hf.group delimiter span inner
    rw [hgroup]
  | phrase form parts =>
    by_cases hform : form = .nested
    · subst hform
      obtain ⟨_, hnested⟩ := hf.nested parts
      rw [hnested]
    · rw [hf.phrase hform]
      cases form <;> rfl
  | methodCall receiver method rest => rw [hf.methodCall]
  | invocation braces written arguments =>
    obtain ⟨_, hinvocation⟩ := hf.invocation braces written arguments
    rw [hinvocation]

end Reshapes

mutual

/-- Reshaping keeps what is referred to, in the same order. -/
theorem Reshapes.references_eq {f : Node → Node} (hf : Reshapes f) :
    ∀ n : Node, references (f n) = references n
  | .token tree => by
    obtain ⟨_, htree⟩ := hf.token tree
    rw [htree, references, references]
  | .group delimiter span inner => by
    obtain ⟨_, hgroup⟩ := hf.group delimiter span inner
    rw [hgroup, references, references, hf.referencesAll_map inner]
  | .phrase form parts => by
    by_cases hform : form = .nested
    · subst hform
      obtain ⟨_, hnested⟩ := hf.nested parts
      rw [hnested, references, references]
    · rw [hf.phrase hform, references_phrase, references_phrase, siblingOfPath, siblingOfPath,
        hf.segmentNames_map, hf.referencesAll_map parts]
  | .methodCall receiver method rest => by
    rw [hf.methodCall, references, references, hf.isSelfValue_eq, hf.references_eq receiver,
      hf.referencesAll_map rest]
  | .invocation braces written arguments => by
    obtain ⟨_, hinvocation⟩ := hf.invocation braces written arguments
    rw [hinvocation, references, references, hf.referencesAll_map arguments]

theorem Reshapes.referencesAll_map {f : Node → Node} (hf : Reshapes f) :
    ∀ nodes : List Node, referencesAll (nodes.map f) = referencesAll nodes
  | [] => rfl
  | n :: rest => by
    rw [List.map_cons, referencesAll, referencesAll, hf.references_eq n, hf.referencesAll_map rest]

end

/-- The calls of a body are read off the forms and words of its nodes, so they are the calls of
the reshaped body. -/
theorem Reshapes.callsOf_map {f : Node → Node} (hf : Reshapes f) (nodes : List Node) :
    callsOf (nodes.map f) = callsOf nodes := by
  rw [callsOf, callsOf, hf.referencesAll_map]

end CalleeFirst.Source
