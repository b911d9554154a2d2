import CalleeFirst.Proofs.SiblingCalls
import CalleeFirst.Proofs.Moved

/-! Items inside of a body.

A function or an implementation that a body declares is a scope of its own: whatever it contains,
the body refers to the same siblings. The outline of a body leaves out what such items contain, and
bodies with one outline refer to the same siblings. No other item is a scope. What a trait, a
constant, a variable of the program or a module refers to is a reference of the body that declares
it, though `Self` is not the type of the block there. -/
namespace CalleeFirst.Source

open Grammar (Faithful)
open Syntax (Form Node unplacedNodes)

/-! ### Outlines -/

mutual

/-- A node with nothing in its functions and implementations. Of a macro only the arguments are
kept. -/
def sealedNode : Node → Node
  | .token tree => .token tree
  | .group delimiter span inner => .group delimiter span (sealedNodes inner)
  | .phrase .nested _ => .phrase .nested []
  | .phrase form parts => .phrase form (sealedNodes parts)
  | .methodCall receiver method rest => .methodCall (sealedNode receiver) method (sealedNodes rest)
  | .invocation braces _ arguments => .invocation braces [] (sealedNodes arguments)

def sealedNodes : List Node → List Node
  | [] => []
  | node :: rest => sealedNode node :: sealedNodes rest

end

/-- What is left of a body without places and without what its functions and implementations
contain. -/
def outline (body : List Node) : List Node := unplacedNodes (sealedNodes body)

theorem sealedNodes_eq (nodes : List Node) : sealedNodes nodes = nodes.map sealedNode := by
  induction nodes with
  | nil => rfl
  | cons node rest ih => rw [sealedNodes, ih, List.map_cons]

theorem sealed_reshapes : Reshapes sealedNode where
  token tree := ⟨tree, rfl⟩
  group delimiter span inner := ⟨span, by rw [sealedNode, sealedNodes_eq]⟩
  nested parts := ⟨[], rfl⟩
  phrase hform parts := by
    rw [sealedNode, sealedNodes_eq]
    exact hform
  methodCall receiver method rest := by rw [sealedNode, sealedNodes_eq]
  invocation braces written arguments := ⟨[], by rw [sealedNode, sealedNodes_eq]⟩

theorem callsOf_outline (body : List Node) : callsOf (outline body) = callsOf body := by
  rw [outline, callsOf_unplaced, sealedNodes_eq, sealed_reshapes.callsOf_map]

/-! ### Other items -/

/-- What stands in a phrase stands where the phrase stands, unless that is a nested item. -/
theorem Within.inside {form : Form} {n : Node} {parts nodes : List Node}
    (h : Within (.phrase form parts) nodes) (hform : form ≠ .nested) (hn : Within n parts) :
    Within n nodes := by
  induction h with
  | here h => exact .phrase h hform hn
  | group h _ ih => exact .group h ih
  | phrase h hform' _ ih => exact .phrase h hform' ih
  | receiver h _ ih => exact .receiver h ih
  | behindDot h _ ih => exact .behindDot h ih
  | invocation h hlist _ ih => exact .invocation h hlist ih

/-- **Scopes in a body.** Bodies that differ only in what their functions and implementations
contain refer to the same siblings. Of every other phrase in a body, be it an item or not, what it
refers to is a reference of the body. -/
theorem callsOf_scopes {text : List Char} {body : List Node} (h : FunctionBody text body) :
    (∀ other, outline other = outline body → callsOf other = callsOf body) ∧
    ∀ form parts, Within (.phrase form parts) body → form ≠ .nested →
      ∀ name place, Within place parts → Refers name place → name ∈ callsOf body := by
  constructor
  · intro other hother
    rw [← callsOf_outline other, hother, callsOf_outline]
  · intro form parts hparts hform name place hplace hrefers
    exact (mem_callsOf_of_faithful h.faithful).mpr ⟨place, hparts.inside hform hplace, hrefers⟩

/-- A body with a function in the argument of a macro, and with a trait that has a constant. -/
def scopesText (inFunction : String) : List Char := String.toList
  ("fn a(&self) \x7b m!(\x7b fn g() \x7b " ++ inFunction ++
    " \x7d 1 \x7d); trait Q \x7b const K: u8 = Self::k(); \x7d \x7d")

/-- The parts of the last statement of a body. -/
def lastStatement? (body : List Node) : Option (List Node) :=
  match body.getLast? with
  | some (.phrase .plain parts) => some parts
  | _ => none

theorem mem_of_lastStatement? {body parts : List Node} (h : lastStatement? body = some parts) :
    .phrase .plain parts ∈ body := by
  unfold lastStatement? at h
  split at h
  · next hlast =>
    cases h
    exact List.mem_of_getLast? hlast
  · cases h

theorem callsOf_scopes_sample : ∃ body other, FunctionBody (scopesText "Self::h()") body ∧
    FunctionBody (scopesText "b.c(1); 2") other ∧ other ≠ body ∧ callsOf other = callsOf body ∧
      "k" ∈ callsOf body := by
  have houtline : (bodyOf? (scopesText "b.c(1); 2")).map outline =
      (bodyOf? (scopesText "Self::h()")).map outline := by
    decide +kernel
  have hother : bodyOf? (scopesText "b.c(1); 2") ≠ bodyOf? (scopesText "Self::h()") := by
    decide +kernel
  have hnames : ((bodyOf? (scopesText "Self::h()")).bind lastStatement?).map
    (fun parts => (callsOf parts).toList) =
      some ["k"] := by decide +kernel
  obtain ⟨parts, hparts, hnames⟩ := Option.map_eq_some_iff.mp hnames
  obtain ⟨body, hbody, hlast⟩ := Option.bind_eq_some_iff.mp hparts
  rw [hbody] at houtline hother
  obtain ⟨other, hsome, houtline⟩ := Option.map_eq_some_iff.mp houtline
  have hfunction := functionBody_of_bodyOf? hbody
  obtain ⟨hsame, hinside⟩ := callsOf_scopes hfunction
  refine ⟨body, other, hfunction, functionBody_of_bodyOf? hsome, ?_, hsame other houtline, ?_⟩
  · rintro rfl
    exact hother hsome
  · have hstatement := mem_of_lastStatement? hlast
    have hfaithful := Faithful.phrase.mp (Faithful.list_iff.mp hfunction.faithful _ hstatement)
    have hname : "k" ∈ callsOf parts := by
      rw [NameSet.mem_iff, hnames]
      decide
    obtain ⟨place, hplace, hrefers⟩ := (mem_callsOf_of_faithful hfaithful).mp hname
    exact hinside .plain parts (.here hstatement) (by decide) "k" place hplace hrefers

/-- A body with a trait. -/
def traitText (inTrait : String) : List Char :=
  ("fn a(&self) \x7b trait Q \x7b " ++ inTrait ++ " \x7d \x7d").toList

/-- A nested trait is no scope: what it contains changes what the body refers to. -/
theorem callsOf_reads_trait : ∃ body other,
      FunctionBody (traitText "const K: u8 = Self::dflt();") body ∧
    FunctionBody (traitText "") other ∧ (callsOf body).toList = ["dflt"] ∧
      (callsOf other).toList = [] := by
  have hnames : (bodyOf? (traitText "const K: u8 = Self::dflt();")).map
    (fun body => (callsOf body).toList) =
      some ["dflt"] := by
    decide +kernel
  have hnone : (bodyOf? (traitText "")).map (fun body => (callsOf body).toList) = some [] := by
    decide +kernel
  obtain ⟨body, hbody, hnames⟩ := Option.map_eq_some_iff.mp hnames
  obtain ⟨other, hother, hnone⟩ := Option.map_eq_some_iff.mp hnone
  exact ⟨body, other, functionBody_of_bodyOf? hbody, functionBody_of_bodyOf? hother, hnames, hnone⟩

end CalleeFirst.Source
