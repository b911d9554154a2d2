import CalleeFirst.Proofs.References
import CalleeFirst.Source.Blocks

/-! Syntax at other places.

Trees and nodes carry the places that they were read from. `moved` moves the places, and all that
is asked of a member afterwards stays the same: how it is written out, what it calls, and so what
it declares (`declare_moved`). Generic arguments are printed with commas that stand nowhere, so
what is nowhere has to stay there.

Whether two members are the same with their places can be decided. -/
namespace CalleeFirst

namespace Lexeme

def Span.moved (f : Position → Position) (span : Span) : Span := ⟨f span.start, f span.stop⟩

mutual

/-- The tree with its places moved. -/
def Tree.moved (f : Position → Position) : Tree → Tree
  | .word text span => .word text (span.moved f)
  | .mark char joined span => .mark char joined (span.moved f)
  | .literal text span => .literal text (span.moved f)
  | .group delimiter inner span => .group delimiter (movedTrees f inner) (span.moved f)

def movedTrees (f : Position → Position) : List Tree → List Tree
  | [] => []
  | tree :: rest => tree.moved f :: movedTrees f rest

end

variable {f : Position → Position}

theorem movedTrees_eq (trees : List Tree) : movedTrees f trees = trees.map (Tree.moved f) := by
  induction trees with
  | nil => rfl
  | cons tree rest ih => rw [movedTrees, ih, List.map_cons]

@[simp] theorem Tree.moved_group (delimiter : Delimiter) (inner : List Tree) (span : Span) :
    (Tree.group delimiter inner span).moved f =
      .group delimiter (inner.map (Tree.moved f)) (span.moved f) := by
  rw [Tree.moved, movedTrees_eq]

@[simp] theorem Tree.isJoined_moved (tree : Tree) : (tree.moved f).isJoined = tree.isJoined := by
  cases tree <;> rfl

mutual

/-- Printing never looks at a place. -/
theorem renderTree_moved : ∀ tree : Tree, renderTree (tree.moved f) = renderTree tree
  | .word _ _ => rfl
  | .mark _ _ _ => rfl
  | .literal _ _ => rfl
  | .group .paren inner _ => by rw [Tree.moved_group, renderTree, renderTree, render_moved inner]
  | .group .bracket inner _ => by rw [Tree.moved_group, renderTree, renderTree, render_moved inner]
  | .group .brace [] _ => rfl
  | .group .brace (first :: rest) _ => by
    have hinner := render_moved (first :: rest)
    rw [List.map_cons] at hinner
    rw [Tree.moved_group, List.map_cons, renderTree, renderTree, hinner]

theorem render_moved : ∀ trees : List Tree, render (trees.map (Tree.moved f)) = render trees
  | [] => rfl
  | [last] => renderTree_moved last
  | first :: second :: rest => by
    have hrest := render_moved (second :: rest)
    rw [List.map_cons] at hrest
    rw [List.map_cons, List.map_cons, render, render, renderTree_moved first, hrest,
      Tree.isJoined_moved]

end

mutual

theorem weightTree_moved : ∀ tree : Tree, weightTree (tree.moved f) = weightTree tree
  | .word _ _ => rfl
  | .mark _ _ _ => rfl
  | .literal _ _ => rfl
  | .group _ inner _ => by rw [Tree.moved_group, weightTree, weightTree, weight_moved inner]

/-- Trees weigh the same everywhere. -/
theorem weight_moved : ∀ trees : List Tree, weight (trees.map (Tree.moved f)) = weight trees
  | [] => rfl
  | tree :: rest => by
    rw [List.map_cons, weight, weight, weightTree_moved tree, weight_moved rest]

end

/-! ### Equality -/

mutual

def Tree.same : Tree → Tree → Bool
  | .word text span, .word text' span' => text == text' && span == span'
  | .mark char joined span, .mark char' joined' span' =>
    char == char' && joined == joined' && span == span'
  | .literal text span, .literal text' span' => text == text' && span == span'
  | .group delimiter inner span, .group delimiter' inner' span' =>
    delimiter == delimiter' && sameTrees inner inner' && span == span'
  | _, _ => false

def sameTrees : List Tree → List Tree → Bool
  | [], [] => true
  | tree :: rest, tree' :: rest' => tree.same tree' && sameTrees rest rest'
  | _, _ => false

end

mutual

/-- The test `same` is equality. -/
theorem Tree.same_iff : ∀ a b : Tree, a.same b = true ↔ a = b
  | .word _ _, b => by cases b <;> simp [Tree.same]
  | .mark _ _ _, b => by cases b <;> simp [Tree.same, and_assoc]
  | .literal _ _, b => by cases b <;> simp [Tree.same]
  | .group _ inner _, b => by
    cases b with
    | group _ inner' _ => simp [Tree.same, sameTrees_iff inner inner', and_assoc]
    | _ => simp [Tree.same]

theorem sameTrees_iff : ∀ as bs : List Tree, sameTrees as bs = true ↔ as = bs
  | [], [] => by simp [sameTrees]
  | [], _ :: _ => by simp [sameTrees]
  | _ :: _, [] => by simp [sameTrees]
  | a :: as, b :: bs => by simp [sameTrees, Tree.same_iff a b, sameTrees_iff as bs]

end

instance : DecidableEq Tree := fun a b => decidable_of_iff _ (a.same_iff b)

end Lexeme

namespace Syntax

open Lexeme (Delimiter Position Span Tree)

mutual

/-- The node with its places moved. -/
def Node.moved (f : Position → Position) : Node → Node
  | .token tree => .token (tree.moved f)
  | .group delimiter span inner => .group delimiter (span.moved f) (movedNodes f inner)
  | .phrase form parts => .phrase form (movedNodes f parts)
  | .methodCall receiver method rest => .methodCall (receiver.moved f) method (movedNodes f rest)
  | .invocation braces written arguments =>
    .invocation braces (movedNodes f written) (movedNodes f arguments)

def movedNodes (f : Position → Position) : List Node → List Node
  | [] => []
  | node :: rest => node.moved f :: movedNodes f rest

end

variable {f : Position → Position}

theorem movedNodes_eq (nodes : List Node) : movedNodes f nodes = nodes.map (Node.moved f) := by
  induction nodes with
  | nil => rfl
  | cons node rest ih => rw [movedNodes, ih, List.map_cons]

namespace Node

@[simp] theorem moved_group (delimiter : Delimiter) (span : Span) (inner : List Node) :
    (Node.group delimiter span inner).moved f =
      .group delimiter (span.moved f) (inner.map (moved f)) := by
  rw [moved, movedNodes_eq]

@[simp] theorem moved_phrase (form : Form) (parts : List Node) :
    (Node.phrase form parts).moved f = .phrase form (parts.map (moved f)) := by
  rw [moved, movedNodes_eq]

@[simp] theorem moved_methodCall (receiver : Node) (method : String) (rest : List Node) :
    (Node.methodCall receiver method rest).moved f =
      .methodCall (receiver.moved f) method (rest.map (moved f)) := by
  rw [moved, movedNodes_eq]

@[simp] theorem moved_invocation (braces : Bool) (written arguments : List Node) :
    (Node.invocation braces written arguments).moved f =
      .invocation braces (written.map (moved f)) (arguments.map (moved f)) := by
  rw [moved, movedNodes_eq, movedNodes_eq]

theorem isArgument_moved (node : Node) : (node.moved f).isArgument = node.isArgument := by
  cases node with
  | phrase form parts => cases form <;> rfl
  | _ => rfl

/-- Lifetimes are told from other arguments by their form. -/
theorem isLifetimeArgument_moved (node : Node) :
    (node.moved f).isLifetimeArgument = node.isLifetimeArgument := by
  cases node with
  | phrase form parts =>
    cases form with
    | argument role => cases role <;> rfl
    | _ => rfl
  | _ => rfl

theorem isComma_moved (tree : Tree) : isComma (tree.moved f) = isComma tree := by
  cases tree with
  | mark char joined span =>
    rw [Tree.moved]
    by_cases h : char = ','
    · subst h
      rfl
    · simp [isComma, h]
  | _ => rfl

/-- Arguments are sorted by their kind and keep their places. -/
theorem lifetimesFirst_moved (arguments : List (Bool × List Tree)) :
    lifetimesFirst (arguments.map fun p => (p.1, p.2.map (Tree.moved f))) =
      (lifetimesFirst arguments).map (List.map (Tree.moved f)) := by
  simp only [lifetimesFirst, List.filter_map, List.map_append, List.map_map]
  rfl

theorem flatMap_moved (tagged : List (Bool × Bool × List Tree)) :
    (tagged.map fun p => (p.1, p.2.1, p.2.2.map (Tree.moved f))).flatMap (·.2.2) =
      (tagged.flatMap (·.2.2)).map (Tree.moved f) := by
  rw [List.flatMap_map, List.map_flatMap]

/-- Commas are put in between where there are none; they stand nowhere before and after. -/
theorem joinArguments_moved (hf : f default = default) (arguments : List (List Tree)) :
    joinArguments (arguments.map (List.map (Tree.moved f))) =
      (joinArguments arguments).map (Tree.moved f) := by
  have hcomma : Tree.moved f (.mark ',' false default) = .mark ',' false default :=
    congrArg₂ (fun p q => Tree.mark ',' false ⟨p, q⟩) hf hf
  induction arguments with
  | nil => rfl
  | cons first rest ih =>
    cases rest with
    | nil => rfl
    | cons second rest =>
      have hlast : (first.map (Tree.moved f)).getLast?.any isComma =
          first.getLast?.any isComma := by
        rw [List.getLast?_map]
        cases first.getLast? with
        | none => rfl
        | some tree => exact isComma_moved tree
      rw [List.map_cons] at ih
      rw [List.map_cons, List.map_cons, joinArguments, joinArguments, ih, hlast, List.map_append,
        List.map_append]
      cases first.getLast?.any isComma with
      | true => rfl
      | false => rw [if_neg Bool.false_ne_true, List.map_singleton, hcomma]

mutual

/-- The trees that a node is printed from are moved like the node. -/
theorem trees_moved (hf : f default = default) :
    ∀ node : Node, (node.moved f).trees = node.trees.map (Tree.moved f)
  | .token _ => rfl
  | .group _ _ inner => by
    rw [moved_group, trees, trees, treesAll_moved hf inner, List.map_singleton, Tree.moved_group]
  | .methodCall receiver _ rest => by
    rw [moved_methodCall, trees, trees, trees_moved hf receiver, treesAll_moved hf rest,
      List.map_append]
  | .invocation _ written _ => by
    rw [moved_invocation, trees, trees, treesAll_moved hf written]
  | .phrase form parts => by
    have hall := treesAll_moved hf parts
    have heach := treesEach_moved hf parts
    rw [moved_phrase]
    cases form with
    | arguments =>
      have hjoin := joinArguments_moved hf (lifetimesFirst
        (((treesEach parts).filter (·.1)).map Prod.snd))
      rw [← lifetimesFirst_moved, List.map_map] at hjoin
      rw [trees, trees, heach]
      simp only [List.takeWhile_map, List.dropWhile_map, List.filter_map, List.map_map,
        flatMap_moved, List.map_append, ← hjoin]
      rfl
    | _ => exact hall

theorem treesAll_moved (hf : f default = default) :
    ∀ nodes : List Node, treesAll (nodes.map (moved f)) = (treesAll nodes).map (Tree.moved f)
  | [] => rfl
  | node :: rest => by
    rw [List.map_cons, treesAll, treesAll, trees_moved hf node, treesAll_moved hf rest,
      List.map_append]

theorem treesEach_moved (hf : f default = default) :
    ∀ nodes : List Node, treesEach (nodes.map (moved f)) =
      (treesEach nodes).map fun p => (p.1, p.2.1, p.2.2.map (Tree.moved f))
  | [] => rfl
  | node :: rest => by
    rw [List.map_cons, treesEach, treesEach, trees_moved hf node, treesEach_moved hf rest,
      List.map_cons, isArgument_moved, isLifetimeArgument_moved]

end

/-- A node reads the same everywhere. -/
theorem text_moved (hf : f default = default) (node : Node) : (node.moved f).text = node.text := by
  rw [text, text, trees_moved hf, Lexeme.render_moved]

end Node

/-- The nodes without their places. -/
def unplacedNodes (nodes : List Node) : List Node := nodes.map (Node.moved fun _ => default)

/-- The signature with the places of its types moved. -/
def Signature.moved (f : Position → Position) (s : Signature) : Signature :=
  { s with parameters := s.parameters.map (Node.moved f), output := s.output.map (Node.moved f) }

def MemberKind.moved (f : Position → Position) : MemberKind → MemberKind
  | .function signature body => .function (signature.moved f) (body.map (Node.moved f))
  | .constant name => .constant name
  | .alias name => .alias name
  | .invocation path => .invocation (path.map (Node.moved f))
  | .unknown => .unknown

/-- The member with the places of its nodes and its own span moved. -/
def Member.moved (f : Position → Position) (m : Member) : Member :=
  { m with kind := m.kind.moved f, span := m.span.moved f }

/-- The block with all of its places moved. -/
def Block.moved (f : Position → Position) (b : Block) : Block where
  selfType := b.selfType.moved f
  trait := b.trait.map (Node.moved f)
  start := f b.start
  inside := f b.inside
  members := b.members.map (Member.moved f)

/-! ### Equality -/

mutual

def Node.same : Node → Node → Bool
  | .token tree, .token tree' => tree == tree'
  | .group delimiter span inner, .group delimiter' span' inner' =>
    delimiter == delimiter' && span == span' && sameNodes inner inner'
  | .phrase form parts, .phrase form' parts' => form == form' && sameNodes parts parts'
  | .methodCall receiver method rest, .methodCall receiver' method' rest' =>
    receiver.same receiver' && method == method' && sameNodes rest rest'
  | .invocation braces written arguments, .invocation braces' written' arguments' =>
    braces == braces' && sameNodes written written' && sameNodes arguments arguments'
  | _, _ => false

def sameNodes : List Node → List Node → Bool
  | [], [] => true
  | node :: rest, node' :: rest' => node.same node' && sameNodes rest rest'
  | _, _ => false

end

mutual

/-- The test `same` is equality. -/
theorem Node.same_iff : ∀ a b : Node, a.same b = true ↔ a = b
  | .token _, b => by cases b <;> simp [Node.same]
  | .group _ _ inner, b => by
    cases b with
    | group _ _ inner' => simp [Node.same, sameNodes_iff inner inner', and_assoc]
    | _ => simp [Node.same]
  | .phrase _ parts, b => by
    cases b with
    | phrase _ parts' => simp [Node.same, sameNodes_iff parts parts']
    | _ => simp [Node.same]
  | .methodCall receiver _ rest, b => by
    cases b with
    | methodCall receiver' _ rest' =>
      simp [Node.same, Node.same_iff receiver receiver', sameNodes_iff rest rest', and_assoc]
    | _ => simp [Node.same]
  | .invocation _ written arguments, b => by
    cases b with
    | invocation _ written' arguments' =>
      simp [Node.same, sameNodes_iff written written', sameNodes_iff arguments arguments',
        and_assoc]
    | _ => simp [Node.same]

theorem sameNodes_iff : ∀ as bs : List Node, sameNodes as bs = true ↔ as = bs
  | [], [] => by simp [sameNodes]
  | [], _ :: _ => by simp [sameNodes]
  | _ :: _, [] => by simp [sameNodes]
  | a :: as, b :: bs => by simp [sameNodes, Node.same_iff a b, sameNodes_iff as bs]

end

instance : DecidableEq Node := fun a b => decidable_of_iff _ (a.same_iff b)

deriving instance DecidableEq for Signature

deriving instance DecidableEq for MemberKind

deriving instance DecidableEq for Member

deriving instance DecidableEq for Block

end Syntax

namespace Source

open Lexeme (Position)
open Syntax (Node unplacedNodes)

variable {f : Position → Position}

/-- Moving is a reshaping, so the calls do not see it. -/
theorem moved_reshapes : Reshapes (Node.moved f) where
  token tree := ⟨tree.moved f, rfl⟩
  group _ span _ := ⟨span.moved f, Node.moved_group ..⟩
  nested _ := ⟨_, Node.moved_phrase ..⟩
  phrase _ _ := Node.moved_phrase ..
  methodCall _ _ _ := Node.moved_methodCall ..
  invocation _ _ _ := ⟨_, Node.moved_invocation ..⟩

/-- Without any places the calls are still the same. -/
theorem callsOf_unplaced (body : List Node) : callsOf (unplacedNodes body) = callsOf body :=
  moved_reshapes.callsOf_map body

/-- The last segment of a path is found by its form. -/
theorem lastSegment?_moved (type : Node) :
    lastSegment? (type.moved f) =
      (lastSegment? type).map fun p => (p.1, p.2.map (Node.moved f)) := by
  cases type with
  | phrase form parts =>
    rw [Node.moved_phrase]
    cases form with
    | path role qualified =>
      cases role with
      | type =>
        rw [lastSegment?, lastSegment?, List.getLast?_map]
        cases parts.getLast? with
        | none => rfl
        | some last =>
          cases last with
          | phrase form inner => cases form <;> simp
          | _ => rfl
      | _ => rfl
    | _ => rfl
  | _ => rfl

/-- A type is called the same everywhere. -/
theorem typeName?_moved (type : Node) : typeName? (type.moved f) = typeName? type := by
  rw [typeName?, typeName?, lastSegment?_moved, Option.map_map]
  rfl

/-- The first argument of a segment is found by its form. -/
theorem firstArgument?_moved (segment : List Node) :
    firstArgument? (segment.map (Node.moved f)) = (firstArgument? segment).map (Node.moved f) := by
  rcases segment with _ | ⟨name, _ | ⟨node, _ | ⟨_, _⟩⟩⟩
  · rfl
  · rfl
  · cases node with
    | phrase form parts =>
      rw [List.map_cons, List.map_singleton, Node.moved_phrase]
      cases form with
      | arguments =>
        have hfind : (Node.isArgument ∘ Node.moved f) = Node.isArgument :=
          funext Node.isArgument_moved
        rw [firstArgument?, firstArgument?, List.find?_map, hfind]
        cases parts.find? Node.isArgument with
        | none => rfl
        | some argument =>
          cases argument with
          | phrase form inner =>
            cases form with
            | argument role => cases role <;> cases inner <;> rfl
            | _ => rfl
          | _ => rfl
      | _ => rfl
    | _ => rfl
  · cases node with
    | phrase form parts => cases form <;> rfl
    | _ => rfl

/-- A type is known by its name. -/
theorem isOwnType_moved (own : Option String) (type : Node) :
    isOwnType own (type.moved f) = isOwnType own type := by
  rw [isOwnType, isOwnType, typeName?_moved]

/-- Whether a type is the own type, wrapped or not, is read off its forms and words. -/
theorem returnsOwnType_moved (own : Option String) (type : Node) :
    returnsOwnType own (type.moved f) = returnsOwnType own type := by
  rw [returnsOwnType, returnsOwnType, isOwnType_moved, lastSegment?_moved]
  cases lastSegment? type with
  | none => rfl
  | some segment =>
    simp only [Option.map_some, firstArgument?_moved, Option.any_map, isOwnType_moved]

/-- Constructor, method or plain function: the kind does not depend on where the signature
stands. -/
theorem functionKind_moved (own : Option String) (s : Syntax.Signature) :
    functionKind own (s.moved f) = functionKind own s := by
  rw [functionKind, functionKind, Syntax.Signature.moved]
  simp only [Option.any_map, returnsOwnType_moved]

/-- What a member declares does not depend on where it stands. -/
theorem declare_moved (hf : f default = default) (order : VisibilityOrder) (own : Option String)
    (inTrait : Bool) (place : Nat) (m : Syntax.Member) :
    declare order own inTrait place (m.moved f) = declare order own inTrait place m := by
  have htext : Node.text ∘ Node.moved f = Node.text := funext (Node.text_moved hf)
  obtain ⟨kind, visibility, span⟩ := m
  cases kind with
  | function s body =>
    simp only [Syntax.Member.moved, Syntax.MemberKind.moved, declare, functionKind_moved,
      moved_reshapes.callsOf_map]
    simp only [Syntax.Signature.moved, List.map_map, htext]
  | invocation path =>
    simp only [Syntax.Member.moved, Syntax.MemberKind.moved, declare, Node.treesAll_moved hf,
      Lexeme.render_moved]
  | _ => rfl

end Source

end CalleeFirst
