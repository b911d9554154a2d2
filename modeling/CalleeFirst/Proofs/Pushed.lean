import CalleeFirst.Proofs.Moved
import CalleeFirst.Proofs.Readers
import Mathlib.Data.List.Basic
import Mathlib.Data.List.Forall2

/-! Reading further to the right.

A reader never looks at a place. So trees that are pushed to the right are read like those that are
not: both readings fail, or both succeed and what is made is pushed as well (`Reader.Carries`). Only
the places of failures are not compared, because the end of a text has none. -/
namespace CalleeFirst.Grammar

open Lexeme (Delimiter Position Span Tree weight)
open Reader Rule
open Syntax (Form Node)

/-! ### Values -/

/-- The place behind `n` more characters in the first line. -/
def pushedPlace (n : Nat) (p : Position) : Position :=
  if p.line = 1 then ⟨p.line, p.column + n⟩ else p

/-- Values that can be pushed to the right. -/
class HasPlaces (α : Type) where
  pushed : Nat → α → α

open HasPlaces (pushed)

/-- There is nothing to push. -/
abbrev HasPlaces.none {α : Type} : HasPlaces α := ⟨fun _ a => a⟩

instance : HasPlaces Unit := .none

instance : HasPlaces Bool := .none

instance : HasPlaces String := .none

instance : HasPlaces Position := ⟨pushedPlace⟩

instance : HasPlaces Span := ⟨fun n => Span.moved (pushedPlace n)⟩

instance : HasPlaces Tree := ⟨fun n => Tree.moved (pushedPlace n)⟩

instance : HasPlaces Node := ⟨fun n => Node.moved (pushedPlace n)⟩

instance {α : Type} [HasPlaces α] : HasPlaces (List α) := ⟨fun n => List.map (pushed n)⟩

instance {α : Type} [HasPlaces α] : HasPlaces (Option α) := ⟨fun n => Option.map (pushed n)⟩

instance {α β : Type} [HasPlaces α] [HasPlaces β] : HasPlaces (α × β) :=
  ⟨fun n p => (pushed n p.1, pushed n p.2)⟩

section
variable {α β : Type} [HasPlaces α] [HasPlaces β] (n : Nat)

@[simp] theorem pushed_bool (b : Bool) : pushed n b = b := rfl

@[simp] theorem pushed_string (text : String) : pushed n text = text := rfl

@[simp] theorem pushed_nil : pushed n ([] : List α) = [] := rfl

@[simp] theorem pushed_cons (a : α) (l : List α) : pushed n (a :: l) = pushed n a :: pushed n l :=
  rfl

@[simp] theorem pushed_append (l m : List α) : pushed n (l ++ m) = pushed n l ++ pushed n m :=
  List.map_append

@[simp] theorem pushed_isEmpty (l : List α) : (pushed n l).isEmpty = l.isEmpty := by cases l <;> rfl

@[simp] theorem pushed_eq_nil {l : List α} : pushed n l = [] ↔ l = [] := List.map_eq_nil_iff

@[simp] theorem length_pushed (l : List α) : (pushed n l).length = l.length := List.length_map _

@[simp] theorem getLast?_pushed (l : List α) : (pushed n l).getLast? = pushed n l.getLast? :=
  List.getLast?_map

@[simp] theorem take_pushed (k : Nat) (l : List α) : (pushed n l).take k = pushed n (l.take k) :=
  List.map_take.symm

@[simp] theorem drop_pushed (k : Nat) (l : List α) : (pushed n l).drop k = pushed n (l.drop k) :=
  List.map_drop.symm

/-- It does not matter what is done first. -/
theorem map_pushed {f : α → β} (hf : ∀ a, f (pushed n a) = pushed n (f a)) (l : List α) :
    (pushed n l).map f = pushed n (l.map f) := by
  simp only [pushed, List.map_map]
  exact List.map_congr_left fun a _ => hf a

/-- A test that does not depend on places. -/
theorem any_pushed {p : α → Bool} (hp : ∀ a, p (pushed n a) = p a) (l : List α) :
    (pushed n l).any p = l.any p :=
  List.any_map.trans (congrArg l.any (funext hp))

theorem pushed_flatMap {f : β → List α} (hf : ∀ b, f (pushed n b) = pushed n (f b))
    (l : List β) : (pushed n l).flatMap f = pushed n (l.flatMap f) := by
  induction l with
  | nil => rfl
  | cons b l ih => rw [pushed_cons, List.flatMap_cons, ih, hf, List.flatMap_cons, pushed_append]

@[simp] theorem pushed_none : pushed n (none : Option α) = none := rfl

@[simp] theorem pushed_some (a : α) : pushed n (some a) = some (pushed n a) := rfl

@[simp] theorem isSome_pushed (o : Option α) : (pushed n o).isSome = o.isSome := by cases o <;> rfl

@[simp] theorem isNone_pushed (o : Option α) : (pushed n o).isNone = o.isNone := by cases o <;> rfl

@[simp] theorem pushed_pair (a : α) (b : β) : pushed n (a, b) = (pushed n a, pushed n b) := rfl

@[simp] theorem fst_pushed (p : α × β) : (pushed n p).1 = pushed n p.1 := rfl

@[simp] theorem snd_pushed (p : α × β) : (pushed n p).2 = pushed n p.2 := rfl

@[simp] theorem pushed_word (text : String) (span : Span) :
    pushed n (Tree.word text span) = .word text (pushed n span) := rfl

@[simp] theorem pushed_mark (char : Char) (joined : Bool) (span : Span) :
    pushed n (Tree.mark char joined span) = .mark char joined (pushed n span) := rfl

@[simp] theorem pushed_literal (text : String) (span : Span) :
    pushed n (Tree.literal text span) = .literal text (pushed n span) := rfl

@[simp] theorem pushed_group (delimiter : Delimiter) (inner : List Tree) (span : Span) :
    pushed n (Tree.group delimiter inner span) =
      .group delimiter (pushed n inner) (pushed n span) :=
  Tree.moved_group ..

@[simp] theorem span_pushed (tree : Tree) : (pushed n tree).span = pushed n tree.span := by
  cases tree <;> rfl

@[simp] theorem start_pushed (tree : Tree) : (pushed n tree).start = pushed n tree.start := by
  cases tree <;> rfl

@[simp] theorem stop_pushed (tree : Tree) : (pushed n tree).stop = pushed n tree.stop := by
  cases tree <;> rfl

@[simp] theorem isBrace_pushed (tree : Tree) : (pushed n tree).isBrace = tree.isBrace := by
  cases tree with
  | group delimiter inner span => cases delimiter <;> rfl
  | _ => rfl

/-- Trees are as heavy as before, so rules go as deep. -/
@[simp] theorem weight_pushed (trees : List Tree) : weight (pushed n trees) = weight trees :=
  Lexeme.weight_moved trees

@[simp] theorem pushed_token (tree : Tree) : pushed n (Node.token tree) = .token (pushed n tree) :=
  rfl

@[simp] theorem pushed_phrase (form : Form) (parts : List Node) :
    pushed n (Node.phrase form parts) = .phrase form (pushed n parts) :=
  Node.moved_phrase ..

@[simp] theorem pushed_groupNode (delimiter : Delimiter) (span : Span) (inner : List Node) :
    pushed n (Node.group delimiter span inner) =
      .group delimiter (pushed n span) (pushed n inner) :=
  Node.moved_group ..

@[simp] theorem pushed_methodCall (receiver : Node) (method : String) (rest : List Node) :
    pushed n (Node.methodCall receiver method rest) =
      .methodCall (pushed n receiver) method (pushed n rest) :=
  Node.moved_methodCall ..

@[simp] theorem pushed_invocation (braces : Bool) (written arguments : List Node) :
    pushed n (Node.invocation braces written arguments) =
      .invocation braces (pushed n written) (pushed n arguments) :=
  Node.moved_invocation ..

@[simp] theorem map_token_pushed (trees : List Tree) :
    (pushed n trees).map Node.token = pushed n (trees.map Node.token) :=
  map_pushed (f := Node.token) n (fun _ => rfl) trees

end

/-! ### Looks -/

/-- The answer does not depend on how far to the right the trees stand. -/
structure Look.Steady (n : Nat) (q : Look) : Prop where
  eq (trees : List Tree) : q (pushed n trees) = q trees

namespace Look.Steady
variable {n : Nat} {a b : Look}

theorem none : Look.none.Steady n := ⟨fun _ => rfl⟩

theorem always : Steady n fun _ => true := ⟨fun _ => rfl⟩

theorem or (ha : a.Steady n) (hb : b.Steady n) : (Look.or a b).Steady n :=
  ⟨fun trees => by rw [Look.or, Look.or, ha.eq, hb.eq]⟩

theorem and (ha : a.Steady n) (hb : b.Steady n) : (Look.and a b).Steady n :=
  ⟨fun trees => by rw [Look.and, Look.and, ha.eq, hb.eq]⟩

theorem not (ha : a.Steady n) : (Look.not a).Steady n :=
  ⟨fun trees => by rw [Look.not, Look.not, ha.eq]⟩

/-- One of several looks. -/
theorem any {looks : List Look} (h : looks.Forall (Steady n)) : (Look.any looks).Steady n := by
  refine ⟨fun trees => ?_⟩
  induction looks with
  | nil => rfl
  | cons q looks ih =>
    obtain ⟨hq, hrest⟩ := (List.forall_cons _ _ _).mp h
    rw [Look.any, Look.any, List.any_cons, List.any_cons, hq.eq, ← Look.any, ← Look.any, ih hrest]

theorem end_ : Look.end_.Steady n := ⟨fun trees => by cases trees <;> rfl⟩

theorem anyWord : Look.anyWord.Steady n :=
  ⟨fun trees => by rcases trees with _ | ⟨_ | _, _⟩ <;> rfl⟩

theorem word {text : String} : (Look.word text).Steady n :=
  ⟨fun trees => by rcases trees with _ | ⟨_ | _, _⟩ <;> rfl⟩

theorem words {texts : List String} : (Look.words texts).Steady n :=
  ⟨fun trees => by rcases trees with _ | ⟨_ | _, _⟩ <;> rfl⟩

theorem identifier : Look.identifier.Steady n :=
  ⟨fun trees => by rcases trees with _ | ⟨_ | _, _⟩ <;> rfl⟩

theorem group {delimiter : Delimiter} : (Look.group delimiter).Steady n :=
  ⟨fun trees => by rcases trees with _ | ⟨_ | _, _⟩ <;> rfl⟩

theorem paren : Look.paren.Steady n := group

theorem bracket : Look.bracket.Steady n := group

theorem brace : Look.brace.Steady n := group

theorem text : Look.text.Steady n := ⟨fun trees => by rcases trees with _ | ⟨_ | _, _⟩ <;> rfl⟩

/-- Marks are told apart by their characters, and by whether they are joined. -/
theorem marks {chars : List Char} : (Look.marks chars).Steady n where
  eq trees := by
    induction chars generalizing trees with
    | nil => rcases trees with _ | ⟨_ | _, _⟩ <;> rfl
    | cons c chars ih =>
      rcases trees with _ | ⟨tree, rest⟩
      · rfl
      · cases tree with
        | mark d joined span =>
          cases chars with
          | nil => rfl
          | cons next more => simp only [pushed_cons, pushed_mark, Look.marks, ih]
        | _ => cases chars <;> rfl

theorem op {text : String} : (Look.op text).Steady n := marks

theorem ops {texts : List String} : (Look.ops texts).Steady n :=
  any (List.forall_iff_forall_mem.mpr fun _ hq => by
    obtain ⟨text, _, rfl⟩ := List.mem_map.mp hq
    exact op)

theorem lifetime : Look.lifetime.Steady n where
  eq trees := by
    rcases trees with _ | ⟨tree, _ | ⟨next, rest⟩⟩
    · rfl
    · cases tree <;> simp [Look.lifetime]
    · cases tree <;> cases next <;> simp [Look.lifetime]
      grind

theorem literal : Look.literal.Steady n where
  eq trees := by
    rcases trees with _ | ⟨tree, _ | ⟨next, rest⟩⟩
    · rfl
    · cases tree <;> simp [Look.literal]
    · cases tree <;> cases next <;> simp [Look.literal]
      grind

theorem real : Look.real.Steady n where
  eq trees := by
    rcases trees with _ | ⟨tree, _ | ⟨next, rest⟩⟩
    · rfl
    · cases tree <;> simp [Look.real]
    · cases tree <;> cases next <;> simp [Look.real]
      grind

theorem whole : Look.whole.Steady n where
  eq trees := by
    rcases trees with _ | ⟨tree, _ | ⟨next, rest⟩⟩
    · rfl
    · cases tree <;> simp [Look.whole]
    · cases tree <;> cases next <;> simp [Look.whole]
      grind

end Look.Steady

/-- What stands behind the first token is found by the forms of the trees. -/
theorem behind_pushed (n : Nat) (trees : List Tree) :
    Look.behind (pushed n trees) = pushed n (Look.behind trees) := by
  rcases trees with _ | ⟨tree, _ | ⟨next, rest⟩⟩
  · rfl
  · cases tree <;> simp [Look.behind]
  · cases tree <;> cases next <;> simp [Look.behind]
    grind [pushed_some, pushed_cons, pushed_word]

namespace Look.Steady
variable {n : Nat} {q : Look}

/-- What is asked behind the first token. -/
theorem second (h : q.Steady n) : (Look.second q).Steady n where
  eq trees := by
    rw [Look.second, Look.second, behind_pushed]
    cases Look.behind trees with
    | none => rfl
    | some rest => exact h.eq rest

theorem third (h : q.Steady n) : (Look.third q).Steady n := h.second.second

end Look.Steady

/-! ### Readers -/

/-- The trees ahead are pushed to the right. -/
structure Stream.Pushed (n : Nat) (s t : Stream) : Prop where
  rest : t.rest = pushed n s.rest
  last : t.last = pushed n s.last
  stray : t.stray.isSome = s.stray.isSome

/-- Both readings fail, or both succeed and what is made is pushed to the right. -/
inductive Alike {α : Type} [HasPlaces α] (n : Nat) :
    Except Position (α × Stream) → Except Position (α × Stream) → Prop where
  | fails (p q : Position) : Alike n (.error p) (.error q)
  | reads (a : α) {s t : Stream} (h : s.Pushed n t) : Alike n (.ok (a, s)) (.ok (pushed n a, t))

theorem Alike.cases {α : Type} [HasPlaces α] {n : Nat} {x y : Except Position (α × Stream)}
    (h : Alike n x y) : (∃ p q, x = .error p ∧ y = .error q) ∨
      ∃ a s t, x = .ok (a, s) ∧ y = .ok (pushed n a, t) ∧ s.Pushed n t := by
  cases h with
  | fails p q => exact .inl ⟨p, q, rfl, rfl⟩
  | reads a h => exact .inr ⟨a, _, _, rfl, rfl, h⟩

/-- Of trees that are pushed to the right the second reader makes what the first one makes of the
trees themselves. -/
structure Reader.Carries {α : Type} [HasPlaces α] (n : Nat) (r r' : Reader α) : Prop where
  alike {s t : Stream} (h : s.Pushed n t) : Alike n (r.run s) (r'.run t)

/-- The reader does not look at places. -/
abbrev Reader.Steady {α : Type} [HasPlaces α] (n : Nat) (r : Reader α) : Prop := r.Carries n r

/-- The reader fails where there is nothing to read. -/
structure Reader.NeedsTree {α : Type} (r : Reader α) : Prop where
  fails {s : Stream} (h : s.rest = []) : ∃ p, r.run s = .error p

/-- What is read before takes nothing there. -/
theorem Reader.NeedsTree.skip {α β : Type} {r : Reader α} {f : α → Reader β}
    (h : ∀ a, (f a).NeedsTree) : (r >>= f).NeedsTree where
  fails {s} hs := by
    dsimp only [Bind.bind]
    cases hrun : r.run s with
    | error p => exact ⟨p, rfl⟩
    | ok result =>
      obtain ⟨taken, hrest, _⟩ := r.leads hrun
      rw [hs, eq_comm, List.append_eq_nil_iff] at hrest
      exact (h result.1).fails hrest.2

/-- The first part fails already. -/
theorem Reader.NeedsTree.bind {α β : Type} {r : Reader α} {f : α → Reader β} (h : r.NeedsTree) :
    (r >>= f).NeedsTree where
  fails hs := by
    obtain ⟨p, hfails⟩ := h.fails hs
    exact ⟨p, by dsimp only [Bind.bind]; rw [hfails]⟩

theorem Rule.word_needsTree {text : String} : (Rule.word text).NeedsTree where
  fails {s} hs := by
    obtain ⟨_, _, _, _⟩ := s
    subst hs
    exact ⟨_, rfl⟩

namespace Reader.Carries
variable {α β : Type} [HasPlaces α] [HasPlaces β] {n : Nat}

theorem pure {a b : α} (h : b = pushed n a) :
    (Pure.pure a : Reader α).Carries n (Pure.pure b) where
  alike hs := h ▸ .reads a hs

/-- One reader after the other; the second one gets what the first one made. -/
theorem bind {r r' : Reader α} {f f' : α → Reader β} (hr : r.Carries n r')
    (hf : ∀ a, (f a).Carries n (f' (pushed n a))) : (r >>= f).Carries n (r' >>= f') where
  alike {s t} hs := by
    dsimp only [Bind.bind]
    rcases (hr.alike hs).cases with ⟨p, q, h, h'⟩ | ⟨a, s', t', h, h', hrest⟩
    · rw [h, h']
      exact .fails p q
    · rw [h, h']
      exact (hf a).alike hrest

theorem ite {c : Prop} [Decidable c] {r r' q q' : Reader α} (hr : r.Carries n r')
    (hq : q.Carries n q') : (if c then r else q).Carries n (if c then r' else q') := by
  split
  · exact hr
  · exact hq

/-- A condition that does not depend on places. -/
theorem cond {c c' : Prop} [Decidable c] [Decidable c'] {r r' q q' : Reader α} (hc : c' ↔ c)
    (hr : r.Carries n r') (hq : q.Carries n q') :
    (if c then r else q).Carries n (if c' then r' else q') := by
  simp only [hc]
  exact ite hr hq

/-- What is made of the stream itself. -/
theorem stream {f f' : Stream → Reader α} (hf : ∀ s t, s.Pushed n t → (f s).Carries n (f' t)) :
    (Reader.stream >>= f).Carries n (Reader.stream >>= f') where
  alike {s t} hs := (hf s t hs).alike hs

/-- Both readings go the same way. -/
theorem look {q : Look} {f f' : Bool → Reader α} (hq : q.Steady n)
    (hf : ∀ b, (f b).Carries n (f' b)) :
    (Reader.look q >>= f).Carries n (Reader.look q >>= f') where
  alike {s t} hs := by
    show Alike n ((f (q s.rest)).run s) ((f' (q t.rest)).run t)
    rw [hs.rest, hq.eq]
    exact (hf _).alike hs

theorem answer {q : Look} (hq : q.Steady n) : (Reader.look q).Steady n :=
  .stream fun _ _ hs => .pure (by rw [hs.rest, hq.eq, pushed_bool])

/-- A place that only a failure needs. -/
theorem here {f f' : Position → Reader α} (hf : ∀ p q, (f p).Carries n (f' q)) :
    (Reader.here >>= f).Carries n (Reader.here >>= f') where
  alike {s t} hs := (hf s.here t.here).alike hs

theorem failAt {p q : Position} : (Reader.failAt p : Reader α).Carries n (Reader.failAt q) :=
  ⟨fun _ => .fails p q⟩

theorem failHere : (Reader.failHere : Reader α).Steady n := here fun _ _ => failAt

omit [HasPlaces β] in
theorem failAt_bind {p q : Position} {f f' : β → Reader α} :
    (Reader.failAt p >>= f).Carries n (Reader.failAt q >>= f') :=
  ⟨fun _ => .fails p q⟩

/-- Two ways to the same rest. -/
theorem iteBind {c c' : Prop} [Decidable c] [Decidable c'] {r r' q q' : Reader β}
    {f f' : β → Reader α} (hc : c' ↔ c) (hr : r.Carries n r') (hq : q.Carries n q')
    (hf : ∀ b, (f b).Carries n (f' (pushed n b))) :
    (if c then r >>= f else q >>= f).Carries n (if c' then r' >>= f' else q' >>= f') :=
  cond hc (.bind hr hf) (.bind hq hf)

theorem failAtIf {c c' : Prop} [Decidable c] [Decidable c'] {p q : Position}
    {f f' : PUnit → Reader α} (hc : c' ↔ c) (hf : (f ⟨⟩).Carries n (f' ⟨⟩)) :
    (if c then Reader.failAt p >>= f else f ⟨⟩).Carries n
      (if c' then Reader.failAt q >>= f' else f' ⟨⟩) :=
  cond hc failAt_bind hf

theorem failHereIf {c c' : Prop} [Decidable c] [Decidable c'] {f f' : PUnit → Reader α}
    (hc : c' ↔ c) (hf : (f ⟨⟩).Carries n (f' ⟨⟩)) :
    (if c then Reader.failHere >>= f else f ⟨⟩).Carries n
      (if c' then Reader.failHere >>= f' else f' ⟨⟩) :=
  cond hc (.bind .failHere fun _ => hf) hf

theorem failBefore {trees trees' : List Tree} :
    (Grammar.failBefore trees : Reader α).Carries n (Grammar.failBefore trees') where
  alike {s t} hs := by cases trees <;> cases trees' <;> exact .fails ..

theorem deferred {f f' : Unit → Reader α} (h : (f ()).Carries n (f' ())) :
    (Reader.deferred f).Carries n (Reader.deferred f') := ⟨h.alike⟩

/-! ### Single trees -/

/-- A tree is taken with its places. -/
theorem anyTree : Reader.anyTree.Steady n where
  alike {s t} hs := by
    obtain ⟨rest, stop, last, stray⟩ := s
    obtain ⟨rest', stop', last', stray'⟩ := t
    obtain ⟨rfl, _, hstray⟩ := hs
    cases rest with
    | nil => exact .fails ..
    | cons tree rest => exact .reads tree ⟨rfl, rfl, hstray⟩

theorem treeIf {q : Look} (hq : q.Steady n) : (Reader.treeIf q).Steady n :=
  .look hq fun _ => .ite .anyTree .failHere

theorem wordIf {q : Look} (hq : q.Steady n) : (Reader.wordIf q).Steady n :=
  .bind (.treeIf hq) fun tree => by cases tree <;> exact .pure rfl

theorem takeWord : Reader.takeWord.Steady n := .wordIf .anyWord

theorem takeIdentifier : Reader.takeIdentifier.Steady n := .wordIf .identifier

theorem takeMarks {chars : List Char} : (Reader.takeMarks chars).Steady n := by
  induction chars with
  | nil => exact .pure rfl
  | cons c chars ih => exact .bind .anyTree fun tree => .bind ih fun more => .pure (by simp)

/-- A place that is kept: there must be a tree. -/
theorem place {f f' : Position → Reader α} (hend : ∀ p, (f p).NeedsTree)
    (hend' : ∀ p, (f' p).NeedsTree) (hf : ∀ p, (f p).Carries n (f' (pushed n p))) :
    (Reader.here >>= f).Carries n (Reader.here >>= f') where
  alike {s t} hs := by
    show Alike n ((f s.here).run s) ((f' t.here).run t)
    cases hrest : s.rest with
    | nil =>
      obtain ⟨p, hfails⟩ := (hend s.here).fails hrest
      obtain ⟨q, hfails'⟩ := (hend' t.here).fails (by rw [hs.rest, hrest, pushed_nil])
      rw [hfails, hfails']
      exact .fails p q
    | cons tree rest =>
      have hhere : t.here = pushed n s.here := by
        rw [Stream.here, Stream.here, hs.rest, hrest, pushed_cons]
        exact start_pushed n tree
      rw [hhere]
      exact (hf _).alike hs

/-! ### Groups, tries and repetition -/

/-- Inside of a group the places are pushed as well, and a tree is left over in both or in none. -/
theorem inGroup {delimiter : Delimiter} {r r' : Reader α} (hr : r.Carries n r') :
    (Reader.inGroup delimiter r).Carries n (Reader.inGroup delimiter r') where
  alike {s t} hs := by
    obtain ⟨rest, stop, last, stray⟩ := s
    obtain ⟨rest', stop', last', stray'⟩ := t
    obtain ⟨rfl, _, hstray⟩ := hs
    rcases rest with _ | ⟨_ | _ | _ | ⟨d, inner, span⟩, rest⟩
    case cons.group =>
      unfold Reader.inGroup
      simp only [pushed_cons, pushed_group]
      split
      · have hinner : Stream.Pushed n ⟨inner, (Tree.group d inner span).closing, none, stray⟩
            ⟨pushed n inner, (Tree.group d (pushed n inner) (pushed n span)).closing, none,
              stray'⟩ := ⟨rfl, rfl, hstray⟩
        rcases (hr.alike hinner).cases with ⟨p, q, h, h'⟩ | ⟨a, s', t', h, h', hrest⟩
        · rw [h, h']
          exact .fails p q
        · rw [h, h']
          refine .reads (a, span) ⟨rfl, by simp, ?_⟩
          cases hleft : s'.rest <;> simp [hrest.rest, hrest.stray, hleft]
      · exact .fails ..
    all_goals exact .fails ..

theorem peek {r r' : Reader α} (hr : r.Carries n r') :
    (Reader.peek r).Carries n (Reader.peek r') where
  alike {s t} hs := by
    unfold Reader.peek
    rcases (hr.alike hs).cases with ⟨p, q, h, h'⟩ | ⟨a, s', t', h, h', _⟩
    · simp only [h, h']
      exact .fails p q
    · simp only [h, h']
      exact .reads a hs

/-- A try that fails is as if nothing was read. -/
theorem attempt {r r' : Reader α} (hr : r.Carries n r') :
    (Reader.attempt r).Carries n (Reader.attempt r') where
  alike {s t} hs := by
    unfold Reader.attempt
    rcases (hr.alike hs).cases with ⟨p, q, h, h'⟩ | ⟨a, s', t', h, h', hrest⟩
    · simp only [h, h']
      exact .reads none hs
    · simp only [h, h']
      exact .reads (some a) hrest

theorem ahead {r r' : Reader α} (hr : r.Carries n r') :
    (Reader.ahead r).Carries n (Reader.ahead r') := .peek (.attempt hr)

/-- The trees that a reader takes are pushed. -/
theorem written {r r' : Reader α} (hr : r.Carries n r') :
    (Reader.written r).Carries n (Reader.written r') :=
  .stream fun s t hs => .bind hr fun a => .stream fun s' t' hs' => .pure (by
    simp [hs.rest, hs'.rest])

theorem repeatUpTo {body body' : Reader (List α × Bool)} (h : body.Carries n body') {bound : Nat} :
    (Reader.repeatUpTo body bound).Carries n (Reader.repeatUpTo body' bound) := by
  induction bound with
  | zero => exact .pure rfl
  | succ bound ih =>
    exact .bind h fun (found, more) => .ite (.bind ih fun _ => .pure (by simp)) (.pure rfl)

/-- There are as many turns as before. -/
theorem repeated {body body' : Reader (List α × Bool)} (h : body.Carries n body') :
    (Reader.repeated body).Carries n (Reader.repeated body') :=
  .stream fun s t hs => by
    rw [hs.rest, length_pushed]
    exact .repeatUpTo h

theorem untilEnd {r r' : Reader α} (h : r.Carries n r') :
    (Reader.untilEnd r).Carries n (Reader.untilEnd r') :=
  .repeated (.look .end_ fun _ => .ite (.pure rfl) (.bind h fun _ => .pure rfl))

/-! ### Rules -/

theorem empty : Rule.empty.Steady n := .pure rfl

theorem op {text : String} : (Rule.op text).Steady n := .look .op fun _ => .ite .takeMarks .failHere

theorem wordNode {q : Look} (hq : q.Steady n) :
    (do return [(← Reader.wordIf q).2] : Rule).Steady n :=
  .bind (.wordIf hq) fun (_, _) => .pure (by simp)

theorem word {text : String} : (Rule.word text).Steady n := .wordNode .word

theorem anyWord : Rule.anyWord.Steady n := .wordNode .anyWord

theorem identifier : Rule.identifier.Steady n := .wordNode .identifier

theorem lifetime : Rule.lifetime.Steady n :=
  .look .lifetime fun _ => .ite
    (.bind .anyTree fun _ => .bind .anyTree fun _ => .pure (by simp)) .failHere

theorem literal : Rule.literal.Steady n := by
  refine .look .literal fun _ => .ite (.bind .anyTree fun tree => ?_) .failHere
  cases tree with
  | mark c joined span => exact .bind .anyTree fun _ => .pure rfl
  | _ => exact .pure rfl

theorem token {r r' : Reader Tree} (h : r.Carries n r') :
    (do return [.token (← r)] : Rule).Carries n (do return [.token (← r')]) :=
  .bind h fun _ => .pure rfl

theorem text : Rule.text.Steady n := .token (.treeIf .text)

theorem anyGroup : Rule.anyGroup.Steady n := .token (.treeIf (.any ⟨.paren, .bracket, .brace⟩))

/-- The rules may differ from each other, as long as they correspond. -/
theorem seq₂ {rules rules' : List Rule} (h : List.Forall₂ (Reader.Carries n) rules rules') :
    (Rule.seq rules).Carries n (Rule.seq rules') := by
  induction h with
  | nil => exact .pure rfl
  | cons hrule _ ih => exact .bind hrule fun _ => .bind ih fun _ => .pure (by simp)

theorem seq {rules : List Rule} (h : rules.Forall (Reader.Steady n)) : (Rule.seq rules).Steady n :=
  seq₂ (List.forall₂_same.mpr (List.forall_iff_forall_mem.mp h))

theorem onlyIf {q : Look} {rule rule' : Rule} (hq : q.Steady n) (h : rule.Carries n rule') :
    (Rule.onlyIf q rule).Carries n (Rule.onlyIf q rule') := .look hq fun _ => .ite h .empty

theorem optionalOp {text : String} : (Rule.optionalOp text).Steady n := .onlyIf .op .op

theorem optionalWord {text : String} : (Rule.optionalWord text).Steady n := .onlyIf .word .word

theorem optionalLifetime : Rule.optionalLifetime.Steady n := .onlyIf .lifetime .lifetime

/-- The first look that answers yes is the same. -/
theorem choose₂ {rules rules' : List (Look × Rule)}
    (h : List.Forall₂ (fun p q => p.1 = q.1 ∧ p.1.Steady n ∧ p.2.Carries n q.2) rules rules') :
    (Rule.choose rules).Carries n (Rule.choose rules') := by
  induction h with
  | nil => exact .failHere
  | @cons p q _ _ hrule _ ih =>
    obtain ⟨heq, hlook, hread⟩ := hrule
    obtain ⟨_, _⟩ := p
    obtain ⟨_, _⟩ := q
    subst heq
    exact .look hlook fun _ => .ite hread ih

theorem choose {rules : List (Look × Rule)}
    (h : rules.Forall fun p => p.1.Steady n ∧ p.2.Steady n) : (Rule.choose rules).Steady n :=
  choose₂ (List.forall₂_same.mpr fun p hp => ⟨rfl, List.forall_iff_forall_mem.mp h p hp⟩)

theorem node {form : Form} {rule rule' : Rule} (h : rule.Carries n rule') :
    (Rule.node form rule).Carries n (Rule.node form rule') := .bind h fun _ => .pure (by simp)

theorem one {r r' : Reader Node} (h : r.Carries n r') : (Rule.one r).Carries n (Rule.one r') :=
  .bind h fun _ => .pure rfl

theorem group {delimiter : Delimiter} {rule rule' : Rule} (h : rule.Carries n rule') :
    (Rule.group delimiter rule).Carries n (Rule.group delimiter rule') :=
  .bind (.inGroup h) fun (_, _) => .pure (by simp)

theorem parens {rule rule' : Rule} (h : rule.Carries n rule') :
    (Rule.parens rule).Carries n (Rule.parens rule') := .group h

theorem brackets {rule rule' : Rule} (h : rule.Carries n rule') :
    (Rule.brackets rule).Carries n (Rule.brackets rule') := .group h

theorem braces {rule rule' : Rule} (h : rule.Carries n rule') :
    (Rule.braces rule).Carries n (Rule.braces rule') := .group h

/-- A rule that is read again and again. -/
theorem whileLook {q : Look} {rule : Rule} (hq : q.Steady n) (h : rule.Steady n) :
    (Rule.whileLook q rule).Steady n :=
  .repeated (.look hq fun _ => .ite (.bind h fun _ => .pure rfl) (.pure rfl))

theorem ruleUntilEnd {rule : Rule} (h : rule.Steady n) : (Rule.untilEnd rule).Steady n :=
  .whileLook (.not .end_) h

theorem upTo {done : Look} {rule : Rule} {separator : String} (hdone : done.Steady n)
    (h : rule.Steady n) : (Rule.upTo done rule separator).Steady n :=
  .repeated (.look hdone fun _ => .ite (.pure rfl) (.bind h fun _ =>
    .look hdone fun _ => .ite (.pure rfl) (.bind .op fun _ => .pure (by simp))))

theorem commas {rule : Rule} (h : rule.Steady n) : (Rule.commas rule).Steady n := .upTo .end_ h

theorem chain {done : Look} {rule : Rule} {separator : String} (hdone : done.Steady n)
    (h : rule.Steady n) : (Rule.chain done rule separator).Steady n :=
  .repeated (.look hdone fun _ => .ite (.pure rfl) (.bind h fun _ =>
    .look .op fun _ => .ite (.bind .op fun _ => .pure (by simp)) (.pure rfl)))

/-- What is kept as it is written. -/
theorem asWritten {r r' : Reader α} (h : r.Carries n r') :
    (Rule.asWritten r).Carries n (Rule.asWritten r') := .bind (.written h) fun (_, _) => .pure rfl

end Reader.Carries

end CalleeFirst.Grammar
