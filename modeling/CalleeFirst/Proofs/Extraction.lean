import CalleeFirst.Proofs.MemberPlaces
import CalleeFirst.Proofs.SecondReordering

/-! Every block of a text can be ordered.

Positions in order have offsets in order (`Lines.offset_le`), so the ranges of members that stand
one behind the other do not overlap, even where comments are taken along. What a member
declares is numbered by its place and named by a word of the text.

`blocks_orderable`: whatever is read from a text passes the check of the batch and the check
of the ranges. -/
namespace CalleeFirst.Source

open Grammar (InOrder Orderly)
open Lexeme (Position)
open Remap (InLine slotsOf)
open Text (byteLength byteLength_append isBlank)

/-! ### Offsets in order -/

theorem byteLength_le_of_isPrefix {front text : List Char} (h : front <+: text) :
    byteLength front ≤ byteLength text := by
  obtain ⟨rest, rfl⟩ := h
  rw [byteLength_append]
  exact Nat.le_add_right ..

theorem one_le_line {p : Position} (h : .start ≤ p) : 1 ≤ p.line := by
  rcases h with hline | ⟨hline, _⟩
  · exact hline.le
  · exact hline.le

/-- Where the text of a line ends. -/
def Line.stop (line : Line) : Nat := line.start + byteLength line.text

theorem byteLength_reverse (text : List Char) : byteLength text.reverse = byteLength text := by
  induction text with
  | nil => rfl
  | cons c rest ih => simp [byteLength_append, ih, Nat.add_comm]

theorem Line.stop_le (start : Nat) (before : List Char) :
    (Line.mk start (dropReturns before.reverse)).stop ≤ start + byteLength before := by
  rw [← byteLength_reverse before]
  exact Nat.add_le_add_left (byteLength_le_of_isPrefix (dropReturns_isPrefix _)) start

theorem linesFrom_bounds {start : Nat} {before text : List Char} {line : Line}
    (h : line ∈ linesFrom start before text) :
    start ≤ line.start ∧ line.stop ≤ start + byteLength before + byteLength text := by
  induction text generalizing start before with
  | nil =>
    obtain rfl := List.mem_singleton.mp h
    exact ⟨Nat.le_refl _, Line.stop_le start before⟩
  | cons c rest ih =>
    rw [linesFrom] at h
    rw [Text.byteLength_cons]
    split at h
    · next hc =>
      have hfeed : c.utf8Size = 1 := by rw [hc]; rfl
      rcases List.mem_cons.mp h with rfl | h
      · exact ⟨Nat.le_refl _, (Line.stop_le start before).trans (Nat.le_add_right ..)⟩
      · have := ih h
        rw [Text.byteLength_nil] at this
        omega
    · have := ih h
      rw [Text.byteLength_cons] at this
      omega

theorem linesFrom_ordered (start : Nat) (before text : List Char) :
    (linesFrom start before text).Pairwise fun a b => a.stop ≤ b.start := by
  induction text generalizing start before with
  | nil => exact List.pairwise_singleton ..
  | cons c rest ih =>
    rw [linesFrom]
    split
    · refine List.pairwise_cons.mpr ⟨fun line hline => ?_, ih ..⟩
      have hfirst := Line.stop_le start before
      have hbehind := (linesFrom_bounds hline).1
      omega
    · exact ih ..

namespace Lines
variable {text : List Char}

theorem stop_le_size {number : Nat} {line : Line} (h : (ofText text).line? number = some line) :
    line.stop ≤ (ofText text).size := by
  have hmem : line ∈ linesFrom 0 [] text := by
    simp only [line?, ofText, List.getElem?_toArray] at h
    exact List.mem_of_getElem? h
  have := (linesFrom_bounds hmem).2
  rwa [Text.byteLength_nil, Nat.zero_add] at this

/-- A line ends before a later one starts. -/
theorem stop_le_offset {number : Nat} {line : Line} {q : Position}
    (h : (ofText text).line? number = some line) (hnumber : 1 ≤ number) (hq : number < q.line) :
    line.stop ≤ (ofText text).offset q := by
  rw [offset]
  cases hlater : (ofText text).line? q.line with
  | none => exact stop_le_size h
  | some later =>
    simp only [line?, ofText, List.getElem?_toArray] at h hlater
    obtain ⟨hi, rfl⟩ := List.getElem?_eq_some_iff.mp h
    obtain ⟨hj, rfl⟩ := List.getElem?_eq_some_iff.mp hlater
    have hle := List.pairwise_iff_getElem.mp (linesFrom_ordered 0 [] text) (number - 1) (q.line - 1)
      hi hj (by omega)
    exact hle.trans (Nat.le_add_right ..)

/-- Behind the last line there is no other. -/
theorem line?_eq_none {i j : Nat} (h : (ofText text).line? i = none) (hij : i ≤ j) :
    (ofText text).line? j = none := by
  rw [line?, Array.getElem?_eq_none_iff] at h ⊢
  omega

/-- Positions in order have offsets in order, lines being counted from one. -/
theorem offset_le (text : List Char) {p q : Position} (hp : .start ≤ p) (h : p ≤ q) :
    (ofText text).offset p ≤ (ofText text).offset q := by
  have hline := one_le_line hp
  cases hfirst : (ofText text).line? p.line with
  | none =>
    have hle : p.line ≤ q.line := by
      rw [Position.le_iff] at h
      omega
    rw [offset, hfirst, offset, line?_eq_none hfirst hle]
  | some line =>
    rcases h with hlt | ⟨heq, hcolumn⟩
    · refine Nat.le_trans ?_ (stop_le_offset hfirst hline hlt)
      rw [offset, hfirst]
      exact Nat.add_le_add_left (byteLength_le_of_isPrefix (List.take_prefix ..)) _
    · rw [offset, offset, ← heq, hfirst]
      exact Nat.add_le_add_left (byteLength_le_of_isPrefix (List.take_prefix_take_left hcolumn)) _

theorem firstVisible_le_offset {number : Nat} {q : Position} (hnumber : 1 ≤ number)
    (hq : number < q.line) :
    (ofText text).firstVisible number ≤ (ofText text).offset q := by
  rw [firstVisible]
  cases hfirst : (ofText text).line? number with
  | none => rw [offset, line?_eq_none hfirst hq.le]
  | some line =>
    refine Nat.le_trans ?_ (stop_le_offset hfirst hnumber hq)
    exact Nat.add_le_add_left (byteLength_le_of_isPrefix (List.takeWhile_prefix _)) _

end Lines

/-! ### Ranges in order -/

theorem one_le_firstCommentLine (index : Lines) (floor : Nat) {line : Nat} (h : 1 ≤ line) :
    1 ≤ firstCommentLine index floor line := by
  induction line using firstCommentLine.induct index floor with
  | case1 => exact absurd h (Nat.not_succ_le_zero 0)
  | case2 => exact Nat.le_refl 1
  | case3 line hcomment ih =>
    rw [firstCommentLine, if_pos hcomment]
    exact ih (Nat.le_add_left 1 line)
  | case4 line hcomment =>
    rw [firstCommentLine, if_neg hcomment]
    exact h

/-- A member starts behind the floor, and with its first token at the latest. -/
theorem memberStart_bounds {text : List Char} {floor : Nat} {start : Position}
    (hstart : .start ≤ start) (hfloor : floor ≤ (Lines.ofText text).offset start) :
    floor ≤ memberStart (Lines.ofText text) floor start ∧
      memberStart (Lines.ofText text) floor start ≤ (Lines.ofText text).offset start := by
  have htoken := And.intro (Nat.le_max_right ((Lines.ofText text).offset start) floor)
    (Nat.max_le.mpr ⟨Nat.le_refl _, hfloor⟩)
  have hone := one_le_firstCommentLine (Lines.ofText text) floor (one_le_line hstart)
  unfold memberStart
  dsimp only
  split_ifs with hopens habove hnever
  · exact ⟨Nat.le_max_right .., Nat.max_le.mpr ⟨Lines.firstVisible_le_offset hone habove, hfloor⟩⟩
  · exact htoken
  · exact absurd hnever (Nat.lt_irrefl _)
  · exact htoken

theorem membersFrom_inLine (text : List Char)
    (declareAt : Nat → Syntax.Member → Declaration × VisibilityClass) {p : Position} (place : Nat)
    {members : List Syntax.Member} (hp : .start ≤ p) (h : InOrder p members) :
    let index := Lines.ofText text
    InLine (index.offset p)
      ((membersFrom index declareAt (index.offset p) place members).map Member.range) := by
  intro index
  induction members generalizing p place with
  | nil => trivial
  | cons m rest ih =>
    obtain ⟨hbehind, hspan, _, hrest⟩ := h
    obtain ⟨hfloor, htoken⟩ := memberStart_bounds (hp.trans hbehind)
      (Lines.offset_le text hp hbehind)
    have hstop := Lines.offset_le text (hp.trans hbehind) hspan
    exact ⟨hfloor, htoken.trans hstop, ih (place + 1) ((hp.trans hbehind).trans hspan) hrest⟩

/-! ### Declarations in order -/

section
variable (order : VisibilityOrder) (own : Option String) (inTrait : Bool)

theorem declare_name_ne {place : Nat} {m : Syntax.Member} (hm : m.kind.Named)
    (hcallable : (declare order own inTrait place m).1.callable = true) :
    (declare order own inTrait place m).1.name ≠ "" := by
  obtain ⟨kind, visibility, span⟩ := m
  cases kind with
  | function signature body => exact hm
  | _ => exact absurd hcallable Bool.false_ne_true

/-- What members declare at their places is a valid batch. -/
theorem mapIdx_declare_valid {members : List Syntax.Member} (h : ∀ m ∈ members, m.kind.Named) :
    Batch.Valid ((members.mapIdx (declare order own inTrait)).map Prod.fst) := by
  have hplaces (f : Declaration → Nat)
      (hf : ∀ place m, f (declare order own inTrait place m).1 = place) :
      ((members.mapIdx (declare order own inTrait)).map Prod.fst).map f =
        List.range members.length := by
    refine List.ext_getElem (by simp) fun i hi _ => ?_
    simp [hf]
  have hid : ∀ place m, (declare order own inTrait place m).1.id = place := by
    rintro place ⟨kind, visibility, span⟩
    cases kind <;> rfl
  have hindex : ∀ place m, (declare order own inTrait place m).1.sourceIndex = place := by
    rintro place ⟨kind, visibility, span⟩
    cases kind <;> rfl
  refine ⟨?_, ?_, ?_⟩
  · rw [hplaces _ hid]
    exact List.nodup_range
  · rw [hplaces _ hindex]
    exact List.nodup_range
  · intro d hd hcallable
    obtain ⟨_, hdeclared, rfl⟩ := List.mem_map.mp hd
    obtain ⟨i, hi, rfl⟩ := List.mem_mapIdx.mp hdeclared
    exact declare_name_ne order own inTrait (h _ (List.getElem_mem hi)) hcallable

end

/-! ### Blocks of a text -/

/-- The ranges of a block come one behind the other, behind its brace. -/
theorem inLine_extracted {b : Syntax.Block} (h : Orderly b) (order : VisibilityOrder)
    (source : List Char) :
    InLine ((Lines.ofText (withoutMark source)).offset b.inside + markLength source)
      (extracted order source b).ranges := by
  have hline := membersFrom_inLine (withoutMark source)
    (declare order (typeName? b.selfType) b.trait.isSome) 0 h.inside h.members
  rw [ranges_extracted]
  exact hline.shifted (markLength source)

theorem extracted_orderable {b : Syntax.Block} (h : Orderly b) (order : VisibilityOrder)
    (source : List Char) :
    (extracted order source b).Orderable where
  valid := by
    rw [declarations_extracted]
    exact mapIdx_declare_valid order (typeName? b.selfType) b.trait.isSome h.members.named
  inLine := by
    have hranges := (inLine_extracted h order source).mono (Nat.zero_le _)
    rwa [Remap.slotsOf_eq hranges]

/-- What is read from a text is read from trees that stand in it. -/
theorem exists_stand_of_parsed {source : List Char} {read : List Syntax.Block}
    (h : parsed source = .ok read) :
    ∃ found stop, Lexeme.Stand .start found stop ∧ Grammar.blocks found = .ok read := by
  rw [parsed] at h
  cases htrees : trees (withoutMark source) with
  | error place =>
    rw [htrees] at h
    cases h
  | ok found =>
    rw [htrees] at h
    obtain ⟨stop, hstand⟩ := Lexeme.scan_stand htrees
    exact ⟨found, stop, hstand, h⟩

theorem parsed_orderly {source : List Char} {read : List Syntax.Block}
    (h : parsed source = .ok read) :
    ∀ b ∈ read, Orderly b := by
  obtain ⟨_, _, hstand, hblocks⟩ := exists_stand_of_parsed h
  exact Grammar.blocks_orderly hstand hblocks

/-- **Blocks can be ordered.** Whatever text they are read from. -/
theorem blocks_orderable {order : VisibilityOrder} {source : List Char} {found : List Block}
    (h : blocks order source = .ok found) : ∀ b ∈ found, b.Orderable := by
  rw [blocks_eq] at h
  cases hparsed : parsed source with
  | error place =>
    rw [hparsed] at h
    cases h
  | ok read =>
    rw [hparsed] at h
    cases h
    intro b hb
    obtain ⟨c, hc, rfl⟩ := List.mem_map.mp hb
    exact extracted_orderable (parsed_orderly hparsed c hc) order source

end CalleeFirst.Source
