import CalleeFirst.Proofs.BlockPlaces
import CalleeFirst.Proofs.FirstLine
import CalleeFirst.Proofs.PositionOffsets
import CalleeFirst.Proofs.RunLine

/-! A byte order mark in front of a text.

The mark is taken off before the lines of the text are counted, and a mark that is still there is
taken off once more before the text is read. So behind one mark a text is read as it is alone, and
all ranges are moved by the length of the mark.

Behind two marks the columns of the first line are those of a text without marks, while its
characters are counted with one. Members in that line have ranges that are off by a
character, and reordering them takes the text apart (`reorder_twice_marked`). In later lines
nothing changes.

A third mark is passed over by the scanner, which counts it in its columns. The ranges stay off by a
character, and all of them are moved by the mark. But a line that tells the system how to run the
text is no longer taken off, and a fourth mark is no source.

`reorder_marked`: a mark is passed over, apart from members in the first line of a text that has
one already, and a text with two marks that can no longer be read. -/
namespace CalleeFirst.Source

open Grammar (Orderly)
open Grammar.HasPlaces (pushed)
open Lexeme (Position byteOrderMark)
open Text (IsBoundary byteLength)

/-! ### The ranges of a block -/

theorem isBoundary_max {text : List Char} {m n : Nat} (hm : IsBoundary text m)
    (hn : IsBoundary text n) :
    IsBoundary text (max m n) := by
  rcases Nat.le_total m n with h | h
  · rwa [Nat.max_eq_right h]
  · rwa [Nat.max_eq_left h]

theorem isBoundary_memberStart {text : List Char} {floor : Nat} (h : IsBoundary text floor)
    (start : Position) :
    IsBoundary text (memberStart (Lines.ofText text) floor start) := by
  have hcomments (number : Nat) := isBoundary_max (isBoundary_firstVisible text number) h
  have htoken := isBoundary_max (isBoundary_offset text start) h
  unfold memberStart
  dsimp only
  split_ifs
  · exact hcomments _
  · exact htoken
  · exact hcomments _
  · exact htoken

theorem isBoundary_membersFrom {text : List Char}
    (declareAt : Nat → Syntax.Member → Declaration × VisibilityClass) {floor : Nat}
    (h : IsBoundary text floor) (place : Nat) (members : List Syntax.Member) :
    ∀ m ∈ membersFrom (Lines.ofText text) declareAt floor place members,
      IsBoundary text m.range.start ∧ IsBoundary text m.range.stop := by
  induction members generalizing floor place with
  | nil => exact fun m hm => absurd hm List.not_mem_nil
  | cons m rest ih =>
    have hstop := isBoundary_offset text m.span.stop
    exact List.forall_mem_cons.mpr ⟨⟨isBoundary_memberStart h m.span.start, hstop⟩,
      ih hstop (place + 1)⟩

theorem extracted_liesIn {b : Syntax.Block} (h : Orderly b) (order : VisibilityOrder)
    (source : List Char) :
    (extracted order source b).LiesIn source := by
  have hbounds : ∀ r ∈ (extracted order source b).ranges, IsBoundary source r.start ∧
      IsBoundary source r.stop := by
    intro r hr
    rw [ranges_extracted] at hr
    obtain ⟨q, hq, rfl⟩ := List.mem_map.mp hr
    obtain ⟨m, hm, rfl⟩ := List.mem_map.mp hq
    have hmember := isBoundary_membersFrom _ (isBoundary_offset (withoutMark source) b.inside) 0
      b.members m hm
    exact ⟨isBoundary_shifted hmember.1, isBoundary_shifted hmember.2⟩
  exact ⟨(extracted_orderable h order source).valid,
    (inLine_extracted h order source).mono (Nat.zero_le _), fun r hr => (hbounds r hr).1,
    fun r hr => (hbounds r hr).2.le⟩

/-- A block starts before the brace of any block that is opened behind its first member. -/
theorem span_start_extracted_le {b c : Syntax.Block} (hb : Orderly b) (hc : Orderly c)
    (h : ∀ m ∈ b.members, m.span.stop ≤ c.inside) (order : VisibilityOrder) (source : List Char)
    (hbne : (extracted order source b).members ≠ [])
    (hcne : (extracted order source c).members ≠ []) :
    (extracted order source b).span.start ≤ (extracted order source c).span.start := by
  obtain ⟨m, rest, hmembers⟩ : ∃ m rest, b.members = m :: rest := by
    refine List.exists_cons_of_ne_nil fun hnil => hbne ?_
    rw [extracted, blockOf, hnil]
    rfl
  obtain ⟨r, hr, hstop⟩ : ∃ r ∈ (extracted order source b).ranges,
      r.stop = (Lines.ofText (withoutMark source)).offset m.span.stop + markLength source := by
    rw [ranges_extracted, Block.ranges, blockOf, hmembers]
    exact ⟨_, List.mem_cons_self, rfl⟩
  obtain ⟨r', hr', hstart⟩ := Block.exists_span_start hcne
  have hbehind : m.span.stop ≤ c.inside := h m (hmembers ▸ List.mem_cons_self)
  have hfirst : .start ≤ m.span.stop := by
    have hmember := hb.members
    rw [hmembers] at hmember
    exact (hb.inside.trans hmember.1).trans hmember.2.1
  calc (extracted order source b).span.start
      ≤ r.start := Block.span_start_le hr
    _ ≤ r.stop := (inLine_extracted hb order source).le hr
    _ ≤ (Lines.ofText (withoutMark source)).offset c.inside + markLength source := by
      rw [hstop]
      exact Nat.add_le_add_right (Lines.offset_le _ hfirst hbehind) _
    _ ≤ r'.start := (inLine_extracted hc order source).start_le hr'
    _ = (extracted order source c).span.start := hstart

theorem spans_ordered {source : List Char} {read : List Syntax.Block} (h : parsed source = .ok read)
    (order : VisibilityOrder) :
    (read.map (extracted order source)).Pairwise fun b c =>
      b.members ≠ [] → c.members ≠ [] → b.span.start ≤ c.span.start := by
  obtain ⟨_, _, hstand, hblocks⟩ := exists_stand_of_parsed h
  have horderly := parsed_orderly h
  rw [List.pairwise_map]
  exact (Grammar.blocks_successive hstand hblocks).pairwise.imp_of_mem fun hb hc hbehind =>
    span_start_extracted_le (horderly _ hb) (horderly _ hc) hbehind order source

/-! ### Reading behind a mark -/

/-- How many marks a text starts with. -/
def marks (source : List Char) : Nat := (source.takeWhile (· == byteOrderMark)).length

/-- A further mark is passed over. It is not if two marks are followed by a third one, or by a line
that is cut off before the text is read. -/
def PassesMark (source : List Char) : Prop :=
  marks source ≤ 1 ∨ marks source = 2 ∧ withoutRunLine (source.drop 2) = source.drop 2

theorem marks_cons (source : List Char) : marks (byteOrderMark :: source) = marks source + 1 := by
  rw [marks, List.takeWhile_cons_of_pos (by decide)]
  rfl

theorem marks_eq_zero {source : List Char} (h : source.head? ≠ some byteOrderMark) :
    marks source = 0 := by
  cases source with
  | nil => rfl
  | cons c rest =>
    have hc : c ≠ byteOrderMark := fun hc => h (congrArg some hc)
    rw [marks, List.takeWhile_cons_of_neg (by simpa using hc)]
    rfl

/-- A text starts with no mark, or behind its first mark is another text. -/
theorem marked_cases (source : List Char) :
    source.head? ≠ some byteOrderMark ∨ ∃ rest, source = byteOrderMark :: rest := by
  cases source with
  | nil => exact .inl (by decide)
  | cons c rest =>
    by_cases hc : c = byteOrderMark
    · exact .inr ⟨rest, by rw [hc]⟩
    · exact .inl fun h => hc (Option.some.inj h)

theorem withoutMark_cons (source : List Char) : withoutMark (byteOrderMark :: source) = source := by
  rw [withoutMark, if_pos rfl]

theorem withoutMark_of_head? {source : List Char} (h : source.head? ≠ some byteOrderMark) :
    withoutMark source = source := by
  cases source with
  | nil => rfl
  | cons c rest => rw [withoutMark, if_neg fun hc => h (congrArg some hc)]

theorem extracted_eq_shifted (order : VisibilityOrder) (source : List Char) (b : Syntax.Block) :
    extracted order source b =
      (blockOf order (Lines.ofText (withoutMark source)) b).shifted (markLength source) := rfl

theorem markLength_cons (source : List Char) : markLength (byteOrderMark :: source) = 3 := by
  rw [markLength, withoutMark_cons, Text.byteLength_cons]
  exact Nat.add_sub_cancel ..

theorem parsed_cons_cons (text : List Char) :
    parsed (byteOrderMark :: byteOrderMark :: text) =
      (Lexeme.scan (withoutRunLine text) >>= Grammar.blocks) := by
  rw [parsed, withoutMark_cons, trees, withoutMark_cons]

section
variable {source : List Char}

/-- A mark in front of no more than one other is taken off. -/
theorem parsed_of_marks_le (h : marks source ≤ 1) :
    parsed (byteOrderMark :: source) = parsed source := by
  have hmark : (withoutMark source).head? ≠ some byteOrderMark := by
    rcases marked_cases source with hhead | ⟨rest, rfl⟩
    · rwa [withoutMark_of_head? hhead]
    · rw [withoutMark_cons]
      rcases marked_cases rest with hhead | ⟨rest, rfl⟩
      · exact hhead
      · rw [marks_cons, marks_cons] at h
        omega
  rw [parsed, parsed, withoutMark_cons, trees, trees, withoutMark_of_head? hmark]

/-- With two marks or more there is a text behind two of them. -/
theorem exists_of_two_le_marks (h : 2 ≤ marks source) :
    ∃ text, source = byteOrderMark :: byteOrderMark :: text ∧ marks source = marks text + 2 := by
  rcases marked_cases source with hhead | ⟨rest, rfl⟩
  · rw [marks_eq_zero hhead] at h
    cases h
  · rw [marks_cons] at h
    rcases marked_cases rest with hhead | ⟨text, rfl⟩
    · rw [marks_eq_zero hhead] at h
      omega
    · exact ⟨text, rfl, by rw [marks_cons, marks_cons]⟩

/-- The scanner passes over a mark. -/
theorem scan_cons (text : List Char) :
    Lexeme.scan (byteOrderMark :: text) = Lexeme.scanFrom text ⟨1, 1⟩ [] [] := by
  rw [Lexeme.scan, if_pos rfl]
  rfl

theorem scan_eq {text : List Char} (h : marks text = 0) :
    Lexeme.scan text = Lexeme.scanFrom text .start [] [] := by
  cases text with
  | nil =>
    rw [Lexeme.scanFrom.eq_def]
    dsimp only
    split
    · rfl
    · next hdrop =>
      rw [List.drop_nil] at hdrop
      cases hdrop
  | cons c rest =>
    rw [Lexeme.scan, if_neg]
    rintro rfl
    rw [marks_cons] at h
    cases h

theorem parsed_cons_three (text : List Char) :
    parsed (byteOrderMark :: byteOrderMark :: byteOrderMark :: text) =
      (Lexeme.scanFrom text ⟨1, 1⟩ [] [] >>= Grammar.blocks) := by
  rw [parsed_cons_cons, ← scan_cons]
  rfl

/-- Behind a third mark the columns are counted with it. -/
theorem toOption_parsed_cons (h : marks source = 2)
    (hrun : withoutRunLine (source.drop 2) = source.drop 2) :
    (parsed (byteOrderMark :: source)).toOption = pushed 1 (parsed source).toOption := by
  obtain ⟨text, rfl, hmarks⟩ := exists_of_two_le_marks h.ge
  have hzero : marks text = 0 := by omega
  replace hrun : withoutRunLine text = text := hrun
  rw [parsed_cons_three, parsed_cons_cons, hrun, scan_eq hzero, Lexeme.scanFrom_column]
  cases Lexeme.scanFrom text .start [] [] with
  | error place => rfl
  | ok found => exact Grammar.toOption_blocks found

/-- A text that does not pass a mark is no source behind one. -/
theorem parsed_of_not_passesMark (h : ¬ PassesMark source) :
    ∃ place, parsed (byteOrderMark :: source) = .error place := by
  rw [PassesMark, not_or, not_le] at h
  obtain ⟨text, rfl, hmarks⟩ := exists_of_two_le_marks h.1
  rw [parsed_cons_three]
  rcases marked_cases text with hhead | ⟨rest, rfl⟩
  · have htwo : marks (byteOrderMark :: byteOrderMark :: text) = 2 := by
      rw [hmarks, marks_eq_zero hhead]
    have hrun : withoutRunLine text ≠ text := fun hrun => h.2 ⟨htwo, hrun⟩
    cases hscan : Lexeme.scanFrom text ⟨1, 1⟩ [] [] with
    | error place => exact ⟨place, rfl⟩
    | ok found => exact blocks_of_runLine hrun hscan
  · exact ⟨⟨1, 1⟩, by rw [Lexeme.scanFrom_mark]; rfl⟩

end

/-! ### Blocks behind a mark -/

/-- What is read of a block behind a further mark. -/
def carried (source : List Char) (b : Syntax.Block) : Syntax.Block :=
  if 2 ≤ marks source then pushed 1 b else b

section
variable {source : List Char}

theorem carried_of_le (h : marks source ≤ 1) (b : Syntax.Block) : carried source b = b :=
  if_neg (Nat.not_le.mpr (Nat.lt_succ_of_le h))

theorem toOption_parsed (h : PassesMark source) :
    (parsed (byteOrderMark :: source)).toOption =
      (parsed source).toOption.map (List.map (carried source)) := by
  rcases h with h | ⟨h, hrun⟩
  · have hcarried : carried source = id := funext (carried_of_le h)
    rw [parsed_of_marks_le h, hcarried, List.map_id_fun, Option.map_id]
    rfl
  · have hcarried : carried source = pushed 1 := funext fun b => if_pos h.ge
    rw [toOption_parsed_cons h hrun, hcarried]
    rfl

/-- Behind a mark that is passed over the same blocks are read. -/
theorem parsed_cons_of_ok (h : PassesMark source) {read : List Syntax.Block}
    (hparsed : parsed source = .ok read) :
    parsed (byteOrderMark :: source) = .ok (read.map (carried source)) := by
  have hread := toOption_parsed h
  rw [hparsed] at hread
  cases hmarked : parsed (byteOrderMark :: source) with
  | error place =>
    rw [hmarked] at hread
    cases hread
  | ok found =>
    rw [hmarked] at hread
    exact congrArg Except.ok (Option.some.inj hread)

/-- What cannot be read cannot be read behind a mark; only behind three is the place another. -/
theorem parsed_cons_of_error (h : PassesMark source) {place : Position}
    (hparsed : parsed source = .error place) :
    ∃ place', parsed (byteOrderMark :: source) = .error place' ∧
      (place' = place ∨ marks source = 2) := by
  rcases h with hle | ⟨htwo, hrun⟩
  · exact ⟨place, (parsed_of_marks_le hle).trans hparsed, .inl rfl⟩
  · have hread := toOption_parsed (.inr ⟨htwo, hrun⟩)
    rw [hparsed] at hread
    cases hmarked : parsed (byteOrderMark :: source) with
    | error place' => exact ⟨place', rfl, .inr htwo⟩
    | ok found =>
      rw [hmarked] at hread
      cases hread

/-- Behind a mark the ranges are moved by its length, unless there is one already and the block of
the members is opened in the first line. -/
theorem extracted_cons (order : VisibilityOrder) {b : Syntax.Block} (hb : Orderly b)
    (hfirst : marks source = 1 → b.members ≠ [] → 2 ≤ b.inside.line) :
    extracted order (byteOrderMark :: source) (carried source b) =
      (extracted order source b).shifted 3 := by
  rw [extracted_eq_shifted, extracted_eq_shifted, withoutMark_cons, markLength_cons]
  rcases marked_cases source with hhead | ⟨rest, rfl⟩
  · have hlength : markLength source = 0 := by
      rw [markLength, withoutMark_of_head? hhead, Nat.sub_self]
    rw [carried_of_le (by rw [marks_eq_zero hhead]; decide), withoutMark_of_head? hhead, hlength,
      Block.shifted_zero]
  · rw [withoutMark_cons, markLength_cons]
    rcases marked_cases rest with hhead | ⟨text, rfl⟩
    · have hone : marks (byteOrderMark :: rest) = 1 := by rw [marks_cons, marks_eq_zero hhead]
      rw [carried_of_le hone.le, blockOf_cons (by decide) rest order hb.members (hfirst hone)]
      rfl
    · have htwo : 2 ≤ marks (byteOrderMark :: byteOrderMark :: text) := by
        rw [marks_cons, marks_cons]
        exact Nat.le_add_left ..
      rw [carried, if_pos htwo, blockOf_pushed text order hb]
      rfl

end

/-! ### Reports -/

/-- Blocks that are ordered and reported alike, wherever they stand. -/
structure Block.Like (b c : Block) : Prop where
  label : c.label = b.label
  line : c.line = b.line
  declarations : c.declarations = b.declarations

theorem Block.displayName_eq {b c : Block} (h : c.declarations = b.declarations) :
    c.displayName = b.displayName := by
  funext i
  have hmember := congrArg (·[i]?) h
  simp only [declarations, List.getElem?_map] at hmember
  rw [displayName, displayName]
  cases hb : b.members[i]? with
  | none =>
    rw [hb, Option.map_none, Option.map_eq_none_iff] at hmember
    rw [hmember]
  | some m =>
    rw [hb, Option.map_some, Option.map_eq_some_iff] at hmember
    obtain ⟨m', hc, hdeclaration⟩ := hmember
    simp only [hc, hdeclaration]

/-- The report on a block does not depend on where it stands. -/
theorem Block.Like.report {b c : Block} (h : b.Like c) (s : Settings) (source text : List Char) :
    (c.rearranged text (c.order s)).1 = (b.rearranged source (b.order s)).1 := by
  rw [rearranged, rearranged, order, order, h.declarations, displayName_eq h.declarations, h.label,
    h.line]

/-- A further mark changes at most the ranges of a block. -/
theorem like_carried (order : VisibilityOrder) {source : List Char} {b : Syntax.Block}
    (hb : Orderly b) : (extracted order source b).Like
      (extracted order (byteOrderMark :: source) (carried source b)) := by
  by_cases hone : marks source = 1
  · rw [carried_of_le hone.le]
    exact ⟨rfl, rfl, by rw [declarations_extracted, declarations_extracted]⟩
  · rw [extracted_cons order hb fun h => absurd h hone]
    exact ⟨rfl, rfl, Block.declarations_shifted ..⟩

/-- The blocks of a text and those behind a further mark. -/
theorem forall₂_like_carried (order : VisibilityOrder) {source : List Char}
    {read : List Syntax.Block} (hparsed : parsed source = .ok read) :
    List.Forall₂ Block.Like (read.map (extracted order source))
      ((read.map (carried source)).map (extracted order (byteOrderMark :: source))) := by
  rw [List.map_map, List.forall₂_map_left_iff, List.forall₂_map_right_iff, List.forall₂_same]
  exact fun b hb => like_carried order (parsed_orderly hparsed b hb)

theorem map_eq_of_like {β : Type} {f f' : Block → β} (hf : ∀ {b c : Block}, b.Like c → f' c = f b)
    {found found' : List Block} (h : List.Forall₂ Block.Like found found') :
    found'.map f' = found.map f := by
  induction h with
  | nil => rfl
  | cons hlike _ ih => rw [List.map_cons, List.map_cons, hf hlike, ih]

theorem blocks_rearrangement_of_like (s : Settings) (source text : List Char)
    {found found' : List Block} (h : List.Forall₂ Block.Like found found') :
    (rearrangement text s found').blocks = (rearrangement source s found).blocks := by
  simp only [rearrangement, List.map_map]
  exact map_eq_of_like (fun hlike => hlike.report s source text) h

/-- The probe is asked as often and cancels at the same place, wherever the blocks stand. -/
theorem reorder_of_like {options : Options} (probe : Probe) {source text : List Char}
    {found found' : List Block} (hfound : blocks options.visibilityOrder source = .ok found)
    (hfound' : blocks options.visibilityOrder text = .ok found')
    (h : List.Forall₂ Block.Like found found') :
    let plain := reorder options probe source
    let other := reorder options probe text
    other.2 = plain.2 ∧ ((∃ fault, plain.1 = .error fault ∧ other.1 = .error fault) ∨
      plain.1 = .ok (rearrangement source options.ordering found) ∧
        other.1 = .ok (rearrangement text options.ordering found')) := by
  intro plain other
  have hplain : plain = _ := reorder_eq hfound (blocks_orderable hfound) probe
  have hother : other = _ := reorder_eq hfound' (blocks_orderable hfound') probe
  have hcounts : (found'.map fun b => Batch.pollCount b.declarations) =
      found.map fun b => Batch.pollCount b.declarations :=
    map_eq_of_like (fun hlike => congrArg Batch.pollCount hlike.declarations) h
  let r := rearrangement source options.ordering found
  let r' := rearrangement text options.ordering found'
  rw [hcounts, Polling.outcome_polled_map probe _ (fun _ => r') r] at hother
  rcases Polling.outcome_polled_cases probe
    (found.map fun b => Batch.pollCount b.declarations).sum r 0 with ⟨_, hrun⟩ | ⟨_, _, _, hrun⟩
  · rw [hrun] at hplain hother
    rw [hplain, hother]
    exact ⟨rfl, .inr ⟨rfl, rfl⟩⟩
  · rw [hrun] at hplain hother
    rw [hplain, hother]
    exact ⟨rfl, .inl ⟨_, rfl, rfl⟩⟩

theorem reorder_of_unreadable (options : Options) (probe : Probe) {source : List Char}
    {place : Position} (h : parsed source = .error place) :
    reorder options probe source = (.error (.unreadable place), 0) := by
  rw [reorder, blocks_eq, h]
  rfl

/-! ### Reordering behind a mark -/

theorem rearrangement_cons (options : Options) {source : List Char} {read : List Syntax.Block}
    (hsize : byteLength source + 3 < 9223372036854775808) (hparsed : parsed source = .ok read)
    (hfirst : marks source = 1 → ∀ b ∈ read, b.members ≠ [] → 2 ≤ b.inside.line) :
    let order := options.visibilityOrder
    let r := rearrangement source options.ordering (read.map (extracted order source))
    let r' := rearrangement (byteOrderMark :: source) options.ordering
      ((read.map (carried source)).map (extracted order (byteOrderMark :: source)))
    r'.text = byteOrderMark :: r.text ∧ ∀ i, r'.remap (i + 3) = r.remap i + 3 := by
  intro order r r'
  have horderly := parsed_orderly hparsed
  have hshifted : (read.map (carried source)).map (extracted order (byteOrderMark :: source)) =
      (read.map (extracted order source)).map (Block.shifted (byteLength [byteOrderMark])) := by
    rw [List.map_map, List.map_map]
    exact List.map_congr_left fun b hb =>
      extracted_cons order (horderly b hb) fun hone => hfirst hone b hb
  have hlies : ∀ b ∈ read.map (extracted order source), b.LiesIn source :=
    List.forall_mem_map.mpr fun b hb => extracted_liesIn (horderly b hb) order source
  have hfront := rearrangement_front [byteOrderMark] (s := options.ordering) hlies hsize
    (spans_ordered hparsed order)
  rw [← hshifted] at hfront
  exact hfront

/-- **A byte order mark is passed over.** Behind a mark a text is reordered as it is alone: it fails
alike or has the same reports, and its text and all offsets are moved by the length of the mark. If
the text starts with one mark already, this is so if no block with members is opened in its first
line; the reports are the same in any case. If it starts with two marks, only the place where it
cannot be read may differ. With more marks, or with two and a line that is cut off, a further mark
makes the text unreadable. -/
theorem reorder_marked (options : Options) (probe : Probe) {source : List Char}
    (hsize : byteLength source + 3 < 9223372036854775808) :
    let plain := reorder options probe source
    let marked := reorder options probe (byteOrderMark :: source)
    (PassesMark source → marked.2 = plain.2 ∧
      ((∃ fault fault', plain.1 = .error fault ∧ marked.1 = .error fault' ∧
          (fault' = fault ∨ marks source = 2 ∧
            ∃ place place', fault = .unreadable place ∧ fault' = .unreadable place')) ∨
        ∃ r r', plain.1 = .ok r ∧ marked.1 = .ok r' ∧ r'.blocks = r.blocks ∧
          ((marks source = 1 → ∀ read, parsed source = .ok read →
              ∀ b ∈ read, b.members ≠ [] → 2 ≤ b.inside.line) →
            r'.text = byteOrderMark :: r.text ∧ ∀ i, r'.remap (i + 3) = r.remap i + 3))) ∧
    (¬ PassesMark source → ∃ place, marked = (.error (.unreadable place), 0)) := by
  intro plain marked
  refine ⟨fun hpasses => ?_, fun hrefused => ?_⟩
  · cases hparsed : parsed source with
    | error place =>
      obtain ⟨place', hmarked, hplace⟩ := parsed_cons_of_error hpasses hparsed
      have hplain : plain = _ := reorder_of_unreadable options probe hparsed
      have hmark : marked = _ := reorder_of_unreadable options probe hmarked
      rw [hplain, hmark]
      refine ⟨rfl, .inl ⟨_, _, rfl, rfl, ?_⟩⟩
      rcases hplace with rfl | htwo
      · exact .inl rfl
      · exact .inr ⟨htwo, place, place', rfl, rfl⟩
    | ok read =>
      have hmarked := parsed_cons_of_ok hpasses hparsed
      have hlike := forall₂_like_carried options.visibilityOrder hparsed
      obtain ⟨hpolls, ⟨fault, hplain, hmark⟩ | ⟨hplain, hmark⟩⟩ :=
        reorder_of_like probe (blocks_of_parsed _ hparsed) (blocks_of_parsed _ hmarked) hlike
      · exact ⟨hpolls, .inl ⟨fault, fault, hplain, hmark, .inl rfl⟩⟩
      · refine ⟨hpolls, .inr ⟨_, _, hplain, hmark, blocks_rearrangement_of_like _ _ _ hlike, ?_⟩⟩
        intro hfirst
        exact rearrangement_cons options hsize hparsed fun hone => hfirst hone read rfl
  · obtain ⟨place, hplace⟩ := parsed_of_not_passesMark hrefused
    exact ⟨place, reorder_of_unreadable options probe hplace⟩

/-- A mark and a block in the second line. -/
def markedText : List Char := "\ufeff\nimpl A\x7bfn b()\x7bSelf::a()\x7dfn a()\x7b\x7d\x7d".toList

theorem reorder_marked_sample :
    byteLength markedText + 3 < 9223372036854775808 ∧ marks markedText = 1 ∧
      parsed markedText = .ok [onlyBlock markedText] ∧ (onlyBlock markedText).inside.line = 2 ∧
    ∃ r r', (reorder {} Probe.never markedText).1 = .ok r ∧
      r.text = "\ufeff\nimpl A\x7bfn a()\x7b\x7dfn b()\x7bSelf::a()\x7d\x7d".toList ∧
      (reorder {} Probe.never (byteOrderMark :: markedText)).1 = .ok r' ∧
        r'.text = byteOrderMark :: r.text ∧
      ∀ i, r'.remap (i + 3) = r.remap i + 3 := by
  have hsize : byteLength markedText + 3 < 9223372036854775808 := by decide
  have hone : marks markedText = 1 := by decide
  have hparsed : parsed markedText = .ok [onlyBlock markedText] := by decide +kernel
  have hinside : (onlyBlock markedText).inside.line = 2 := by decide +kernel
  have hahead : CallsAhead markedText (extracted .standard markedText (onlyBlock markedText)) := by
    decide +kernel
  obtain ⟨r, hok, htext⟩ := CallsAhead.reorder {} hparsed hahead
  obtain ⟨_, ⟨fault, _, hfails, _⟩ | ⟨r₁, r', hplain, hmarked, _, hmoved⟩⟩ :=
    (reorder_marked {} Probe.never hsize).1 (.inl hone.le)
  · rw [hok] at hfails
    cases hfails
  · obtain rfl : r = r₁ := Except.ok.inj (hok.symm.trans hplain)
    obtain ⟨hmarks, hremap⟩ := hmoved fun _ read hread b hb _ => by
      obtain rfl := Except.ok.inj (hparsed.symm.trans hread)
      rw [List.mem_singleton.mp hb, hinside]
    refine ⟨hsize, hone, hparsed, hinside, r, r', hok, ?_, hmarked, hmarks, hremap⟩
    rw [htext]
    decide +kernel

/-! ### More than one mark -/

/-- The members of a block in the first line. -/
def firstLineText : List Char := "impl A\x7bfn b()\x7bSelf::a()\x7dfn a()\x7b\x7d\x7d".toList

/-- **A second mark is not passed over.** Behind it the members of the first line are taken to start
and to end a character too early, and a brace is left on the wrong side. Behind a third one the line
that tells the system how to run a text is no longer known, and a fourth is no source. -/
theorem reorder_twice_marked :
    (∃ r r', (reorder {} Probe.never (byteOrderMark :: firstLineText)).1 = .ok r ∧
      (reorder {} Probe.never (byteOrderMark :: byteOrderMark :: firstLineText)).1 = .ok r' ∧
      r.text = "\ufeffimpl A\x7bfn a()\x7b\x7dfn b()\x7bSelf::a()\x7d\x7d".toList ∧
      r'.text = "\ufeff\ufeffimpl A\x7dfn a()\x7b\x7bfn b()\x7bSelf::a()\x7d\x7d".toList) ∧
    ((∃ r, (reorder {} Probe.never "\ufeff\ufeff#!a".toList).1 = .ok r) ∧
      (reorder {} Probe.never "\ufeff\ufeff\ufeff#!a".toList).1 = .error (.unreadable ⟨1, 3⟩)) ∧
    (∃ r, (reorder {} Probe.never (List.replicate 3 byteOrderMark)).1 = .ok r) ∧
      (reorder {} Probe.never (List.replicate 4 byteOrderMark)).1 =
        .error (.unreadable ⟨1, 1⟩) := by
  have hreads {source : List Char} (h : parsed source = .ok []) :
      ∃ r, (reorder {} Probe.never source).1 = .ok r := by
    rw [reorder, blocks_eq, h]
    exact ⟨_, rfl⟩
  have hfails {source : List Char} {place : Position} (h : parsed source = .error place) :
      (reorder {} Probe.never source).1 = .error (.unreadable place) :=
    congrArg Prod.fst (reorder_of_unreadable {} Probe.never h)
  refine ⟨?_, ⟨hreads (by decide +kernel), hfails (by decide +kernel)⟩, hreads (by decide +kernel),
    hfails (by decide +kernel)⟩
  have hparsed : parsed (byteOrderMark :: firstLineText) =
      .ok [onlyBlock (byteOrderMark :: firstLineText)] := by
    decide +kernel
  have hparsed' : parsed (byteOrderMark :: byteOrderMark :: firstLineText) =
      .ok [onlyBlock (byteOrderMark :: byteOrderMark :: firstLineText)] := by
    decide +kernel
  obtain ⟨r, hok, htext⟩ := CallsAhead.reorder {} hparsed (by decide +kernel)
  obtain ⟨r', hok', htext'⟩ := CallsAhead.reorder {} hparsed' (by decide +kernel)
  refine ⟨r, r', hok, hok', ?_, ?_⟩
  · rw [htext]
    decide +kernel
  · rw [htext']
    decide +kernel

end CalleeFirst.Source
