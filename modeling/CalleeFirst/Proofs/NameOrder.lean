import CalleeFirst.Proofs.Bytes
import CalleeFirst.Proofs.Comparison

/-! The order of names.

Lists of characters are compared at the first place where they differ, and a list that ends there
comes first. Three facts about that carry all the rest: what two lists have in common in front
does not count (`compareLex_append`), a list comes before every longer one that it starts
(`compareLex_append_self`), and of two lists one starts the other or there is a first difference
(`isPrefix_or_differ`).

Spelling in lower case may lengthen a name, so that places in the spelled name are not those in the
name. No character is spelled by nothing, though: a name that goes on after another is spelled
differently (`folded_append_ne`), and names that are spelled alike differ in a character of both.

`compareNames_orders`: either collation is a total order of all texts with prefixes first; `ordinal`
is the order of the bytes as well as that of the code points, and `natural` is decided by the
spellings or else by the first characters that differ. -/
namespace CalleeFirst

/-! ### Lists at their first difference -/

section
variable {α β : Type} {cmp : α → α → Ordering}

theorem compareLex_append [Std.ReflCmp cmp] (front a b : List α) :
    List.compareLex cmp (front ++ a) (front ++ b) = List.compareLex cmp a b := by
  induction front with
  | nil => rfl
  | cons x front ih =>
    have hx : cmp x x = .eq := Std.ReflCmp.compare_self
    rw [List.cons_append, List.cons_append, List.compareLex_cons_cons, hx, Ordering.eq_then, ih]

theorem compareLex_append_self [Std.ReflCmp cmp] (a : List α) {rest : List α} (h : rest ≠ []) :
    List.compareLex cmp a (a ++ rest) = .lt := by
  obtain ⟨x, rest, rfl⟩ := List.exists_cons_of_ne_nil h
  have hcommon : List.compareLex cmp (a ++ []) (a ++ x :: rest) = .lt := by
    rw [compareLex_append, List.compareLex_nil_cons]
  rwa [List.append_nil] at hcommon

theorem then_of_ne [Std.LawfulEqCmp cmp] {x y : α} (h : x ≠ y) (other : Ordering) :
    (cmp x y).then other = cmp x y := by
  cases hxy : cmp x y with
  | lt => rfl
  | eq => exact absurd (Std.LawfulEqCmp.eq_of_compare hxy) h
  | gt => rfl

/-- Behind the first difference nothing counts. -/
theorem compareLex_differ [Std.LawfulEqCmp cmp] (front : List α) {x y : α} (back back' : List α)
    (h : x ≠ y) : List.compareLex cmp (front ++ x :: back) (front ++ y :: back') = cmp x y := by
  rw [compareLex_append, List.compareLex_cons_cons, then_of_ne h]

theorem isPrefix_or_differ (a b : List α) : a <+: b ∨ b <+: a ∨
    ∃ front x y back back', a = front ++ x :: back ∧ b = front ++ y :: back' ∧ x ≠ y := by
  induction a generalizing b with
  | nil => exact .inl List.nil_prefix
  | cons x a ih =>
    cases b with
    | nil => exact .inr (.inl List.nil_prefix)
    | cons y b =>
      by_cases hxy : x = y
      · subst hxy
        rcases ih b with h | h | ⟨front, u, v, back, back', rfl, rfl, huv⟩
        · exact .inl ((List.prefix_cons_inj x).mpr h)
        · exact .inr (.inl ((List.prefix_cons_inj x).mpr h))
        · exact .inr (.inr ⟨x :: front, u, v, back, back', rfl, rfl, huv⟩)
      · exact .inr (.inr ⟨[], x, y, a, b, rfl, rfl, hxy⟩)

theorem compareLex_eq_lt_iff [LT α] [Std.LawfulEqCmp cmp] (hlt : ∀ x y, cmp x y = .lt ↔ x < y)
    {a b : List α} : List.compareLex cmp a b = .lt ↔ a < b := by
  induction a generalizing b with
  | nil =>
    cases b with
    | nil => simp [List.compareLex_nil_nil]
    | cons y b => simp [List.compareLex_nil_cons]
  | cons x a ih =>
    cases b with
    | nil => simp [List.compareLex_cons_nil]
    | cons y b =>
      rw [List.compareLex_cons_cons, Ordering.then_eq_lt, List.cons_lt_cons_iff, hlt,
        Std.LawfulEqCmp.compare_eq_iff_eq, ih]

/-- A reading that keeps what is less keeps the whole comparison. -/
theorem compare_read [Std.OrientedCmp cmp] [Std.LawfulEqCmp cmp] (cmp' : β → β → Ordering)
    [Std.OrientedCmp cmp'] (f : α → β) (h : ∀ a b, cmp a b = .lt → cmp' (f a) (f b) = .lt)
    (a b : α) :
    cmp' (f a) (f b) = cmp a b := by
  cases hab : cmp a b with
  | lt => exact h a b hab
  | eq =>
    obtain rfl := Std.LawfulEqCmp.eq_of_compare hab
    exact Std.ReflCmp.compare_self
  | gt => exact Std.OrientedCmp.gt_of_lt (h b a (Std.OrientedCmp.lt_of_gt hab))

end

/-! ### Code points and bytes -/

namespace Text

theorem compare_char_lt (x y : Char) : compare x y = .lt ↔ x < y := compareOfLessAndEq_eq_lt

theorem compareLex_bytes (a b : List Char) :
    List.compareLex compare (bytes a) (bytes b) = List.compareLex compare a b := by
  refine compare_read (List.compareLex compare) bytes (fun a b h => ?_) a b
  rw [compareLex_eq_lt_iff compare_char_lt] at h
  exact (compareLex_eq_lt_iff fun _ _ => Std.compare_eq_lt).mpr (bytes_lt_bytes h)

theorem bytes_toList (name : String) : bytes name.toList = name.toUTF8.data.toList := by
  rw [String.toUTF8_eq_toByteArray, ← String.utf8Encode_toList, List.utf8Encode,
    List.toList_data_toByteArray]
  rfl

theorem compare_toNat (x y : Char) : compare x.toNat y.toNat = compare x y := by
  refine compare_read compare Char.toNat (fun x y h => ?_) x y
  exact Nat.compare_eq_lt.mpr ((compare_char_lt x y).mp h)

theorem compareLex_codePoints (a b : List Char) :
    List.compareLex compare (a.map Char.toNat) (b.map Char.toNat) =
      List.compareLex compare a b := by
  induction a generalizing b with
  | nil => cases b <;> rfl
  | cons x a ih =>
    cases b with
    | nil => rfl
    | cons y b =>
      rw [List.map_cons, List.map_cons, List.compareLex_cons_cons, List.compareLex_cons_cons, ih,
        compare_toNat]

end Text

/-! ### Names -/

namespace Collation

instance : Std.LawfulEqCmp compareCase where
  eq_of_compare h := Std.LawfulEqCmp.eq_of_compare (Ordering.then_eq_eq.mp h).2

theorem folded_append (a b : String) : folded (a ++ b) = folded a ++ folded b := by
  rw [folded, String.toList_append, List.flatMap_append]
  rfl

theorem folded_ne_nil {name : String} (h : name ≠ "") : folded name ≠ [] := by
  intro hnil
  refine h (String.toList_inj.mp (List.eq_nil_iff_forall_not_mem.mpr fun c hc => ?_))
  exact Text.lowercase_ne_nil c (List.flatMap_eq_nil_iff.mp hnil c hc)

/-- A name that goes on is spelled differently. -/
theorem folded_append_ne (a : String) {rest : String} (h : rest ≠ "") :
    folded (a ++ rest) ≠ folded a := by
  rw [folded_append]
  exact fun heq => folded_ne_nil h (List.append_right_eq_self.mp heq)

theorem exists_append_of_isPrefix {a b : String} (h : a.toList <+: b.toList) (hne : a ≠ b) :
    ∃ rest, rest ≠ "" ∧ b = a ++ rest := by
  obtain ⟨rest, hrest⟩ := h
  refine ⟨String.ofList rest, fun hnil => hne ?_, ?_⟩
  · rw [String.ofList_eq_empty_iff] at hnil
    rw [hnil, List.append_nil] at hrest
    exact String.toList_inj.mp hrest
  · rw [← String.toList_inj, String.toList_append, String.toList_ofList, hrest]

theorem compareNames_eq_iff (c : Collation) (a b : String) : c.compareNames a b = .eq ↔ a = b := by
  refine ⟨fun h => String.toList_inj.mp ?_, fun h => h ▸ Std.ReflCmp.compare_self⟩
  cases c with
  | ordinal => exact Std.LawfulEqCmp.eq_of_compare h
  | natural => exact Std.LawfulEqCmp.eq_of_compare (Ordering.then_eq_eq.mp h).2

theorem compareNames_append (c : Collation) (a : String) {rest : String} (h : rest ≠ "") :
    c.compareNames a (a ++ rest) = .lt := by
  cases c with
  | ordinal =>
    rw [compareNames, String.toList_append]
    exact compareLex_append_self _ fun hnil => h (String.toList_inj.mp hnil)
  | natural =>
    rw [compareNames, folded_append, compareLex_append_self _ (folded_ne_nil h)]
    rfl

theorem compareNames_of_folded_ne {a b : String} (h : folded a ≠ folded b) :
    natural.compareNames a b = List.compareLex compare (folded a) (folded b) := by
  rw [compareNames, then_of_ne h]

/-- `x` and `y` stand at the first place where the names differ. -/
def DifferFirst (a b : String) (x y : Char) : Prop :=
  ∃ front back back', a.toList = front ++ x :: back ∧ b.toList = front ++ y :: back' ∧ x ≠ y

theorem exists_differFirst {a b : String} (h : folded a = folded b) (hne : a ≠ b) :
    ∃ x y, DifferFirst a b x y := by
  rcases isPrefix_or_differ a.toList b.toList with
    hab | hba | ⟨front, x, y, back, back', ha, hb, hxy⟩
  · obtain ⟨rest, hrest, rfl⟩ := exists_append_of_isPrefix hab hne
    exact absurd h.symm (folded_append_ne a hrest)
  · obtain ⟨rest, hrest, rfl⟩ := exists_append_of_isPrefix hba hne.symm
    exact absurd h (folded_append_ne b hrest)
  · exact ⟨x, y, front, back, back', ha, hb, hxy⟩

theorem compareNames_differFirst {a b : String} (h : folded a = folded b) {x y : Char}
    (hdiffer : DifferFirst a b x y) : natural.compareNames a b = compareCase x y := by
  obtain ⟨front, back, back', ha, hb, hxy⟩ := hdiffer
  have hfolded : List.compareLex compare (folded b) (folded b) = .eq := Std.ReflCmp.compare_self
  rw [compareNames, h, hfolded, Ordering.eq_then, ha, hb, compareLex_differ front back back' hxy]

/-- Lower case first, then the smaller code point. -/
theorem compareCase_cases (x y : Char) :
    (Text.isLowercase x = true → Text.isLowercase y = false → compareCase x y = .lt) ∧
    (Text.isLowercase x = false → Text.isLowercase y = true → compareCase x y = .gt) ∧
    (Text.isLowercase x = Text.isLowercase y → compareCase x y = compare x.toNat y.toNat) := by
  unfold compareCase
  refine ⟨fun hx hy => ?_, fun hx hy => ?_, fun hxy => ?_⟩
  · rw [hx, hy]
    rfl
  · rw [hx, hy]
    rfl
  · have hsame : compare (!Text.isLowercase y) (!Text.isLowercase y) = .eq :=
      Std.ReflCmp.compare_self
    rw [hxy, hsame, Ordering.eq_then, Text.compare_toNat]

/-- **Names are totally ordered** by either collation, and what a name starts with comes before
it. -/
theorem compareNames_orders :
    (∀ c : Collation,
      (∀ a b, c.compareNames b a = (c.compareNames a b).swap) ∧
      (∀ a b d, c.compareNames a b = .lt → c.compareNames b d = .lt → c.compareNames a d = .lt) ∧
      (∀ a b, c.compareNames a b = .eq ↔ a = b) ∧
      ∀ a rest, rest ≠ "" → c.compareNames a (a ++ rest) = .lt) ∧
    (∀ a b : String,
      ordinal.compareNames a b = List.compareLex compare a.toUTF8.data.toList b.toUTF8.data.toList ∧
      ordinal.compareNames a b = List.compareLex compare (a.toList.map Char.toNat)
        (b.toList.map Char.toNat)) ∧
    ∀ a b : String,
      (folded a ≠ folded b →
        natural.compareNames a b = List.compareLex compare (folded a) (folded b)) ∧
      (folded a = folded b → a ≠ b → ∃ x y, DifferFirst a b x y ∧
        (Text.isLowercase x = true → Text.isLowercase y = false → natural.compareNames a b = .lt) ∧
        (Text.isLowercase x = false → Text.isLowercase y = true → natural.compareNames a b = .gt) ∧
        (Text.isLowercase x = Text.isLowercase y →
          natural.compareNames a b = compare x.toNat y.toNat)) := by
  refine ⟨fun c => ⟨fun _ _ => Std.OrientedCmp.eq_swap, fun _ _ _ => Std.TransCmp.lt_trans,
    c.compareNames_eq_iff, fun a _ => c.compareNames_append a⟩, fun a b => ⟨?_, ?_⟩, fun a b =>
    ⟨compareNames_of_folded_ne, fun h hne => ?_⟩⟩
  · rw [← Text.bytes_toList, ← Text.bytes_toList, Text.compareLex_bytes, compareNames]
  · rw [Text.compareLex_codePoints, compareNames]
  · obtain ⟨x, y, hdiffer⟩ := exists_differFirst h hne
    rw [compareNames_differFirst h hdiffer]
    exact ⟨x, y, hdiffer, compareCase_cases x y⟩

/-- The dotted capital is spelled with two characters in lower case, and comes after them. -/
theorem compareNames_orders_sample :
    folded "i̇s" = folded "İS" ∧ natural.compareNames "i̇s" "İS" = .lt ∧
    folded "İ" ≠ folded "in" ∧
      natural.compareNames "İ" "in" = List.compareLex compare (folded "İ") (folded "in") ∧
    natural.compareNames "run" ("run" ++ "_all") = .lt ∧
    ordinal.compareNames "Zed" "zed" = .lt ∧ ordinal.compareNames "zed" "é" = .lt ∧
      ordinal.compareNames "Zed" "é" = .lt := by
  obtain ⟨horders, _, hnatural⟩ := compareNames_orders
  have hsame : folded "i̇s" = folded "İS" := by decide +kernel
  have hother : folded "İ" ≠ folded "in" := by decide +kernel
  have hfirst : ordinal.compareNames "Zed" "zed" = .lt := by decide +kernel
  have hsecond : ordinal.compareNames "zed" "é" = .lt := by decide +kernel
  have htie : natural.compareNames "i̇s" "İS" = .lt := by
    obtain ⟨x, y, ⟨front, back, back', ha, hb, hxy⟩, hlower, _, _⟩ :=
      (hnatural "i̇s" "İS").2 hsame (by decide)
    cases front with
    | nil =>
      obtain ⟨rfl, _⟩ := List.cons_eq_cons.mp ha
      obtain ⟨rfl, _⟩ := List.cons_eq_cons.mp hb
      exact hlower (by decide +kernel) (by decide +kernel)
    | cons z front =>
      obtain ⟨rfl, _⟩ := List.cons_eq_cons.mp ha
      exact absurd (List.cons_eq_cons.mp hb).1 (by decide)
  exact ⟨hsame, htie, hother, (hnatural "İ" "in").1 hother,
    (horders natural).2.2.2 "run" "_all" (by decide), hfirst, hsecond,
    (horders ordinal).2.1 _ _ _ hfirst hsecond⟩

end Collation

end CalleeFirst
