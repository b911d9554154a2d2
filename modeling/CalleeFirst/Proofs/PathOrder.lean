import CalleeFirst.Files.Path
import CalleeFirst.Proofs.Comparison

/-! Paths by their components.

Paths are compared as lists of components, the first difference deciding (`Path.compare_eq`), so the
comparison is a total order in which only paths with the same components are equal
(`Path.compare_eq_eq_iff`). A name put behind a path adds one component, however the path is
written (`Path.components_extend`). -/
namespace CalleeFirst.Files

/-! ### The order -/

namespace Component

instance : Std.TransCmp Component.compare :=
  inferInstanceAs (Std.TransCmp (compareLex (compareOn kindRank) (compareOn text)))

theorem eq_of_kindRank_text {a b : Component} (hkind : a.kindRank = b.kindRank)
    (htext : a.text = b.text) :
    a = b := by
  cases a <;> cases b <;> simp_all [kindRank, text]

instance : Std.LawfulEqCmp Component.compare where
  eq_of_compare {a b} h := by
    obtain ⟨hkind, htext⟩ := Ordering.then_eq_eq.mp h
    exact eq_of_kindRank_text (Std.LawfulEqCmp.eq_of_compare hkind)
      (Std.LawfulEqCmp.eq_of_compare htext)

end Component

namespace Path

theorem compareComponents_eq (as bs : List Component) :
    compare.compareComponents as bs = List.compareLex Component.compare as bs := by
  induction as generalizing bs with
  | nil => cases bs <;> rfl
  | cons a as ih =>
    cases bs with
    | nil => rfl
    | cons b bs => rw [compare.compareComponents, List.compareLex_cons_cons, ih]

theorem compare_eq (p q : Path) :
    p.compare q = List.compareLex Component.compare p.components q.components :=
  compareComponents_eq ..

instance : Std.TransCmp Path.compare := by
  have hcomponents := transCmp_on (List.compareLex Component.compare) components
  have heq : Path.compare = fun p q => List.compareLex Component.compare p.components
      q.components := by
    funext p q
    exact compare_eq p q
  rw [heq]
  exact hcomponents

theorem compare_eq_eq_iff {p q : Path} : p.compare q = .eq ↔ p.components = q.components := by
  rw [compare_eq, Std.LawfulEqCmp.compare_eq_iff_eq]

theorem same_iff {p q : Path} : p.same q = true ↔ p.components = q.components := beq_iff_eq

/-- Paths that come in order and are not the same come in strict order. -/
theorem compare_eq_lt {p q : Path} (h : p.compare q ≠ .gt) (hne : p.components ≠ q.components) :
    p.compare q = .lt := by
  cases hcompare : p.compare q with
  | lt => rfl
  | eq => exact absurd (compare_eq_eq_iff.mp hcompare) hne
  | gt => exact absurd hcompare h

/-! ### Names behind a path -/

/-- What a file or a directory may be called. -/
def IsName (name : String) : Prop := name ≠ "" ∧ name ≠ "." ∧ name ≠ ".." ∧ '/' ∉ name.toList

instance (name : String) : Decidable (IsName name) :=
  inferInstanceAs (Decidable (_ ∧ _ ∧ _ ∧ _))

/-- The path of what is found below a directory by a list of names. -/
def extend (p : Path) (names : List String) : Path := names.foldl child p

theorem splitAtSlashes_ne_nil (text : List Char) : splitAtSlashes text ≠ [] := by
  fun_induction splitAtSlashes text <;> simp_all

theorem splitAtSlashes_append (a b : List Char) :
    splitAtSlashes (a ++ '/' :: b) = splitAtSlashes a ++ splitAtSlashes b := by
  fun_induction splitAtSlashes a with
  | case1 => rfl
  | case2 rest ih => rw [List.cons_append, splitAtSlashes, ih, List.cons_append]
  | case3 c rest hc first others hrest ih =>
    rw [List.cons_append, splitAtSlashes, ih, hrest]
    · rfl
    · exact hc
  | case4 c rest hc hrest ih => exact absurd hrest (splitAtSlashes_ne_nil rest)

theorem splitAtSlashes_of_not_mem {text : List Char} (h : '/' ∉ text) :
    splitAtSlashes text = [text] := by
  induction text with
  | nil => rfl
  | cons c rest ih =>
    rw [List.mem_cons, not_or] at h
    rw [splitAtSlashes, ih h.2]
    exact fun hc => h.1 hc.symm

theorem laterComponent?_of_isName {name : String} (h : IsName name) :
    laterComponent? name = some (.name name) := by
  obtain ⟨hempty, hdot, hdots, _⟩ := h
  simp [laterComponent?, hempty, hdot, hdots]

/-- The components of parts, of which the first is the start of the path. -/
theorem components_eq {p : Path} {first : String} {rest : List String}
    (h : p.parts = first :: rest) :
    p.components = (if p.isAbsolute then [.root] else if first = "." then [.here]
      else (laterComponent? first).toList) ++ rest.filterMap laterComponent? := by
  rw [components, h]

/-- The parts of a path and of a child of it, up to a slash at the end of the path. -/
theorem exists_parts {p : Path} {name : String} (hp : p.text ≠ "") (hname : IsName name) :
    ∃ first rest, (p.parts = first :: rest ∨ p.parts = first :: (rest ++ [""])) ∧
      (p.child name).parts = first :: (rest ++ [name]) ∧
        (p.child name).isAbsolute = p.isAbsolute := by
  have hlast := splitAtSlashes_of_not_mem hname.2.2.2
  have hne : p.text.toList ≠ [] := by simpa using hp
  have hhead : ∀ text : String, text.toList = p.text.toList ++ name.toList ∨
      text.toList = p.text.toList ++ '/' :: name.toList →
        Path.isAbsolute ⟨text⟩ = p.isAbsolute := by
    intro text htext
    obtain ⟨c, others, hc⟩ := List.exists_cons_of_ne_nil hne
    rcases htext with htext | htext <;> rw [isAbsolute, isAbsolute, htext, hc] <;> rfl
  by_cases hslash : p.text.toList.getLast? = some '/'
  · have hchild : p.child name = ⟨p.text ++ name⟩ := by simp [child, hslash]
    obtain ⟨front, hfront⟩ : ∃ front, p.text.toList = front ++ ['/'] :=
      List.getLast?_eq_some_iff.mp hslash
    obtain ⟨first, rest, hsplit⟩ := List.exists_cons_of_ne_nil (splitAtSlashes_ne_nil front)
    refine ⟨String.ofList first, rest.map String.ofList, .inr ?_, ?_, ?_⟩
    · rw [parts, hfront, splitAtSlashes_append, hsplit]
      simp [splitAtSlashes]
    · rw [hchild, parts, String.toList_append, hfront, List.append_assoc, List.singleton_append,
        splitAtSlashes_append, hsplit, hlast, List.map_append]
      simp
    · rw [hchild]
      exact hhead _ (.inl (String.toList_append ..))
  · have hchild : p.child name = ⟨p.text ++ "/" ++ name⟩ := by simp [child, hslash, hp]
    obtain ⟨first, rest, hsplit⟩ := List.exists_cons_of_ne_nil (splitAtSlashes_ne_nil p.text.toList)
    have htext : (p.text ++ "/" ++ name).toList = p.text.toList ++ '/' :: name.toList := by simp
    refine ⟨String.ofList first, rest.map String.ofList, .inl ?_, ?_, ?_⟩
    · rw [parts, hsplit]
      rfl
    · rw [hchild, parts, htext, splitAtSlashes_append, hsplit, hlast, List.map_append]
      simp
    · rw [hchild]
      exact hhead _ (.inr htext)

theorem components_child {p : Path} {name : String} (hp : p.text ≠ "") (hname : IsName name) :
    (p.child name).components = p.components ++ [.name name] := by
  obtain ⟨first, rest, hparts, hchild, habsolute⟩ := exists_parts hp hname
  have hlater : (p.child name).components =
    (if p.isAbsolute then [.root] else if first = "." then [.here]
      else (laterComponent? first).toList) ++ rest.filterMap laterComponent? ++ [.name name] := by
    rw [components_eq hchild, habsolute, List.filterMap_append, List.append_assoc]
    simp [laterComponent?_of_isName hname]
  rw [hlater]
  rcases hparts with hparts | hparts
  · rw [components_eq hparts]
  · have hempty : ([""] : List String).filterMap laterComponent? = [] := rfl
    rw [components_eq hparts, List.filterMap_append, hempty, List.append_nil]

theorem child_text_ne {p : Path} (hp : p.text ≠ "") (name : String) : (p.child name).text ≠ "" := by
  rw [child]
  split <;> simp [hp]

theorem components_extend {p : Path} {names : List String} (hp : p.text ≠ "")
    (hnames : ∀ n ∈ names, IsName n) :
    (p.extend names).components = p.components ++ names.map .name := by
  induction names generalizing p with
  | nil => simp [extend]
  | cons name names ih =>
    obtain ⟨hname, hrest⟩ := List.forall_mem_cons.mp hnames
    have hlater := ih (child_text_ne hp name) hrest
    rw [components_child hp hname] at hlater
    rw [extend, List.foldl_cons, List.map_cons, ← List.singleton_append, ← List.append_assoc]
    exact hlater

end Path

end CalleeFirst.Files
