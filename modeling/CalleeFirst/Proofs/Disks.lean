import CalleeFirst.Files.Disk
import Mathlib.Logic.Function.Basic

/-! What is seen of a disk.

At a place there is nothing, a directory, or a file with its content (`Entry.view`). A path is
followed by what is seen on its way and by nothing else (`glimpse_eq`). Writing a file changes
what is seen at the place of the file only (`view_write`), so the paths that lead to other files,
to directories or nowhere lead to what they led to (`glimpse_write_of_ne`). -/
namespace CalleeFirst.Files

/-! ### Entries -/

namespace Entry

/-- The content of a file; a directory has none. -/
def content? : Entry → Option ByteArray
  | file content => some content
  | directory _ => none

/-- What is at a place below: nothing, a directory, or a file with its content. -/
def view (e : Entry) (place : List String) : Option (Option ByteArray) := (e.at? place).map content?

theorem lookup_cons_eq (name first : String) (e : Entry) (rest : List (String × Entry)) :
    ((first, e) :: rest).lookup name = if name = first then some e else rest.lookup name := by
  by_cases h : name = first
  · simp [h]
  · rw [List.lookup_cons, beq_false_of_ne h, if_neg h]

/-- Replacing an entry changes what is found under its name. -/
theorem lookup_replaced (entries : List (String × Entry)) (name other : String) (new : Entry) :
    (entries.map fun old => if old.1 == name then (name, new) else old).lookup other =
      if other = name then (entries.lookup name).map fun _ => new else entries.lookup other := by
  induction entries with
  | nil => simp
  | cons entry rest ih =>
    obtain ⟨first, e⟩ := entry
    by_cases hfirst : first = name
    · subst hfirst
      rw [List.map_cons, if_pos (beq_self_eq_true first), lookup_cons_eq, lookup_cons_eq,
        lookup_cons_eq, ih]
      by_cases hother : other = first <;> simp [hother]
    · have hne : ¬ (first == name) = true := by simpa using hfirst
      rw [List.map_cons, if_neg hne, lookup_cons_eq, lookup_cons_eq, lookup_cons_eq, ih,
        if_neg (Ne.symm hfirst)]
      by_cases hother : other = name
      · rw [if_pos hother, if_pos hother, if_neg fun h => hfirst (h.symm.trans hother)]
      · rw [if_neg hother, if_neg hother]

theorem child?_putChild {e inner : Entry} {name : String} (h : e.child? name = some inner)
    (new : Entry) (other : String) :
    (e.putChild name new).child? other = if other = name then some new else e.child? other := by
  have hreplaced := lookup_replaced e.children name other new
  have hlookup : e.children.lookup name = some inner := h
  rw [hlookup, Option.map_some] at hreplaced
  rw [putChild, if_pos (Option.isSome_of_eq_some h)]
  exact hreplaced

theorem view_cons (e : Entry) (name : String) (rest : List String) :
    e.view (name :: rest) = (e.child? name).bind fun inner => inner.view rest := by
  rw [view, at?]
  cases e.child? name <;> rfl

/-- Where a file is replaced, nothing else is seen to change. -/
theorem view_put {e : Entry} {place : List String} {old : ByteArray}
    (h : e.view place = some (some old)) (new : ByteArray) :
    (e.put place (.file new)).view = Function.update e.view place (some (some new)) := by
  funext spot
  induction place generalizing e spot with
  | nil =>
    obtain ⟨content, rfl⟩ : ∃ content, e = file content := by
      cases e with
      | file content => exact ⟨content, rfl⟩
      | directory entries => cases h
    cases spot with
    | nil => rfl
    | cons name rest => rfl
  | cons name rest ih =>
    rw [view_cons, Option.bind_eq_some_iff] at h
    obtain ⟨inner, hinner, hview⟩ := h
    rw [put, hinner, Option.getD_some]
    cases spot with
    | nil =>
      rw [Function.update_of_ne (List.cons_ne_nil name rest).symm]
      cases e with
      | file content => cases hinner
      | directory entries =>
        rw [putChild]
        split <;> rfl
    | cons first others =>
      rw [view_cons, child?_putChild hinner]
      by_cases hfirst : first = name
      · subst hfirst
        rw [if_pos rfl, Option.bind_some, ih hview]
        by_cases hothers : others = rest
        · rw [hothers, Function.update_self, Function.update_self]
        · rw [Function.update_of_ne hothers, Function.update_of_ne (by simpa using hothers),
            view_cons, hinner, Option.bind_some]
      · rw [if_neg hfirst, Function.update_of_ne (by simp [hfirst]), view_cons]

end Entry

/-! ### Paths -/

/-- Follows the parts of a path by what is seen on the way. -/
def look (view : List String → Option (Option ByteArray)) (place : List String) :
    List String → Except AccessFault (Option ByteArray)
  | [] => (view place).elim (.error .missing) .ok
  | part :: rest =>
    match view place with
    | none => .error .missing
    | some (some _) => .error .notDirectory
    | some none => look view (Disk.onward place part) rest

section
variable {view : List String → Option (Option ByteArray)}

theorem view_of_look {place parts : List String} {content : ByteArray}
    (h : look view place parts = .ok (some content)) :
    view (parts.foldl Disk.onward place) = some (some content) := by
  induction parts generalizing place with
  | nil =>
    rw [look] at h
    cases hplace : view place with
    | none =>
      rw [hplace] at h
      cases h
    | some found =>
      rw [hplace] at h
      cases h
      exact hplace
  | cons part rest ih =>
    rw [look] at h
    split at h
    · cases h
    · cases h
    · exact ih h

variable {spot : List String} {old : ByteArray} (hspot : view spot = some (some old))
  (new : ByteArray)
include hspot

theorem look_update_of_ne {place parts : List String}
    (h : ∀ content, look view place parts = .ok (some content) →
      parts.foldl Disk.onward place ≠ spot) :
    look (Function.update view spot (some (some new))) place parts = look view place parts := by
  induction parts generalizing place with
  | nil =>
    have hne : place ≠ spot := by
      intro heq
      refine h old ?_ heq
      rw [look, heq, hspot]
      rfl
    rw [look, look, Function.update_of_ne hne]
  | cons part rest ih =>
    rw [look, look]
    by_cases hplace : place = spot
    · rw [hplace, Function.update_self, hspot]
    · rw [Function.update_of_ne hplace]
      cases hview : view place with
      | none => rfl
      | some found =>
        cases found with
        | some content => rfl
        | none =>
          refine ih fun content hcontent => h content ?_
          rw [look, hview]
          exact hcontent

theorem look_update_self {place parts : List String} {content : ByteArray}
    (h : look view place parts = .ok (some content))
    (hplace : parts.foldl Disk.onward place = spot) :
    look (Function.update view spot (some (some new))) place parts = .ok (some new) := by
  induction parts generalizing place with
  | nil =>
    obtain rfl : place = spot := hplace
    rw [look, Function.update_self]
    rfl
  | cons part rest ih =>
    rw [look] at h
    split at h
    · cases h
    · cases h
    · next hdirectory =>
      have hne : place ≠ spot := by
        intro heq
        rw [heq, hspot] at hdirectory
        cases hdirectory
      rw [look, Function.update_of_ne hne, hdirectory]
      exact ih h hplace

end

namespace Disk
variable (d : Disk)

/-- What a path leads to: a directory, or a file with its content. -/
def glimpse (p : Path) : Except AccessFault (Option ByteArray) := (d.entry p).map Entry.content?

/-- A path leads to a file. -/
def LeadsToFile (p : Path) : Prop := ∃ content, d.glimpse p = .ok (some content)

theorem follow_eq (place parts : List String) :
    (d.follow place parts).map Entry.content? = look d.root.view place parts := by
  induction parts generalizing place with
  | nil =>
    rw [follow, look, Entry.view]
    cases d.root.at? place <;> rfl
  | cons part rest ih =>
    rw [follow, look, Entry.view]
    cases hplace : d.root.at? place with
    | none => rfl
    | some e =>
      cases e with
      | file content => rfl
      | directory entries => exact ih _

theorem glimpse_eq (p : Path) :
    d.glimpse p = if p.text = "" then .error .missing else look d.root.view (d.route p).1
      (d.route p).2 := by
  rw [glimpse, entry]
  split
  · rfl
  · exact follow_eq d ..

theorem location_eq (p : Path) : d.location p = (d.route p).2.foldl onward (d.route p).1 := rfl

theorem view_of_glimpse {d : Disk} {p : Path} {content : ByteArray}
    (h : d.glimpse p = .ok (some content)) :
    d.root.view (d.location p) = some (some content) := by
  rw [glimpse_eq] at h
  split at h
  · cases h
  · exact view_of_look h

theorem location_of_here {d e : Disk} (h : e.here = d.here) (p : Path) :
    e.location p = d.location p := by
  rw [location_eq, location_eq, route, route, h]

/-! ### Reading and writing -/

/-- The text of what a path leads to. -/
def decode : Option ByteArray → Except AccessFault String
  | none => .error .isDirectory
  | some content => (String.fromUTF8? content).elim (.error .notText) .ok

theorem decode_eq_ok_iff {found : Option ByteArray} {text : String} :
    decode found = .ok text ↔ found = some text.toUTF8 := by
  cases found with
  | none => exact ⟨nofun, nofun⟩
  | some content =>
    rw [decode, String.fromUTF8?, Option.some.injEq]
    constructor
    · intro h
      split at h
      · cases h
        rfl
      · cases h
    · intro h
      subst h
      rw [dif_pos (show text.toUTF8.IsValidUTF8 from text.isValidUTF8)]
      rfl

theorem read_eq (p : Path) : d.read p = (d.glimpse p).bind decode := by
  rw [read, glimpse]
  rcases d.entry p with _ | _ | _ <;> rfl

theorem read_eq_ok_iff {d : Disk} {p : Path} {text : String} :
    d.read p = .ok text ↔ d.glimpse p = .ok (some text.toUTF8) := by
  rw [read_eq]
  cases d.glimpse p with
  | error fault => exact ⟨nofun, nofun⟩
  | ok found => rw [Except.bind, decode_eq_ok_iff, Except.ok.injEq]

theorem leadsToFile_of_read {d : Disk} {p : Path} {text : String} (h : d.read p = .ok text) :
    d.LeadsToFile p :=
  ⟨_, read_eq_ok_iff.mp h⟩

section
variable {d : Disk} {q : Path} (hq : d.LeadsToFile q) (text : String)
include hq

/-- Writing a file changes what is seen at its place. -/
theorem view_write :
    (d.write q text).root.view = Function.update d.root.view (d.location q)
      (some (some text.toUTF8)) := by
  obtain ⟨content, hcontent⟩ := hq
  exact Entry.view_put (view_of_glimpse hcontent) _

theorem glimpse_write_of_ne {p : Path} (h : d.LeadsToFile p → d.location p ≠ d.location q) :
    (d.write q text).glimpse p = d.glimpse p := by
  have hwrite := view_write hq text
  obtain ⟨_, hcontent⟩ := hq
  rw [glimpse_eq, glimpse_eq, hwrite]
  split
  · rfl
  · next hp =>
    refine look_update_of_ne (view_of_glimpse hcontent) _ fun content hcontent => h ⟨content, ?_⟩
    rw [glimpse_eq, if_neg hp]
    exact hcontent

theorem glimpse_write_self : (d.write q text).glimpse q = .ok (some text.toUTF8) := by
  have hwrite := view_write hq text
  obtain ⟨_, hcontent⟩ := hq
  have hview := view_of_glimpse hcontent
  rw [glimpse_eq] at hcontent ⊢
  split at hcontent
  · cases hcontent
  · next hp =>
    rw [if_neg hp, hwrite]
    exact look_update_self hview _ hcontent rfl

end

/-- Disks that differ in the file that a path leads to, and only if it was touched. -/
structure OnlyAt (touched : Prop) (p : Path) (d e : Disk) : Prop where
  here : e.here = d.here
  view : ∀ place, (touched → d.location p ≠ place) → e.root.view place = d.root.view place
  glimpse : ∀ q, (touched → d.LeadsToFile q → d.location p ≠ d.location q) →
    e.glimpse q = d.glimpse q

theorem OnlyAt.refl (touched : Prop) (p : Path) (d : Disk) : OnlyAt touched p d d :=
  ⟨rfl, fun _ _ => rfl, fun _ _ => rfl⟩

theorem OnlyAt.write {touched : Prop} {d : Disk} {p : Path} (htouched : touched)
    (hp : d.LeadsToFile p) (text : String) : OnlyAt touched p d (d.write p text) where
  here := rfl
  view place hplace := by rw [view_write hp, Function.update_of_ne (hplace htouched).symm]
  glimpse _ hq := glimpse_write_of_ne hp text fun hleads => (hq htouched hleads).symm

end Disk

end CalleeFirst.Files
