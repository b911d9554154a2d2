import CalleeFirst.Command.Batch
import CalleeFirst.Proofs.Disks
import Mathlib.Data.List.Forall2

/-! Files ordered side by side.

A file is examined in one step and written in another, and the files of a batch take their steps in
any order. A schedule names the file that takes the next step (`Sorting.along`); one file after the
other is one schedule among them (`along_inOrder`).

Every step keeps what is known about the work on each path (`Underway.step`): what an examination
finds is what it would have found at first, since only the path itself leads to the file that is
written for it. So the schedule does not matter.

`interleaving_sorts`: whatever the schedule, every file that can be ordered ends up ordered, all
else stays as it was, and the batch fails if a file failed. -/
namespace CalleeFirst.Command

open Files (AccessFault Disk Path)

/-! ### Schedules -/

/-- The work on a file. -/
inductive Task where
  | waiting (path : Path)
  | examined (e : Examination)
  | finished (result : Except FileFault FileReport)

namespace Task

def advance (options : Options) (write : Bool) (d : Disk) : Task → Task × Disk
  | waiting path =>
    match examine d options path with
    | .error fault => (finished (.error fault), d)
    | .ok e => (examined e, d)
  | examined e => (finished (.ok (e.report write)), if write then store d e else d)
  | finished result => (finished result, d)

def result? : Task → Option (Except FileFault FileReport)
  | finished result => some result
  | _ => none

/-- How many steps were taken. -/
def rank : Task → Nat
  | waiting _ => 0
  | examined _ => 1
  | finished _ => 2

end Task

/-- The work on a batch of files. -/
structure Sorting where
  disk : Disk
  tasks : List Task

namespace Sorting

def start (d : Disk) (paths : List Path) : Sorting := ⟨d, paths.map .waiting⟩

/-- One step of the task at place `i`. -/
def step (options : Options) (write : Bool) (s : Sorting) (i : Nat) : Sorting :=
  match s.tasks[i]? with
  | none => s
  | some task =>
    let (task, disk) := task.advance options write s.disk
    { disk, tasks := s.tasks.set i task }

def along (options : Options) (write : Bool) (s : Sorting) (schedule : List Nat) : Sorting :=
  schedule.foldl (step options write) s

def results (s : Sorting) : List (Except FileFault FileReport) := s.tasks.filterMap Task.result?

/-- How the batch went, if all of its files are finished. -/
def outcome (s : Sorting) : BatchResult where
  disk := s.disk
  reports := reportsOf s.results
  faults := faultsOf s.results

end Sorting

/-! ### Examinations -/

/-- A text in which no block changes is returned as it is. -/
theorem text_of_unchanged {options : Options} {probe : Probe} {source : List Char}
    {r : Source.Reordered} (h : (Source.reorder options probe source).1 = .ok r)
    (hchanged : r.changed = false) : r.text = source := by
  have htext : r.text = Source.applyEdits source r.edits := by
    rw [Source.reorder] at h
    split at h
    · cases h
    · split at h
      · cases h
      · cases h
        rfl
  have hedits : r.edits = [] := by simpa [Source.Reordered.changed] using hchanged
  rw [htext, hedits]
  rfl

section
variable {d : Disk} {options : Options} {p : Path}

theorem examine_eq_ok_iff {e : Examination} : examine d options p = .ok e ↔ ∃ text r,
    d.read p = .ok text ∧ (Source.reorder options .never text.toList).1 = .ok r ∧
      e = { path := p, changed := r.changed, blocks := r.blocks, text :=
    String.ofList r.text } := by
  rw [examine]
  cases hread : d.read p with
  | error fault => simp
  | ok text =>
    cases hreorder : (Source.reorder options .never text.toList).1 with
    | error fault => simp [hreorder]
    | ok r => simp [hreorder, eq_comm]

/-- A path leads to a text that can be ordered. -/
def Sortable (options : Options) (d : Disk) (p : Path) : Prop :=
  ∃ text r, d.read p = .ok text ∧ (Source.reorder options .never text.toList).1 = .ok r

theorem sortable_iff : Sortable options d p ↔ ∃ e, examine d options p = .ok e := by
  simp only [examine_eq_ok_iff]
  constructor
  · intro ⟨text, r, hread, hreorder⟩
    exact ⟨_, text, r, hread, hreorder, rfl⟩
  · intro ⟨_, text, r, hread, hreorder, _⟩
    exact ⟨text, r, hread, hreorder⟩

instance (options : Options) (d : Disk) (p : Path) : Decidable (Sortable options d p) :=
  decidable_of_iff ((examine d options p).isOk = true) <| by
    rw [sortable_iff]
    cases examine d options p <;> simp [Except.isOk, Except.toBool]

/-- An examination sees nothing but what the path leads to. -/
theorem examine_of_glimpse {now : Disk} (h : now.glimpse p = d.glimpse p) :
    examine now options p = examine d options p := by
  have hread : now.read p = d.read p := by rw [Disk.read_eq, Disk.read_eq, h]
  rw [examine, examine, hread]

theorem Sortable.leadsToFile (h : Sortable options d p) : d.LeadsToFile p := by
  obtain ⟨_, _, hread, _⟩ := h
  exact Disk.leadsToFile_of_read hread

/-- A file that need not change holds its text already. -/
theorem glimpse_of_unchanged {e : Examination} (h : examine d options p = .ok e)
    (hchanged : e.changed = false) : d.glimpse p = .ok (some e.text.toUTF8) := by
  obtain ⟨text, r, hread, hreorder, rfl⟩ := examine_eq_ok_iff.mp h
  rw [text_of_unchanged hreorder hchanged, String.ofList_toList]
  exact Disk.read_eq_ok_iff.mp hread

/-- The report of a file is made from its examination. -/
theorem sortFile_fst (options : Options) (write : Bool) (d : Disk) (p : Path) :
    (sortFile options write d p).1 = (examine d options p).map (Examination.report write) := by
  rw [sortFile]
  cases examine d options p <;> rfl

end

/-! ### Every step -/

/-- What is known about the work on a path, if the disk was `before` at first and is `now`. -/
inductive Stands (options : Options) (write : Bool) (before now : Disk) (p : Path) :
    Task → Prop where
  | waiting (same : now.glimpse p = before.glimpse p) :
      Stands options write before now p (.waiting p)
  | examined {e : Examination} (found : examine before options p = .ok e)
      (same : now.glimpse p = before.glimpse p) : Stands options write before now p (.examined e)
  | failed {fault : FileFault} (found : examine before options p = .error fault)
      (same : now.glimpse p = before.glimpse p) :
      Stands options write before now p (.finished (.error fault))
  | sorted {e : Examination} (found : examine before options p = .ok e)
      (holds : now.glimpse p = if write then .ok (some e.text.toUTF8) else before.glimpse p) :
      Stands options write before now p (.finished (.ok (e.report write)))

section
variable {options : Options} {write : Bool} {before now : Disk} {p : Path} {task : Task}

theorem Stands.leadsToFile (h : Stands options write before now p task) (hp : now.LeadsToFile p) :
    before.LeadsToFile p := by
  cases h with
  | waiting same => rwa [Disk.LeadsToFile, ← same]
  | examined found _ => exact (sortable_iff.mpr ⟨_, found⟩).leadsToFile
  | failed _ same => rwa [Disk.LeadsToFile, ← same]
  | sorted found _ => exact (sortable_iff.mpr ⟨_, found⟩).leadsToFile

theorem Stands.congr {later : Disk} (h : Stands options write before now p task)
    (hsame : later.glimpse p = now.glimpse p) : Stands options write before later p task := by
  cases h with
  | waiting same => exact .waiting (hsame.trans same)
  | examined found same => exact .examined found (hsame.trans same)
  | failed found same => exact .failed found (hsame.trans same)
  | sorted found holds => exact .sorted found (hsame.trans holds)

theorem Stands.glimpse_of_ok {result : Except FileFault FileReport} {e : Examination}
    (h : Stands options write before now p (.finished result))
    (hfound : examine before options p = .ok e) :
    now.glimpse p = if write then .ok (some e.text.toUTF8) else before.glimpse p := by
  cases h with
  | failed found _ => cases found.symm.trans hfound
  | sorted found holds =>
    cases found.symm.trans hfound
    exact holds

theorem Stands.glimpse_of_error {result : Except FileFault FileReport} {fault : FileFault}
    (h : Stands options write before now p (.finished result))
    (hfound : examine before options p = .error fault) : now.glimpse p = before.glimpse p := by
  cases h with
  | failed _ same => exact same
  | sorted found _ => cases found.symm.trans hfound

/-- One step of the work on a path touches what the path leads to and nothing else. -/
theorem Stands.advance (h : Stands options write before now p task) :
    Stands options write before (task.advance options write now).2 p
        (task.advance options write now).1 ∧
      Disk.OnlyAt (Sortable options before p) p now (task.advance options write now).2 := by
  cases h with
  | waiting same =>
    rw [Task.advance, examine_of_glimpse same]
    cases hexamine : examine before options p with
    | error fault => exact ⟨.failed hexamine same, .refl _ p now⟩
    | ok e => exact ⟨.examined hexamine same, .refl _ p now⟩
  | @examined e found same =>
    have hpath : e.path = p := by
      obtain ⟨_, _, _, _, rfl⟩ := examine_eq_ok_iff.mp found
      rfl
    have hleads : now.LeadsToFile p := by
      rw [Disk.LeadsToFile, same]
      exact (sortable_iff.mpr ⟨_, found⟩).leadsToFile
    cases write with
    | false => exact ⟨.sorted found same, .refl _ p now⟩
    | true =>
      cases hchanged : e.changed with
      | false =>
        have hstore : store now e = now := by rw [store, hchanged]; rfl
        rw [Task.advance, if_pos rfl, hstore]
        exact ⟨.sorted found (same.trans (glimpse_of_unchanged found hchanged)), .refl _ p now⟩
      | true =>
        have hstore : store now e = now.write p e.text := by rw [store, hchanged, hpath]; rfl
        rw [Task.advance, if_pos rfl, hstore]
        exact ⟨.sorted found (Disk.glimpse_write_self hleads _),
          .write (sortable_iff.mpr ⟨_, found⟩) hleads _⟩
  | failed found same => exact ⟨.failed found same, .refl _ p now⟩
  | sorted found holds => exact ⟨.sorted found holds, .refl _ p now⟩

end

/-- The paths that lead to files lead to different ones. -/
def NamesApart (d : Disk) (paths : List Path) : Prop :=
  paths.Pairwise fun p q => d.LeadsToFile p → d.LeadsToFile q → d.location p ≠ d.location q

theorem NamesApart.ne {d : Disk} {paths : List Path} (h : NamesApart d paths) {i j : Nat}
    {p q : Path} (hi : paths[i]? = some p) (hj : paths[j]? = some q) (hij : i ≠ j)
    (hp : d.LeadsToFile p) (hq : d.LeadsToFile q) : d.location p ≠ d.location q := by
  obtain ⟨hilt, rfl⟩ := List.getElem?_eq_some_iff.mp hi
  obtain ⟨hjlt, rfl⟩ := List.getElem?_eq_some_iff.mp hj
  rcases Nat.lt_or_gt_of_ne hij with hlt | hgt
  · exact List.pairwise_iff_getElem.mp h i j hilt hjlt hlt hp hq
  · exact (List.pairwise_iff_getElem.mp h j i hjlt hilt hgt hq hp).symm

/-- What is known about the work on a batch that started from `before`. -/
structure Underway (options : Options) (write : Bool) (before : Disk) (paths : List Path)
    (s : Sorting) : Prop where
  here : s.disk.here = before.here
  others : ∀ place, (∀ p ∈ paths, Sortable options before p → before.location p ≠ place) →
    s.disk.root.view place = before.root.view place
  length : s.tasks.length = paths.length
  each : ∀ (i : Nat) (p : Path) (task : Task), paths[i]? = some p → s.tasks[i]? = some task →
    Stands options write before s.disk p task

namespace Underway
variable {options : Options} {write : Bool} {before : Disk} {paths : List Path} {s : Sorting}

theorem start (options : Options) (write : Bool) (before : Disk) (paths : List Path) :
    Underway options write before paths (.start before paths) where
  here := rfl
  others _ _ := rfl
  length := List.length_map ..
  each i p task hp htask := by
    rw [Sorting.start, List.getElem?_map, hp] at htask
    cases htask
    exact .waiting rfl

theorem step (hapart : NamesApart before paths) (h : Underway options write before paths s)
    (i : Nat) : Underway options write before paths (s.step options write i) := by
  rw [Sorting.step]
  cases htask : s.tasks[i]? with
  | none => exact h
  | some task =>
    obtain ⟨hi, _⟩ := List.getElem?_eq_some_iff.mp htask
    obtain ⟨p, hp⟩ : ∃ p, paths[i]? = some p := ⟨_, List.getElem?_eq_getElem (h.length ▸ hi)⟩
    have hbefore := h.each i p task hp htask
    obtain ⟨hstands, honly⟩ := hbefore.advance
    refine ⟨honly.here.trans h.here, fun place hplace => ?_, by rw [List.length_set, h.length], ?_⟩
    · refine (honly.view place ?_).trans (h.others place hplace)
      rw [Disk.location_of_here h.here]
      exact hplace p (List.mem_of_getElem? hp)
    · intro j q other hq hother
      by_cases hij : i = j
      · subst hij
        rw [List.getElem?_set_self hi] at hother
        cases hother
        cases hp.symm.trans hq
        exact hstands
      · rw [List.getElem?_set_ne hij] at hother
        have hstays := h.each j q other hq hother
        refine hstays.congr (honly.glimpse q fun hsortable hleads => ?_)
        rw [Disk.location_of_here h.here, Disk.location_of_here h.here]
        exact hapart.ne hp hq hij hsortable.leadsToFile (hstays.leadsToFile hleads)

theorem along (hapart : NamesApart before paths) (h : Underway options write before paths s)
    (schedule : List Nat) : Underway options write before paths
      (s.along options write schedule) := by
  induction schedule generalizing s with
  | nil => exact h
  | cons i rest ih => exact ih (h.step hapart i)

end Underway

/-! ### Complete schedules -/

/-- Every file has its two steps. -/
def Complete (count : Nat) (schedule : List Nat) : Prop := ∀ i < count, 2 ≤ schedule.count i

theorem Task.rank_advance (options : Options) (write : Bool) (d : Disk) (task : Task) :
    min 2 (task.rank + 1) ≤ (task.advance options write d).1.rank := by
  cases task with
  | waiting path =>
    rw [advance]
    split <;> simp [rank]
  | examined e => exact Nat.le_refl 2
  | finished result => exact Nat.le_refl 2

namespace Sorting
variable (options : Options) (write : Bool)

theorem step_of_some {s : Sorting} {i : Nat} {task : Task} (h : s.tasks[i]? = some task) :
    s.step options write i =
      ⟨(task.advance options write s.disk).2,
        s.tasks.set i (task.advance options write s.disk).1⟩ := by
  rw [step, h]

theorem step_of_none {s : Sorting} {i : Nat} (h : s.tasks[i]? = none) :
    s.step options write i = s := by
  rw [step, h]

theorem getElem?_step (s : Sorting) (i j : Nat) :
    (s.step options write i).tasks[j]? =
      if i = j then s.tasks[j]?.map fun task => (task.advance options write s.disk).1
      else s.tasks[j]? := by
  cases htask : s.tasks[i]? with
  | none =>
    rw [step_of_none options write htask]
    by_cases hij : i = j
    · rw [if_pos hij, ← hij, htask, Option.map_none]
    · rw [if_neg hij]
  | some task =>
    obtain ⟨hi, _⟩ := List.getElem?_eq_some_iff.mp htask
    rw [step_of_some options write htask]
    by_cases hij : i = j
    · rw [if_pos hij, ← hij, htask, Option.map_some, List.getElem?_set_self hi]
    · rw [if_neg hij, List.getElem?_set_ne hij]

theorem rank_along {s : Sorting} {i : Nat} {task : Task} (htask : s.tasks[i]? = some task)
    (schedule : List Nat) : ∃ later, (s.along options write schedule).tasks[i]? = some later ∧
      min 2 (task.rank + schedule.count i) ≤ later.rank := by
  induction schedule generalizing s task with
  | nil => exact ⟨task, htask, Nat.min_le_right ..⟩
  | cons j rest ih =>
    have hstep := s.getElem?_step options write j i
    rw [htask] at hstep
    by_cases hij : j = i
    · rw [if_pos hij, Option.map_some] at hstep
      obtain ⟨later, hlater, hrank⟩ := ih hstep
      have hadvance := task.rank_advance options write s.disk
      refine ⟨later, hlater, ?_⟩
      rw [hij, List.count_cons_self]
      omega
    · rw [if_neg hij] at hstep
      obtain ⟨later, hlater, hrank⟩ := ih hstep
      exact ⟨later, hlater, by rwa [List.count_cons_of_ne hij]⟩

end Sorting

section
variable (options : Options) (write : Bool) {d : Disk} {paths : List Path}
  (hapart : NamesApart d paths) {schedule : List Nat} (hschedule : Complete paths.length schedule)
include hapart hschedule

/-- In the end every file has the result that it would have had at first. -/
theorem tasks_along :
    ((Sorting.start d paths).along options write schedule).tasks =
      paths.map fun p => .finished (sortFile options write d p).1 := by
  have hunderway := (Underway.start options write d paths).along hapart schedule
  refine List.ext_getElem? fun i => ?_
  rw [List.getElem?_map]
  cases hp : paths[i]? with
  | none =>
    rw [List.getElem?_eq_none_iff] at hp
    rw [Option.map_none, List.getElem?_eq_none_iff, hunderway.length]
    exact hp
  | some p =>
    have hwaiting : (Sorting.start d paths).tasks[i]? = some (.waiting p) := by
      rw [Sorting.start, List.getElem?_map, hp, Option.map_some]
    obtain ⟨task, htask, hrank⟩ := Sorting.rank_along options write hwaiting schedule
    have htwice := hschedule i (List.getElem?_eq_some_iff.mp hp).1
    rw [htask, Option.map_some, Option.some.injEq]
    cases hunderway.each i p task hp htask with
    | waiting _ => exact absurd hrank (by simp only [Task.rank]; omega)
    | examined _ _ => exact absurd hrank (by simp only [Task.rank]; omega)
    | failed found _ => rw [sortFile_fst, found, Except.map]
    | sorted found _ => rw [sortFile_fst, found, Except.map]

theorem results_along :
    ((Sorting.start d paths).along options write schedule).results =
      paths.map fun p => (sortFile options write d p).1 := by
  rw [Sorting.results, tasks_along options write hapart hschedule, List.filterMap_map,
    ← List.filterMap_eq_map]
  rfl

theorem stands_along {p : Path} (hp : p ∈ paths) :
    Stands options write d ((Sorting.start d paths).along options write schedule).disk p
      (.finished (sortFile options write d p).1) := by
  obtain ⟨i, hi⟩ := List.getElem?_of_mem hp
  refine ((Underway.start options write d paths).along hapart schedule).each i p _ hi ?_
  rw [tasks_along options write hapart hschedule, List.getElem?_map, hi, Option.map_some]

end

/-! ### The disk in the end -/

/-- Every file that can be ordered is, and all else is as it was. -/
structure Sorted (options : Options) (paths : List Path) (before after : Disk) : Prop where
  here : after.here = before.here
  sorted : ∀ p ∈ paths, ∀ text r, before.read p = .ok text →
    (Source.reorder options .never text.toList).1 = .ok r →
      after.read p = .ok (String.ofList r.text)
  failed : ∀ p ∈ paths, ¬ Sortable options before p → after.glimpse p = before.glimpse p
  others : ∀ place, (∀ p ∈ paths, Sortable options before p → before.location p ≠ place) →
    after.root.view place = before.root.view place

theorem sorted_along (options : Options) {d : Disk} {paths : List Path}
    (hapart : NamesApart d paths) {schedule : List Nat}
    (hschedule : Complete paths.length schedule) :
    Sorted options paths d ((Sorting.start d paths).along options true schedule).disk := by
  have hunderway := (Underway.start options true d paths).along hapart schedule
  refine ⟨hunderway.here, fun p hp text r hread hreorder => ?_, fun p hp hfailed => ?_,
    hunderway.others⟩
  · have hstands := stands_along options true hapart hschedule hp
    have hfound := examine_eq_ok_iff.mpr ⟨text, r, hread, hreorder, rfl⟩
    exact Disk.read_eq_ok_iff.mpr (hstands.glimpse_of_ok hfound)
  · have hstands := stands_along options true hapart hschedule hp
    cases hexamine : examine d options p with
    | ok e => exact absurd (sortable_iff.mpr ⟨e, hexamine⟩) hfailed
    | error fault => exact hstands.glimpse_of_error hexamine

/-- There is one such disk, as far as can be seen. -/
theorem Sorted.view_eq {options : Options} {paths : List Path} {before after other : Disk}
    (h : Sorted options paths before after) (hother : Sorted options paths before other) :
    after.root.view = other.root.view := by
  funext place
  by_cases hplace : ∃ p ∈ paths, Sortable options before p ∧ before.location p = place
  · obtain ⟨p, hp, ⟨text, r, hread, hreorder⟩, rfl⟩ := hplace
    have hglimpse := Disk.read_eq_ok_iff.mp (h.sorted p hp text r hread hreorder)
    have hglimpse' := Disk.read_eq_ok_iff.mp (hother.sorted p hp text r hread hreorder)
    have hview := Disk.view_of_glimpse hglimpse
    have hview' := Disk.view_of_glimpse hglimpse'
    rw [Disk.location_of_here h.here] at hview
    rw [Disk.location_of_here hother.here] at hview'
    rw [hview, hview']
  · have hnone : ∀ p ∈ paths, Sortable options before p → before.location p ≠ place :=
      fun p hp hsortable hlocation => hplace ⟨p, hp, hsortable, hlocation⟩
    rw [h.others place hnone, hother.others place hnone]

/-! ### One file after the other -/

/-- The schedule in which every file is finished before the next is begun. -/
def inOrder (first count : Nat) : List Nat := (List.range' first count).flatMap fun i => [i, i]

theorem inOrder_succ (first count : Nat) :
    inOrder first (count + 1) = first :: first :: inOrder (first + 1) count := by
  rw [inOrder, List.range'_succ]
  rfl

theorem two_le_count_inOrder {first count i : Nat} (hfirst : first ≤ i) (hi : i < first + count) :
    2 ≤ (inOrder first count).count i := by
  induction count generalizing first with
  | zero => omega
  | succ count ih =>
    rw [inOrder_succ]
    by_cases heq : first = i
    · rw [heq, List.count_cons_self, List.count_cons_self]
      omega
    · rw [List.count_cons_of_ne heq, List.count_cons_of_ne heq]
      exact ih (by omega) (by omega)

theorem complete_inOrder (count : Nat) : Complete count (inOrder 0 count) :=
  fun i hi => two_le_count_inOrder (Nat.zero_le i) (by omega)

section
variable (options : Options) (write : Bool)

/-- Two steps of a file that waits are all of the work on it. -/
theorem step_step (d : Disk) (done : List Task) (path : Path) (rest : List Task) :
    ((⟨d, done ++ .waiting path :: rest⟩ : Sorting).step options write done.length).step
        options write done.length =
      ⟨(sortFile options write d path).2,
        done ++ .finished (sortFile options write d path).1 :: rest⟩ := by
  have hstep (d : Disk) (task : Task) :
      (⟨d, done ++ task :: rest⟩ : Sorting).step options write done.length =
        ⟨(task.advance options write d).2, done ++ (task.advance options write d).1 :: rest⟩ := by
    have htask : (⟨d, done ++ task :: rest⟩ : Sorting).tasks[done.length]? = some task := by simp
    rw [Sorting.step_of_some options write htask]
    simp
  rw [hstep, hstep, Task.advance, sortFile]
  cases examine d options path <;> rfl

theorem along_inOrder (d : Disk) (done : List Task) (paths : List Path) :
    (⟨d, done ++ paths.map .waiting⟩ : Sorting).along options write
        (inOrder done.length paths.length) =
      ⟨(sortEach options write d paths).2,
        done ++ (sortEach options write d paths).1.map .finished⟩ := by
  induction paths generalizing d done with
  | nil => rfl
  | cons path rest ih =>
    rw [List.length_cons, inOrder_succ, List.map_cons, Sorting.along, List.foldl_cons,
      List.foldl_cons, step_step]
    have hrest := ih (sortFile options write d path).2
      (done ++ [.finished (sortFile options write d path).1])
    rw [List.append_assoc, List.singleton_append, List.length_append, List.length_singleton]
      at hrest
    rw [← Sorting.along, hrest, List.append_assoc]
    rfl

theorem start_along_inOrder (d : Disk) (paths : List Path) :
    (Sorting.start d paths).along options write (inOrder 0 paths.length) =
      ⟨(sortEach options write d paths).2, (sortEach options write d paths).1.map .finished⟩ :=
  along_inOrder options write d [] paths

theorem Task.filterMap_finished (results : List (Except FileFault FileReport)) :
    (results.map Task.finished).filterMap Task.result? = results := by
  rw [List.filterMap_map]
  exact List.filterMap_some

theorem sortEach_results {d : Disk} {paths : List Path} (hapart : NamesApart d paths) :
    (sortEach options write d paths).1 = paths.map fun p => (sortFile options write d p).1 := by
  have hresults := results_along options write hapart (complete_inOrder paths.length)
  rwa [start_along_inOrder, Sorting.results, Task.filterMap_finished] at hresults

theorem sortEach_sorted {d : Disk} {paths : List Path} (hapart : NamesApart d paths) :
    Sorted options paths d (sortEach options true d paths).2 := by
  have hsorted := sorted_along options hapart (complete_inOrder paths.length)
  rwa [start_along_inOrder] at hsorted

end

/-! ### The conclusion -/

theorem faultsOf_ok (report : FileReport) (rest : List (Except FileFault FileReport)) :
    faultsOf (.ok report :: rest) = faultsOf rest := rfl

theorem faultsOf_error (fault : FileFault) (rest : List (Except FileFault FileReport)) :
    faultsOf (.error fault :: rest) = fault :: faultsOf rest := rfl

theorem reportsOf_ok (report : FileReport) (rest : List (Except FileFault FileReport)) :
    reportsOf (.ok report :: rest) = report :: reportsOf rest := rfl

section
variable (options : Options) (write : Bool) (d : Disk) (paths : List Path)

theorem length_faultsOf :
    (faultsOf (paths.map fun p => (sortFile options write d p).1)).length =
      paths.countP fun p => ¬ Sortable options d p := by
  induction paths with
  | nil => rfl
  | cons p rest ih =>
    cases hexamine : examine d options p with
    | error fault =>
      have hfailed : ¬ Sortable options d p := by simp [sortable_iff, hexamine]
      rw [List.map_cons, sortFile_fst, hexamine, Except.map, faultsOf_error, List.length_cons, ih,
        List.countP_cons_of_pos (by simpa using hfailed)]
    | ok e =>
      have hsortable : Sortable options d p := sortable_iff.mpr ⟨e, hexamine⟩
      rw [List.map_cons, sortFile_fst, hexamine, Except.map, faultsOf_ok, ih,
        List.countP_cons_of_neg (by simpa using hsortable)]

theorem forall₂_reportsOf (h : ∀ p ∈ paths, Sortable options d p) :
    List.Forall₂ (fun p report => (sortFile options write d p).1 = .ok report) paths
      (reportsOf (paths.map fun p => (sortFile options write d p).1)) := by
  induction paths with
  | nil => exact .nil
  | cons p rest ih =>
    obtain ⟨hp, hrest⟩ := List.forall_mem_cons.mp h
    obtain ⟨e, he⟩ := sortable_iff.mp hp
    have hreport : (sortFile options write d p).1 = .ok (e.report write) := by
      rw [sortFile_fst, he, Except.map]
    rw [List.map_cons, hreport, reportsOf_ok]
    exact .cons hreport (ih hrest)

end

/-- **Files side by side.** The schedule makes no difference to the files and to what is
returned. -/
theorem interleaving_sorts (options : Options) {d : Disk} {paths : List Path}
    (hapart : NamesApart d paths) {schedule : List Nat}
    (hschedule : Complete paths.length schedule) :
    let after := ((Sorting.start d paths).along options true schedule).outcome
    let batch := sortAll options true d paths
    Sorted options paths d after.disk ∧
      (match after.conclusion with
        | .ok reports =>
          List.Forall₂ (fun p report => (sortFile options true d p).1 = .ok report) paths reports
        | .error message => (∃ p ∈ paths, ¬ Sortable options d p) ∧
          message = unprocessed (paths.countP fun p => ¬ Sortable options d p)) ∧
      after.reports = batch.reports ∧ after.faults = batch.faults ∧
      after.disk.root.view = batch.disk.root.view := by
  intro after batch
  have hsorted : Sorted options paths d after.disk := sorted_along options hapart hschedule
  have hresults := results_along options true hapart hschedule
  have hreports := congrArg reportsOf hresults
  have hfaults := congrArg faultsOf hresults
  have hsequential := sortEach_results options true hapart
  refine ⟨hsorted, ?_, hreports.trans (congrArg reportsOf hsequential.symm),
    hfaults.trans (congrArg faultsOf hsequential.symm),
    hsorted.view_eq (sortEach_sorted options hapart)⟩
  have hcount := length_faultsOf options true d paths
  rw [BatchResult.conclusion, show after.reports = _ from hreports,
    show after.faults = _ from hfaults]
  by_cases hall : ∀ p ∈ paths, Sortable options d p
  · have hnone : faultsOf (paths.map fun p => (sortFile options true d p).1) = [] := by
      rw [← List.length_eq_zero_iff, hcount, List.countP_eq_zero]
      simpa using hall
    rw [hnone]
    exact forall₂_reportsOf options true d paths hall
  · have hsome : faultsOf (paths.map fun p => (sortFile options true d p).1) ≠ [] := by
      rw [ne_eq, ← List.length_eq_zero_iff, hcount, List.countP_eq_zero]
      simpa using hall
    rw [if_neg (by simpa using hsome), hcount]
    exact ⟨by simpa using hall, rfl⟩

/-- A file that changes, one that is no source text, and one that holds no text at all. -/
def sampleDisk : Disk where
  root := .directory
    [("a.rs", .file "impl A\x7bfn b()\x7bSelf::a()\x7d fn a()\x7b\x7d\x7d".toUTF8),
      ("b.rs", .file "impl \x7b".toUTF8), ("src", .directory [("c.rs", .file ⟨#[255]⟩)])]
  here := ["src"]

/-- The last of the paths leads nowhere. -/
def samplePaths : List Path := [⟨"../a.rs"⟩, ⟨"/b.rs"⟩, ⟨"c.rs"⟩, ⟨"d.rs"⟩]

theorem interleaving_sorts_sample :
    NamesApart sampleDisk samplePaths ∧ Complete samplePaths.length [1, 0, 2, 3, 2, 0, 3, 1] ∧
      Sorted {} samplePaths sampleDisk
        ((Sorting.start sampleDisk samplePaths).along {} true
          [1, 0, 2, 3, 2, 0, 3, 1]).outcome.disk := by
  have hlocations : samplePaths.Pairwise fun p q => sampleDisk.location p ≠
      sampleDisk.location q := by
    decide +kernel
  have hapart : NamesApart sampleDisk samplePaths := hlocations.imp fun hne _ _ => hne
  have hcomplete : Complete samplePaths.length [1, 0, 2, 3, 2, 0, 3, 1] := by
    rw [Complete]
    decide
  exact ⟨hapart, hcomplete, (interleaving_sorts {} hapart hcomplete).1⟩

end CalleeFirst.Command
