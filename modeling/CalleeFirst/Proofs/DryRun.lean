import CalleeFirst.Command.Run
import CalleeFirst.Proofs.Interleaving
import CalleeFirst.Proofs.SecondReordering

/-! Runs that do not write, and runs that do.

What a run does to the disk is the list of its writes (`Sorting.writes`, `disk_along`). A run that
only examines has none. A run that writes has one for each file that its examination finds to have
changed, and writes the text that was found (`mem_writes_iff`). The reports of both runs are made
from the same examinations (`conclusion_eq_ok_iff`); only those of a dry run have the text.

`dryRun_foretells`: a dry run tells what a run that writes will do. Both succeed or neither does,
and where they succeed the reports are the same apart from the text, a check is clean if nothing is
going to be written, and every file ends up with the text that the dry run reported. -/
namespace CalleeFirst.Command

open Files (Disk Path)

/-! ### Writes -/

/-- What the next step of a task writes. -/
def Task.writes (write : Bool) : Task → List (Path × String)
  | examined e => if write && e.changed then [(e.path, e.text)] else []
  | _ => []

namespace Sorting
variable (options : Options) (write : Bool)

/-- What one step of the task at place `i` writes. -/
def writesAt (s : Sorting) (i : Nat) : List (Path × String) :=
  (s.tasks[i]?.map (Task.writes write)).getD []

/-- What is written along a schedule, write by write. -/
def writes : Sorting → List Nat → List (Path × String)
  | _, [] => []
  | s, i :: rest => s.writesAt write i ++ writes (s.step options write i) rest

end Sorting

/-- The disk after a list of writes. -/
def written (d : Disk) (writes : List (Path × String)) : Disk :=
  writes.foldl (fun d w => d.write w.1 w.2) d

section
variable (options : Options) (write : Bool)

theorem Task.disk_advance (d : Disk) (task : Task) :
    (task.advance options write d).2 = written d (task.writes write) := by
  cases task with
  | waiting path =>
    rw [advance]
    cases examine d options path <;> rfl
  | examined e =>
    cases write <;> cases h : e.changed <;> simp [advance, writes, store, written, h]
  | finished result => rfl

theorem Sorting.disk_step (s : Sorting) (i : Nat) :
    (s.step options write i).disk = written s.disk (s.writesAt write i) := by
  rw [writesAt]
  cases htask : s.tasks[i]? with
  | none =>
    rw [step_of_none options write htask]
    rfl
  | some task =>
    rw [step_of_some options write htask]
    exact task.disk_advance options write s.disk

/-- The writes are all that happens to the disk. -/
theorem Sorting.disk_along (s : Sorting) (schedule : List Nat) :
    (s.along options write schedule).disk = written s.disk (s.writes options write schedule) := by
  induction schedule generalizing s with
  | nil => rfl
  | cons i rest ih =>
    rw [along, List.foldl_cons, ← along, ih, disk_step, writes, written, written, written,
      List.foldl_append]

theorem Sorting.writes_dry (s : Sorting) (schedule : List Nat) :
    s.writes options false schedule = [] := by
  induction schedule generalizing s with
  | nil => rfl
  | cons i rest ih =>
    have hstep : s.writesAt false i = [] := by
      rw [writesAt]
      rcases s.tasks[i]? with _ | _ | _ | _ <;> rfl
    rw [writes, hstep, ih, List.append_nil]

end

/-! ### Which files are written -/

section
variable {options : Options} {before : Disk} {paths : List Path} {s : Sorting}
  (hapart : NamesApart before paths) (h : Underway options true before paths s)
include hapart h

/-- A file that is not finished, and changes, is written by the step that finishes it. -/
theorem Underway.mem_writes {i : Nat} {p : Path} {e : Examination} (hp : paths[i]? = some p)
    (hfound : examine before options p = .ok e) (hchanged : e.changed = true) {task : Task}
    (htask : s.tasks[i]? = some task) (hopen : task.rank < 2) {schedule : List Nat}
    (hdone : 2 ≤ task.rank + schedule.count i) :
    (p, e.text) ∈ s.writes options true schedule := by
  induction schedule generalizing s task with
  | nil => exact absurd hdone (by simpa using hopen)
  | cons j rest ih =>
    have hstep := s.getElem?_step options true j i
    rw [htask] at hstep
    rw [Sorting.writes, List.mem_append]
    by_cases hij : j = i
    · subst hij
      rw [if_pos rfl, Option.map_some] at hstep
      rw [List.count_cons_self] at hdone
      cases h.each j p task hp htask with
      | waiting same =>
        rw [Task.advance, examine_of_glimpse same, hfound] at hstep
        refine .inr (ih (h.step hapart j) hstep Nat.one_lt_two ?_)
        simp only [Task.rank] at hdone ⊢
        omega
      | examined found _ =>
        cases found.symm.trans hfound
        have hpath : e.path = p := by
          obtain ⟨_, _, _, _, rfl⟩ := examine_eq_ok_iff.mp hfound
          rfl
        left
        rw [Sorting.writesAt, htask]
        simp [Task.writes, hchanged, hpath]
      | failed _ _ => exact absurd hopen (Nat.lt_irrefl 2)
      | sorted _ _ => exact absurd hopen (Nat.lt_irrefl 2)
    · rw [if_neg hij] at hstep
      rw [List.count_cons_of_ne hij] at hdone
      exact .inr (ih (h.step hapart j) hstep hopen hdone)

theorem Underway.exists_examination {w : Path × String} {schedule : List Nat}
    (hw : w ∈ s.writes options true schedule) :
    ∃ p ∈ paths, ∃ e, examine before options p = .ok e ∧ e.changed = true ∧ w = (p, e.text) := by
  induction schedule generalizing s with
  | nil => simp [Sorting.writes] at hw
  | cons j rest ih =>
    rw [Sorting.writes, List.mem_append] at hw
    rcases hw with hw | hw
    · rw [Sorting.writesAt] at hw
      cases htask : s.tasks[j]? with
      | none => simp [htask] at hw
      | some task =>
        obtain ⟨hj, _⟩ := List.getElem?_eq_some_iff.mp htask
        obtain ⟨p, hp⟩ : ∃ p, paths[j]? = some p := ⟨_, List.getElem?_eq_getElem (h.length ▸ hj)⟩
        cases h.each j p task hp htask with
        | @examined e found _ =>
          obtain ⟨hchanged, rfl⟩ : e.changed = true ∧ w = (e.path, e.text) := by
            simpa [htask, Task.writes] using hw
          obtain ⟨_, _, _, _, rfl⟩ := examine_eq_ok_iff.mp found
          exact ⟨_, List.mem_of_getElem? hp, _, found, hchanged, rfl⟩
        | waiting _ => simp [htask, Task.writes] at hw
        | failed _ _ => simp [htask, Task.writes] at hw
        | sorted _ _ => simp [htask, Task.writes] at hw
    · exact ih (h.step hapart j) hw

end

/-! ### Results and reports -/

theorem reportsOf_map_ok (reports : List FileReport) : reportsOf (reports.map .ok) = reports := by
  rw [reportsOf, List.filterMap_map]
  exact List.filterMap_some

theorem faultsOf_eq_nil_iff {results : List (Except FileFault FileReport)} :
    faultsOf results = [] ↔ results = (reportsOf results).map .ok := by
  induction results with
  | nil => exact ⟨fun _ => rfl, fun _ => rfl⟩
  | cons result rest ih =>
    cases result with
    | error fault =>
      rw [faultsOf_error]
      refine ⟨fun h => absurd h (List.cons_ne_nil _ _), fun h => ?_⟩
      have hmem : Except.error fault ∈ (reportsOf (.error fault :: rest)).map Except.ok := by
        rw [← h]
        exact List.mem_cons_self
      obtain ⟨report, _, hreport⟩ := List.mem_map.mp hmem
      cases hreport
    | ok report => simp [faultsOf_ok, reportsOf_ok, ih]

/-- Reports are returned if every file has one. -/
theorem conclusion_ok (disk : Disk) (results : List (Except FileFault FileReport))
    (reports : List FileReport) :
    BatchResult.conclusion ⟨disk, reportsOf results, faultsOf results⟩ = .ok reports ↔
      results = reports.map .ok := by
  rw [BatchResult.conclusion]
  constructor
  · intro h
    split at h
    · next hnone =>
      obtain rfl : reportsOf results = reports := Except.ok.inj h
      exact faultsOf_eq_nil_iff.mp (List.isEmpty_iff.mp hnone)
    · cases h
  · intro h
    have hnone : faultsOf (reports.map .ok) = [] := by rw [faultsOf_eq_nil_iff, reportsOf_map_ok]
    simp only [h, hnone, reportsOf_map_ok]
    rfl

/-- Every file has a report if every examination succeeds. -/
theorem map_report_eq_map_ok_iff {write : Bool} {results : List (Except FileFault Examination)}
    {reports : List FileReport} :
    results.map (Except.map (Examination.report write)) = reports.map .ok ↔
      ∃ found : List Examination, results = found.map .ok ∧
        reports = found.map (Examination.report write) := by
  constructor
  · intro h
    induction results generalizing reports with
    | nil => exact ⟨[], rfl, List.map_eq_nil_iff.mp h.symm⟩
    | cons result rest ih =>
      obtain ⟨report, others, rfl, hreport, hothers⟩ := List.map_eq_cons_iff.mp h.symm
      obtain ⟨found, rfl, rfl⟩ := ih hothers.symm
      cases result with
      | error fault => cases hreport
      | ok e =>
        cases hreport
        exact ⟨e :: found, rfl, rfl⟩
  · rintro ⟨found, rfl, rfl⟩
    rw [List.map_map, List.map_map]
    rfl

/-- A batch is run by the schedule that takes one file after the other. -/
theorem outcome_inOrder (options : Options) (write : Bool) (d : Disk) (paths : List Path) :
    ((Sorting.start d paths).along options write (inOrder 0 paths.length)).outcome =
      sortAll options write d paths := by
  simp only [start_along_inOrder, Sorting.outcome, Sorting.results, Task.filterMap_finished]
  rfl

section
variable (options : Options) {d : Disk} {paths : List Path} (hapart : NamesApart d paths)
  {schedule : List Nat} (hschedule : Complete paths.length schedule)
include hapart

include hschedule in
/-- What is written is what examinations find to have changed. -/
theorem mem_writes_iff {w : Path × String} :
    w ∈ (Sorting.start d paths).writes options true schedule ↔
      ∃ p ∈ paths, ∃ e, examine d options p = .ok e ∧ e.changed = true ∧ w = (p, e.text) := by
  refine ⟨(Underway.start options true d paths).exists_examination hapart, ?_⟩
  rintro ⟨p, hp, e, hfound, hchanged, rfl⟩
  obtain ⟨i, hi⟩ := List.getElem?_of_mem hp
  have hwaiting : (Sorting.start d paths).tasks[i]? = some (.waiting p) := by
    rw [Sorting.start, List.getElem?_map, hi, Option.map_some]
  have htwice := hschedule i (List.getElem?_eq_some_iff.mp hi).1
  exact (Underway.start options true d paths).mem_writes hapart hi hfound hchanged hwaiting
    Nat.two_pos (by rwa [Task.rank, Nat.zero_add])

include hschedule in
/-- The schedule makes no difference to what is returned. -/
theorem conclusion_along (write : Bool) :
    ((Sorting.start d paths).along options write schedule).outcome.conclusion =
      (sortAll options write d paths).conclusion := by
  rw [← outcome_inOrder, Sorting.outcome, Sorting.outcome,
    results_along options write hapart hschedule,
    results_along options write hapart (complete_inOrder paths.length)]
  rfl

/-- A batch succeeds with the reports of all examinations, whether it writes or not. -/
theorem conclusion_eq_ok_iff {write : Bool} {reports : List FileReport} :
    (sortAll options write d paths).conclusion = .ok reports ↔
      ∃ found : List Examination, paths.map (examine d options) = found.map .ok ∧
        reports = found.map (Examination.report write) := by
  have hresults : (sortEach options write d paths).1 =
      (paths.map (examine d options)).map (Except.map (Examination.report write)) := by
    rw [sortEach_results options write hapart, List.map_map]
    exact List.map_congr_left fun p _ => sortFile_fst options write d p
  rw [← map_report_eq_map_ok_iff, ← hresults]
  exact conclusion_ok (sortEach options write d paths).2 (sortEach options write d paths).1 reports

include hschedule in
theorem writes_eq_nil_iff {found : List Examination}
    (h : paths.map (examine d options) = found.map .ok) :
    (Sorting.start d paths).writes options true schedule = [] ↔
      ∀ e ∈ found, e.changed = false := by
  have hmem (e : Examination) : e ∈ found ↔ ∃ p ∈ paths, examine d options p = .ok e := by
    rw [← List.mem_map, h, List.mem_map_of_injective fun _ _ => Except.ok.inj]
  rw [List.eq_nil_iff_forall_not_mem]
  constructor
  · intro hnone e he
    obtain ⟨p, hp, hexamine⟩ := (hmem e).mp he
    rw [← Bool.not_eq_true]
    intro hchanged
    exact hnone _ ((mem_writes_iff options hapart hschedule).mpr
      ⟨p, hp, e, hexamine, hchanged, rfl⟩)
  · intro hsame w hw
    obtain ⟨p, hp, e, hexamine, hchanged, _⟩ := (mem_writes_iff options hapart hschedule).mp hw
    rw [hsame e ((hmem e).mpr ⟨p, hp, hexamine⟩)] at hchanged
    cases hchanged

include hschedule in
/-- Every file ends up with the text that was found for it. -/
theorem forall₂_read {found : List Examination}
    (h : paths.map (examine d options) = found.map .ok) :
    List.Forall₂ (fun p e => e.path = p ∧
      ((Sorting.start d paths).along options true schedule).disk.read p = .ok e.text)
      paths found := by
  have hsorted := sorted_along options hapart hschedule
  rw [← List.forall₂_eq_eq_eq, List.forall₂_map_left_iff, List.forall₂_map_right_iff] at h
  have hlisted := (List.forall₂_and_left paths found).mpr ⟨fun _ hp => hp, h⟩
  refine hlisted.imp fun p e ⟨hp, hexamine⟩ => ?_
  obtain ⟨text, r, hread, hreorder, rfl⟩ := examine_eq_ok_iff.mp hexamine
  exact ⟨rfl, hsorted.sorted p hp text r hread hreorder⟩

end

/-! ### The commands -/

theorem checkSummary_eq_zero_iff (reports : List FileReport) :
    (checkSummary reports).1 = 0 ↔ ∀ report ∈ reports, report.changed = false := by
  rw [checkSummary]
  split
  · next hnone => simpa using hnone
  · next hsome => simpa using hsome

section
variable {options : Options} {d : Disk} {invocation : Invocation} {paths : List Path}
  (hpaths : Files.collect d invocation.given.arguments = .ok paths)
include hpaths

theorem perform_check (hcheck : invocation.command = .check) :
    perform invocation options d = overFiles options false d paths checkSummary := by
  obtain ⟨command, given⟩ := invocation
  obtain rfl : command = .check := hcheck
  simp only [perform, hpaths]

theorem perform_toOutput (hsort : invocation.command = .sort)
    (houtput : invocation.given.toOutput = true) :
    perform invocation options d = sortToOutput options d paths := by
  obtain ⟨command, given⟩ := invocation
  obtain rfl : command = .sort := hsort
  simp only [perform, hpaths]
  exact if_pos houtput

theorem code_check (hcheck : invocation.command = .check) {reports : List FileReport}
    (hreports : (sortAll options false d paths).conclusion = .ok reports) :
    (perform invocation options d).code = 0 ↔ ∀ report ∈ reports, report.changed = false := by
  rw [perform_check hpaths hcheck, overFiles, hreports]
  exact checkSummary_eq_zero_iff reports

end

/-- The text of a file that is printed is the text that was found for it. -/
theorem output_sortToOutput {options : Options} {d : Disk} {p : Path} {e : Examination}
    (h : examine d options p = .ok e) : (sortToOutput options d [p]).output = [.text e.text] := by
  rw [sortToOutput, sortFile_fst, h]
  rfl

/-- What a dry run has to say about the run that writes. -/
structure Foretells (options : Options) (d : Disk) (paths : List Path) (dry real : BatchResult)
    (writes : List (Path × String)) : Prop where
  untouched : dry.disk = d
  written : real.disk = written d writes
  succeeds : (∃ reports, dry.conclusion = .ok reports) ↔ ∃ reports, real.conclusion = .ok reports
  reports : ∀ found reports, dry.conclusion = .ok found → real.conclusion = .ok reports →
    List.Forall₂ (fun a b => a.path = b.path ∧ a.changed = b.changed ∧ a.blocks = b.blocks)
      found reports
  texts : ∀ found, dry.conclusion = .ok found →
    List.Forall₂ (fun p report => report.path = p ∧
      ∃ text, report.text = some text ∧ real.disk.read p = .ok text) paths found
  clean : ∀ found, dry.conclusion = .ok found →
    ∀ invocation : Invocation, invocation.command = .check →
      Files.collect d invocation.given.arguments = .ok paths →
        ((perform invocation options d).code = 0 ↔ writes = [])
  printed : ∀ report, dry.conclusion = .ok [report] →
    ∀ invocation : Invocation, invocation.command = .sort → invocation.given.toOutput = true →
      Files.collect d invocation.given.arguments = .ok paths →
        ∃ text, report.text = some text ∧ (perform invocation options d).output = [.text text]

/-- **A dry run tells what a run will do**, whatever their schedules. -/
theorem dryRun_foretells (options : Options) {d : Disk} {paths : List Path}
    (hapart : NamesApart d paths) {trial schedule : List Nat}
    (htrial : Complete paths.length trial) (hschedule : Complete paths.length schedule) :
    Foretells options d paths ((Sorting.start d paths).along options false trial).outcome
      ((Sorting.start d paths).along options true schedule).outcome
      ((Sorting.start d paths).writes options true schedule) := by
  have hdry := conclusion_along options hapart htrial false
  have hreal := conclusion_along options hapart hschedule true
  have hdisk := (Sorting.start d paths).disk_along options false trial
  rw [Sorting.writes_dry] at hdisk
  refine ⟨hdisk, (Sorting.start d paths).disk_along options true schedule, ?_, ?_, ?_, ?_, ?_⟩
  · simp only [hdry, hreal, conclusion_eq_ok_iff options hapart]
    constructor
    · rintro ⟨_, found, hfound, _⟩
      exact ⟨_, found, hfound, rfl⟩
    · rintro ⟨_, found, hfound, _⟩
      exact ⟨_, found, hfound, rfl⟩
  · intro _ _ hfound hreports
    rw [hdry, conclusion_eq_ok_iff options hapart] at hfound
    rw [hreal, conclusion_eq_ok_iff options hapart] at hreports
    obtain ⟨found, hfound, rfl⟩ := hfound
    obtain ⟨same, hsame, rfl⟩ := hreports
    obtain rfl := List.map_injective_iff.mpr (fun _ _ => Except.ok.inj) (hsame.symm.trans hfound)
    rw [List.forall₂_map_left_iff, List.forall₂_map_right_iff]
    exact List.forall₂_same.mpr fun _ _ => ⟨rfl, rfl, rfl⟩
  · intro _ hfound
    rw [hdry, conclusion_eq_ok_iff options hapart] at hfound
    obtain ⟨found, hfound, rfl⟩ := hfound
    rw [List.forall₂_map_right_iff]
    refine (forall₂_read options hapart hschedule hfound).imp fun p e ⟨hpath, hread⟩ => ?_
    exact ⟨hpath, e.text, rfl, hread⟩
  · intro _ hfound invocation hcheck hpaths
    rw [hdry] at hfound
    obtain ⟨found, hexamined, rfl⟩ := (conclusion_eq_ok_iff options hapart).mp hfound
    rw [code_check hpaths hcheck hfound, writes_eq_nil_iff options hapart hschedule hexamined]
    exact List.forall_mem_map
  · intro report hfound invocation hsort houtput hpaths
    rw [hdry, conclusion_eq_ok_iff options hapart] at hfound
    obtain ⟨found, hexamined, hreport⟩ := hfound
    obtain ⟨e, rfl, rfl⟩ := List.map_eq_singleton_iff.mp hreport.symm
    obtain ⟨p, rfl, hexamine⟩ := List.map_eq_singleton_iff.mp hexamined
    rw [perform_toOutput hpaths hsort houtput, output_sortToOutput hexamine]
    exact ⟨e.text, rfl, rfl⟩

/-- The second member has a comment above it. -/
def callerText : List Char := "impl A\x7bfn b()\x7bSelf::a()\x7d\n// é\nfn a()\x7b\x7d\x7d".toList

/-- A file that changes, and an empty one. -/
def sourceDisk : Disk where
  root := .directory
    [("a.rs", .file (String.ofList callerText).toUTF8),
      ("src", .directory [("c.rs", .file "".toUTF8)])]
  here := ["src"]

def sourcePaths : List Path := [⟨"../a.rs"⟩, ⟨"c.rs"⟩]

theorem dryRun_foretells_sample :
    let dry := ((Sorting.start sourceDisk sourcePaths).along {} false [0, 1, 1, 0]).outcome
    let real := ((Sorting.start sourceDisk sourcePaths).along {} true [1, 0, 0, 1]).outcome
    NamesApart sourceDisk sourcePaths ∧ Complete sourcePaths.length [0, 1, 1, 0] ∧
      Complete sourcePaths.length [1, 0, 0, 1] ∧ (∃ found, dry.conclusion = .ok found) ∧
      Foretells {} sourceDisk sourcePaths dry real
        ((Sorting.start sourceDisk sourcePaths).writes {} true [1, 0, 0, 1]) := by
  have hapart : NamesApart sourceDisk sourcePaths := by
    have hlocations : sourcePaths.Pairwise fun p q => sourceDisk.location p ≠
        sourceDisk.location q := by
      decide +kernel
    exact hlocations.imp fun hne _ _ => hne
  have htrial : Complete sourcePaths.length [0, 1, 1, 0] := by
    rw [Complete]
    decide
  have hschedule : Complete sourcePaths.length [1, 0, 0, 1] := by
    rw [Complete]
    decide
  have hcaller : ∃ e, examine sourceDisk {} ⟨"../a.rs"⟩ = .ok e := by
    have hread : sourceDisk.read ⟨"../a.rs"⟩ = .ok (String.ofList callerText) :=
      Disk.read_eq_ok_iff.mpr rfl
    have hparsed : Source.parsed callerText = .ok [Source.onlyBlock callerText] := by
      decide +kernel
    obtain ⟨r, hreorder, _⟩ := Source.CallsAhead.reorder {} hparsed (by decide +kernel)
    rw [← String.toList_ofList (l := callerText)] at hreorder
    exact ⟨_, examine_eq_ok_iff.mpr ⟨_, r, hread, hreorder, rfl⟩⟩
  have hempty : ∃ e, examine sourceDisk {} ⟨"c.rs"⟩ = .ok e := by
    have hread : sourceDisk.read ⟨"c.rs"⟩ = .ok "" := Disk.read_eq_ok_iff.mpr rfl
    have hparsed : Source.parsed "".toList = .ok [] := by decide +kernel
    have hblocks := Source.blocks_of_parsed (Options.visibilityOrder {}) hparsed
    have hreorder := Source.reorder_never hblocks (by simp) (by simp)
    exact ⟨_, examine_eq_ok_iff.mpr ⟨_, _, hread, hreorder, rfl⟩⟩
  refine ⟨hapart, htrial, hschedule, ?_, dryRun_foretells {} hapart htrial hschedule⟩
  obtain ⟨first, hfirst⟩ := hcaller
  obtain ⟨second, hsecond⟩ := hempty
  have hfound : sourcePaths.map (examine sourceDisk {}) = [first, second].map .ok := by
    rw [sourcePaths, List.map_cons, List.map_singleton, hfirst, hsecond]
    rfl
  have hdry : (sortAll {} false sourceDisk sourcePaths).conclusion =
      .ok ([first, second].map (Examination.report false)) :=
    (conclusion_eq_ok_iff {} hapart).mpr ⟨_, hfound, rfl⟩
  exact ⟨_, (conclusion_along {} hapart htrial false).trans hdry⟩

end CalleeFirst.Command
