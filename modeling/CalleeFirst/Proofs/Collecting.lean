import CalleeFirst.Files.Collect
import CalleeFirst.Proofs.Disks
import CalleeFirst.Proofs.PathOrder

/-! What is collected from a disk.

A directory is walked from the top, and a directory that is not entered hides all that is below
it. So a file is found exactly if it has the extension and none of the directories between it
and the top is one of those (`SourceBelow`, `mem_sourcesAmong`); the top itself is not asked.

Sorting brings paths with the same components together, so that dropping a path that repeats the one
before it leaves each once, in strict order (`dropRepeats_increasing`).

`collect_exact`: what is collected are the named files and the files found below the named
directories, no more and no less. -/
namespace CalleeFirst.Files

/-! ### Directory trees -/

/-- A tree as a file system has it: names are names, and no directory has one of them twice. -/
inductive Entry.Proper : Entry → Prop
  | file (content : ByteArray) : Proper (.file content)
  | directory {entries : List (String × Entry)} (distinct : (entries.map Prod.fst).Nodup)
      (named : ∀ x ∈ entries, Path.IsName x.1) (inner : ∀ x ∈ entries, Proper x.2) :
      Proper (.directory entries)

namespace Entry

theorem lookup_eq_some_iff {entries : List (String × Entry)} (h : (entries.map Prod.fst).Nodup)
    {name : String} {e : Entry} : entries.lookup name = some e ↔ (name, e) ∈ entries := by
  induction entries with
  | nil => simp
  | cons first rest ih =>
    obtain ⟨key, value⟩ := first
    rw [List.map_cons, List.nodup_cons] at h
    rw [lookup_cons_eq, List.mem_cons, Prod.mk.injEq]
    by_cases hkey : name = key
    · subst hkey
      have hrest : (name, e) ∉ rest := fun hmem => h.1 (List.mem_map.mpr ⟨_, hmem, rfl⟩)
      simp [hrest, eq_comm]
    · rw [if_neg hkey, ih h.2]
      simp [hkey]

theorem at?_directory (entries : List (String × Entry)) (name : String) (rest : List String) :
    (directory entries).at? (name :: rest) = (entries.lookup name).bind (at? · rest) := rfl

theorem Proper.at? {e found : Entry} (h : e.Proper) {place : List String}
    (hfound : e.at? place = some found) :
    found.Proper := by
  induction place generalizing e with
  | nil =>
    obtain rfl := Option.some.inj hfound
    exact h
  | cons name rest ih =>
    cases h with
    | file content => cases hfound
    | directory distinct named inner =>
      obtain ⟨child, hchild, hrest⟩ := Option.bind_eq_some_iff.mp hfound
      exact ih (inner _ ((lookup_eq_some_iff distinct).mp hchild)) hrest

/-- What is on the way to an entry below has a name. -/
theorem Proper.isName {e found : Entry} (h : e.Proper) {place : List String}
    (hfound : e.at? place = some found) :
    ∀ name ∈ place, Path.IsName name := by
  induction place generalizing e with
  | nil => simp
  | cons name rest ih =>
    cases h with
    | file content => cases hfound
    | directory distinct named inner =>
      obtain ⟨child, hchild, hrest⟩ := Option.bind_eq_some_iff.mp hfound
      have hmem := (lookup_eq_some_iff distinct).mp hchild
      exact List.forall_mem_cons.mpr ⟨named _ hmem, ih (inner _ hmem) hrest⟩

end Entry

namespace Disk
variable {d : Disk}

theorem proper_of_follow (hd : d.root.Proper) {place parts : List String} {e : Entry}
    (h : d.follow place parts = .ok e) : e.Proper := by
  induction parts generalizing place with
  | nil =>
    rw [follow] at h
    cases hplace : d.root.at? place with
    | none =>
      rw [hplace] at h
      cases h
    | some found =>
      rw [hplace] at h
      obtain rfl := Except.ok.inj h
      exact hd.at? hplace
  | cons part rest ih =>
    rw [follow] at h
    split at h
    · cases h
    · cases h
    · exact ih h

theorem proper_of_entry (hd : d.root.Proper) {p : Path} {e : Entry} (h : d.entry p = .ok e) :
    e.Proper ∧ p.text ≠ "" := by
  rw [entry] at h
  split at h
  · cases h
  · next hp => exact ⟨proper_of_follow hd h, hp⟩

end Disk

/-! ### Walking a directory -/

theorem isSourceName_iff {name : String} :
    isSourceName name = true ↔ ∃ stem, stem ≠ "" ∧ name = stem ++ ".rs" := by
  rw [isSourceName, Bool.and_eq_true, List.isSuffixOf_iff_suffix, decide_eq_true_eq]
  constructor
  · rintro ⟨⟨stem, hstem⟩, hlength⟩
    have hname : name = String.ofList stem ++ ".rs" := by
      rw [← String.toList_inj, String.toList_append, String.toList_ofList, hstem]
    refine ⟨String.ofList stem, ?_, hname⟩
    rintro hempty
    rw [hname, hempty] at hlength
    exact absurd hlength (by decide)
  · rintro ⟨stem, hne, rfl⟩
    refine ⟨⟨stem.toList, (String.toList_append ..).symm⟩, ?_⟩
    have hpos : 0 < stem.length := by
      rw [← String.length_toList, List.length_pos_iff]
      simpa using hne
    rw [String.length_append]
    show 3 < stem.length + 3
    omega

theorem isSkipped_eq_false_iff {name : String} :
    isSkipped name = false ↔ name ≠ "target" ∧ name.toList.head? ≠ some '.' := by
  simp [isSkipped]

/-- A file that the walk of a directory finds: its name behind the names of the directories
between. -/
structure SourceBelow (entries : List (String × Entry)) (between : List String) (name : String) :
    Prop where
  file : ∃ content, (Entry.directory entries).at? (between ++ [name]) = some (.file content)
  extension : ∃ stem, stem ≠ "" ∧ name = stem ++ ".rs"
  entered : ∀ n ∈ between, n ≠ "target" ∧ n.toList.head? ≠ some '.'

theorem sourceBelow_nil_iff {entries : List (String × Entry)} {name : String}
    (h : (entries.map Prod.fst).Nodup) :
    SourceBelow entries [] name ↔ (∃ content, (name, .file content) ∈ entries) ∧
      isSourceName name = true := by
  have hfile : ∀ content, (Entry.directory entries).at? ([] ++ [name]) = some (.file content) ↔
      (name, .file content) ∈ entries := by
    intro content
    rw [List.nil_append, Entry.at?_directory, ← Entry.lookup_eq_some_iff h]
    cases entries.lookup name <;> rfl
  rw [isSourceName_iff]
  constructor
  · intro hbelow
    obtain ⟨content, hcontent⟩ := hbelow.file
    exact ⟨⟨content, (hfile content).mp hcontent⟩, hbelow.extension⟩
  · rintro ⟨⟨content, hcontent⟩, hextension⟩
    exact ⟨⟨content, (hfile content).mpr hcontent⟩, hextension,
      fun _ hn => absurd hn List.not_mem_nil⟩

theorem sourceBelow_cons_iff {entries : List (String × Entry)} {first : String}
    {between : List String} {name : String} (h : (entries.map Prod.fst).Nodup) :
    SourceBelow entries (first :: between) name ↔
      ∃ inner, (first, .directory inner) ∈ entries ∧ isSkipped first = false ∧
        SourceBelow inner between name := by
  rw [isSkipped_eq_false_iff]
  constructor
  · intro hbelow
    obtain ⟨content, hcontent⟩ := hbelow.file
    rw [List.cons_append, Entry.at?_directory, Option.bind_eq_some_iff] at hcontent
    obtain ⟨child, hchild, hrest⟩ := hcontent
    obtain ⟨hfirst, hentered⟩ := List.forall_mem_cons.mp hbelow.entered
    cases child with
    | file other => cases between <;> cases hrest
    | directory inner =>
      exact ⟨inner, (Entry.lookup_eq_some_iff h).mp hchild, hfirst, ⟨content, hrest⟩,
        hbelow.extension, hentered⟩
  · rintro ⟨inner, hmem, hfirst, ⟨content, hcontent⟩, hextension, hentered⟩
    refine ⟨⟨content, ?_⟩, hextension, List.forall_mem_cons.mpr ⟨hfirst, hentered⟩⟩
    rw [List.cons_append, Entry.at?_directory, (Entry.lookup_eq_some_iff h).mpr hmem]
    exact hcontent

theorem mem_sourcesAmong_iff_exists {p q : Path} {entries : List (String × Entry)} :
    q ∈ sourcesAmong p entries ↔ ∃ x ∈ entries, q ∈ sourcesOf p x := by
  induction entries with
  | nil => simp [sourcesAmong]
  | cons x rest ih => simp [sourcesAmong, ih]

/-- A walk finds the files that are to be found below, each under the path that leads there. -/
theorem mem_sourcesAmong {entries : List (String × Entry)} (h : (Entry.directory entries).Proper)
    {p q : Path} :
    q ∈ sourcesAmong p entries ↔
      ∃ between name, SourceBelow entries between name ∧ q = p.extend (between ++ [name]) := by
  generalize he : Entry.directory entries = e at h
  induction h generalizing entries p with
  | file content => cases he
  | directory distinct named inner ih =>
    cases he
    rw [mem_sourcesAmong_iff_exists]
    constructor
    · rintro ⟨⟨name, child⟩, hmem, hq⟩
      cases child with
      | file content =>
        rw [sourcesOf, List.mem_ite_nil_right, List.mem_singleton] at hq
        exact ⟨[], name, (sourceBelow_nil_iff distinct).mpr ⟨⟨content, hmem⟩, hq.1⟩, hq.2⟩
      | directory below =>
        rw [sourcesOf, List.mem_ite_nil_left, Bool.not_eq_true] at hq
        obtain ⟨between, last, hbelow, rfl⟩ := (ih _ hmem rfl).mp hq.2
        exact ⟨name :: between, last, (sourceBelow_cons_iff distinct).mpr
          ⟨below, hmem, hq.1, hbelow⟩, rfl⟩
    · rintro ⟨between, last, hbelow, rfl⟩
      cases between with
      | nil =>
        obtain ⟨⟨content, hmem⟩, hsource⟩ := (sourceBelow_nil_iff distinct).mp hbelow
        refine ⟨_, hmem, ?_⟩
        rw [sourcesOf, if_pos hsource]
        exact List.mem_singleton.mpr rfl
      | cons first between =>
        obtain ⟨below, hmem, hentered, hbelow⟩ := (sourceBelow_cons_iff distinct).mp hbelow
        refine ⟨_, hmem, ?_⟩
        rw [sourcesOf, if_neg (Bool.not_eq_true _ ▸ hentered), ih _ hmem rfl]
        exact ⟨between, last, hbelow, rfl⟩

/-! ### Each path once -/

theorem mem_of_mem_dropRepeats {paths : List Path} {p : Path} (h : p ∈ dropRepeats paths) :
    p ∈ paths := by
  fun_induction dropRepeats paths with
  | case1 q r rest hsame ih => grind
  | case2 q r rest hsame ih => grind
  | case3 paths => exact h

/-- Only what is there once more is dropped. -/
theorem exists_mem_dropRepeats_iff {paths : List Path} {p : Path} :
    (∃ q ∈ dropRepeats paths, q.components = p.components) ↔
      ∃ q ∈ paths, q.components = p.components := by
  refine ⟨fun ⟨q, hq, hsame⟩ => ⟨q, mem_of_mem_dropRepeats hq, hsame⟩, ?_⟩
  rintro ⟨q, hq, hcomponents⟩
  fun_induction dropRepeats paths generalizing q with
  | case1 first second rest hsame ih =>
    rcases List.mem_cons.mp hq with rfl | hq
    · exact ih q List.mem_cons_self hcomponents
    · rcases List.mem_cons.mp hq with rfl | hq
      · exact ih first List.mem_cons_self ((Path.same_iff.mp hsame).trans hcomponents)
      · exact ih q (List.mem_cons_of_mem first hq) hcomponents
  | case2 first second rest hsame ih =>
    rcases List.mem_cons.mp hq with rfl | hq
    · exact ⟨q, List.mem_cons_self, hcomponents⟩
    · obtain ⟨r, hr, hfound⟩ := ih q hq hcomponents
      exact ⟨r, List.mem_cons_of_mem first hr, hfound⟩
  | case3 paths => exact ⟨q, hq, hcomponents⟩

/-- Among sorted paths, what repeats another stands directly behind it. -/
theorem dropRepeats_increasing {paths : List Path}
    (h : paths.Pairwise fun p q => p.compare q ≠ .gt) :
    (dropRepeats paths).Pairwise fun p q => p.compare q = .lt := by
  fun_induction dropRepeats paths with
  | case1 first second rest hsame ih =>
    exact ih (h.sublist ((List.sublist_cons_self second rest).cons_cons first))
  | case2 first second rest hsame ih =>
    obtain ⟨hfirst, hrest⟩ := List.pairwise_cons.mp h
    have hne : first.components ≠ second.components := fun heq => hsame (Path.same_iff.mpr heq)
    have hlt := Path.compare_eq_lt (hfirst second List.mem_cons_self) hne
    refine List.pairwise_cons.mpr ⟨fun q hq => ?_, ih hrest⟩
    rcases List.mem_cons.mp (mem_of_mem_dropRepeats hq) with rfl | hq
    · exact hlt
    · have hle := (List.pairwise_cons.mp hrest).1 q hq
      exact Std.TransCmp.lt_of_lt_of_isLE hlt (Ordering.isLE_iff_ne_gt.mpr hle)
  | case3 paths hshort =>
    cases paths with
    | nil => exact .nil
    | cons p rest =>
      cases rest with
      | nil => exact List.pairwise_singleton ..
      | cons q rest => exact absurd rfl (hshort p q rest)

/-! ### Collecting -/

theorem holds_eq_true_iff {d : Disk} {p : Path} : d.holds p = true ↔ ∃ e, d.entry p = .ok e := by
  rw [Disk.holds]
  cases d.entry p with
  | error fault => exact iff_of_false Bool.false_ne_true nofun
  | ok e => exact iff_of_true rfl ⟨e, rfl⟩

/-- Either all arguments are found, or the first that is not ends it. -/
theorem mapM_sourcesAt (d : Disk) (paths : List Path) :
    (∀ a ∈ paths, d.holds a = true) ∧
      (∃ found, paths.mapM (sourcesAt d) = .ok found ∧
        List.Forall₂ (fun a below => sourcesAt d a = .ok below) paths found) ∨
    ∃ front a rest, paths = front ++ a :: rest ∧ (∀ b ∈ front, d.holds b = true) ∧
      d.holds a = false ∧
      paths.mapM (sourcesAt d) = .error a := by
  induction paths with
  | nil => exact .inl ⟨by simp, [], rfl, .nil⟩
  | cons a rest ih =>
    rw [List.mapM_cons]
    cases hentry : d.entry a with
    | error fault =>
      refine .inr ⟨[], a, rest, rfl, by simp, by rw [Disk.holds, hentry]; rfl, ?_⟩
      rw [sourcesAt, hentry]
      rfl
    | ok e =>
      have hholds : d.holds a = true := holds_eq_true_iff.mpr ⟨e, hentry⟩
      obtain ⟨below, hbelow⟩ : ∃ below, sourcesAt d a = .ok below := by
        rw [sourcesAt, hentry]
        cases e <;> exact ⟨_, rfl⟩
      rcases ih with ⟨hrest, found, hfound, hall⟩ | ⟨front, b, behind, rfl, hfront, hmissing,
        herror⟩
      · refine .inl ⟨List.forall_mem_cons.mpr ⟨hholds, hrest⟩, below :: found, ?_,
          .cons hbelow hall⟩
        rw [hbelow, hfound]
        rfl
      · refine .inr ⟨a :: front, b, behind, rfl, List.forall_mem_cons.mpr ⟨hholds, hfront⟩,
          hmissing, ?_⟩
        rw [hbelow, herror]
        rfl

theorem mergeSort_ordered (paths : List Path) :
    (paths.mergeSort fun p q => p.compare q != .gt).Pairwise fun p q => p.compare q ≠ .gt := by
  refine (List.pairwise_mergeSort ?_ ?_ paths).imp fun h => by simpa using h
  · intro p q r hpq hqr
    simp only [bne_iff_ne, ne_eq, ← Ordering.isLE_iff_ne_gt] at *
    exact Std.TransCmp.isLE_trans hpq hqr
  · intro p q
    have hswap : p.compare q = .gt ↔ q.compare p = .lt := Std.OrientedCmp.gt_iff_lt
    rw [Bool.or_eq_true, bne_iff_ne, bne_iff_ne, ne_eq, ne_eq, hswap]
    cases q.compare p <;> simp

/-- A path is one of those that an argument stands for: the argument itself if it is a file, and
otherwise what is found below it. -/
def Brings (d : Disk) (a p : Path) : Prop :=
  (∃ content, d.entry a = .ok (.file content)) ∧ p.components = a.components ∨
  ∃ entries, d.entry a = .ok (.directory entries) ∧
    ∃ between name, SourceBelow entries between name ∧
    p.components = a.components ++ (between ++ [name]).map .name

theorem brings_iff {d : Disk} (hd : d.root.Proper) {a : Path} {below : List Path}
    (h : sourcesAt d a = .ok below) {p : Path} :
    Brings d a p ↔ ∃ q ∈ below, q.components = p.components := by
  rw [sourcesAt] at h
  cases hentry : d.entry a with
  | error fault =>
    rw [hentry] at h
    cases h
  | ok e =>
    obtain ⟨hproper, htext⟩ := Disk.proper_of_entry hd hentry
    rw [hentry] at h
    cases e with
    | file content =>
      obtain rfl := Except.ok.inj h
      simp [Brings, hentry, eq_comm]
    | directory entries =>
      obtain rfl := Except.ok.inj h
      have hcomponents : ∀ between name, SourceBelow entries between name →
          (a.extend (between ++ [name])).components = a.components ++
            (between ++ [name]).map .name := by
        intro between name hbelow
        obtain ⟨content, hfile⟩ := hbelow.file
        exact Path.components_extend htext (hproper.isName hfile)
      rw [Brings, hentry]
      simp only [sourcesBelow, mem_sourcesAmong hproper]
      constructor
      · rintro (⟨⟨content, hfile⟩, _⟩ | ⟨_, hsame, between, name, hbelow, hp⟩)
        · cases hfile
        · cases hsame
          exact ⟨_, ⟨between, name, hbelow, rfl⟩, (hcomponents between name hbelow).trans hp.symm⟩
      · rintro ⟨q, ⟨between, name, hbelow, rfl⟩, hp⟩
        exact .inr ⟨entries, rfl, between, name, hbelow,
          hp.symm.trans (hcomponents between name hbelow)⟩

theorem exists_mem_flatten_iff {d : Disk} (hd : d.root.Proper) {paths : List Path}
    {found : List (List Path)} (h : List.Forall₂ (fun a below => sourcesAt d a =
      .ok below) paths found) (p : Path) :
    (∃ q ∈ found.flatten, q.components = p.components) ↔ ∃ a ∈ paths, Brings d a p := by
  induction h with
  | nil => simp
  | cons hfirst _ ih =>
    simp only [List.flatten_cons, List.mem_append, List.mem_cons, or_and_right, exists_or,
      exists_eq_left, ih, brings_iff hd hfirst]

/-- **What is collected.** If an argument leads nowhere, the first such argument is the fault.
Otherwise the paths come in strict order, and they are, up to how they are written, the arguments
that are files and the source files below arguments that are directories, where no directory on the
way is hidden or build output. -/
theorem collect_exact {d : Disk} (hd : d.root.Proper) (paths : List Path) :
    ((∃ a ∈ paths, d.holds a = false) → ∃ front a rest, paths = front ++ a :: rest ∧
      (∀ b ∈ front, d.holds b = true) ∧ d.holds a = false ∧ collect d paths = .error a) ∧
    ((∀ a ∈ paths, d.holds a = true) → ∃ files, collect d paths = .ok files ∧
      files.Pairwise (fun p q => p.compare q = .lt) ∧
        files.Pairwise (fun p q => p.components ≠ q.components) ∧
      ∀ p, (∃ q ∈ files, q.components = p.components) ↔ ∃ a ∈ paths, Brings d a p) := by
  rcases mapM_sourcesAt d paths with
    ⟨hholds, found, hfound, hall⟩ | ⟨front, a, rest, hpaths, hfront, hmissing, herror⟩
  · have hordered := dropRepeats_increasing (mergeSort_ordered found.flatten)
    refine ⟨fun ⟨a, ha, hmissing⟩ => ?_,
      fun _ => ⟨dropRepeats (found.flatten.mergeSort _), ?_, hordered, ?_, fun p => ?_⟩⟩
    · rw [hholds a ha] at hmissing
      cases hmissing
    · rw [collect, hfound]
      rfl
    · refine hordered.imp fun hlt heq => ?_
      rw [Path.compare_eq_eq_iff.mpr heq] at hlt
      cases hlt
    · rw [exists_mem_dropRepeats_iff, ← exists_mem_flatten_iff hd hall]
      simp only [List.mem_mergeSort]
  · refine ⟨fun _ => ⟨front, a, rest, hpaths, hfront, hmissing, ?_⟩, fun hholds => ?_⟩
    · rw [collect, herror]
      rfl
    · rw [hholds a (by simp [hpaths])] at hmissing
      cases hmissing

/-- A hidden directory that is named itself, with a hidden file in it and build output. -/
def sampleDisk : Disk where
  root := .directory [(".h", .directory [(".a.rs", .file .empty), ("b.md", .file .empty),
    ("target", .directory [("c.rs", .file .empty)])])]
  here := []

theorem proper_sampleDisk : sampleDisk.root.Proper := by
  refine .directory (by decide) (by decide) ?_
  simp only [List.forall_mem_singleton]
  refine .directory (by decide) (by decide) ?_
  simp only [List.forall_mem_cons]
  refine ⟨.file _, .file _, .directory (by decide) (by decide) ?_, by simp⟩
  simpa using Entry.Proper.file _

theorem collect_exact_sample : sampleDisk.root.Proper ∧ sampleDisk.holds ⟨"./.h/"⟩ = true ∧
    SourceBelow [(".a.rs", .file .empty), ("b.md", .file .empty),
      ("target", .directory [("c.rs", .file .empty)])] [] ".a.rs" ∧
    (∃ files, collect sampleDisk [⟨"./.h/"⟩] = .ok files ∧
      ∃ q ∈ files, q.components = Path.components ⟨"./.h/.a.rs"⟩) ∧
    ∃ a, sampleDisk.holds a = false ∧ collect sampleDisk [⟨"./.h/"⟩, ⟨"x"⟩] = .error a := by
  have hholds : sampleDisk.holds ⟨"./.h/"⟩ = true := by decide +kernel
  have hbelow : SourceBelow [(".a.rs", .file .empty), ("b.md", .file .empty),
      ("target", .directory [("c.rs", .file .empty)])] [] ".a.rs" :=
    ⟨⟨_, rfl⟩, ⟨".a", by decide, by decide⟩, by simp⟩
  obtain ⟨files, hok, _, _, hfiles⟩ := (collect_exact proper_sampleDisk [⟨"./.h/"⟩]).2
    (by simpa using hholds)
  obtain ⟨_, a, _, _, _, hmissing, herror⟩ := (collect_exact proper_sampleDisk [⟨"./.h/"⟩, ⟨"x"⟩]).1
    ⟨⟨"x"⟩, by simp, by decide +kernel⟩
  refine ⟨proper_sampleDisk, hholds, hbelow,
    ⟨files, hok, (hfiles _).mpr ⟨_, List.mem_singleton.mpr rfl, .inr ?_⟩⟩, a, hmissing, herror⟩
  exact ⟨_, rfl, [], ".a.rs", hbelow, by decide +kernel⟩

end CalleeFirst.Files
