import Mathlib.Data.Char
import Mathlib.Data.List.Lex
import Mathlib.Order.Bounds.Basic
import Unjar.Archive
import Unjar.Proofs.OutputTree

/-!
What the command-line decompiler pushes.

For each class the decompiler runs a process and collects what it leaves.  If the process cannot be
run, or does not end well in time, the work fails and nothing has been pushed, whatever was left.
Otherwise the sources are pushed: the files with the right names, each once, in the order of their
paths, which are compared component by component.  A directory may have the name of a source, too;
then the work breaks off there, and the sources in front of it have been pushed.

What a process writes are bytes, and they are read as a text however it ends, even where the text is
not looked at afterwards.  So a process that writes what is no text breaks the work off, also where it
would have failed or been collected otherwise.  How bytes are read is a matter of the machine, and
nothing is assumed of it.

Main definitions:

* `Unjar.Cfr.IsSource` — the locations that have the name of a source;
* `Unjar.Cfr.AreSources` — **the sources in a tree**, in order;
* `Unjar.Cfr.IsSourceDirectory`, `Unjar.Cfr.StopsAt` — directories under such names, and the sources
  on both sides of the first;
* `Unjar.Cfr.Leaves` — what the process leaves for an entry;
* `Unjar.Cfr.HasFailed`, `Unjar.Cfr.HasObstacle`, `Unjar.Cfr.IsReady` — **how the process goes**;
* `Unjar.Decompilation.Fails`, `Unjar.Decompilation.Pushes`, `Unjar.Decompilation.BreaksOff` — the
  ends that the work may come to.

Main results:

* `Unjar.Path.suffix_name_ofText` — the file that a class is put into;
* `Unjar.Cfr.mem_sources`, `Unjar.Cfr.sorted_sources` — what is collected, and in which order;
* `Unjar.Cfr.decompile_pushes_sources` — **all or nothing, and exactly the sources**.
-/

set_option autoImplicit false

namespace Unjar

/-! ### The file of a class -/

namespace Path

theorem name_ofText_append {name : Text} (h : IsName name) (front : Text) :
    (ofText (front ++ '/' :: name)).name = name := by
  have hfilter : [name].filter (fun part => !(part.isEmpty || part == ['.'])) = [name] := by
    simp [h.nonempty, h.not_dot]
  rw [Path.name, ofText]
  dsimp only
  rw [splitOn_append_cons, splitOn_of_not_mem h.no_slash, List.filter_append, hfilter,
    List.getLast?_concat]
  rfl

/-- **The name of a path ends as the text does.** -/
theorem suffix_name_ofText {ending t : Text} (hending : IsName ending) (hlong : 1 < ending.length)
    (h : ending <:+ t) : ending <:+ (ofText t).name := by
  obtain ⟨front, rfl⟩ := h
  have hname {last : Text} (hlast : '/' ∉ last) : IsName (last ++ ending) := by
    refine ⟨by simp [hending.nonempty], fun hdot => ?_, by simp [hlast, hending.no_slash]⟩
    have hlength := congrArg List.length hdot
    rw [List.length_append, List.length_singleton] at hlength
    omega
  by_cases hslash : '/' ∈ front
  · obtain ⟨before, last, rfl, hlast⟩ : ∃ before last, front = before ++ '/' :: last ∧
        '/' ∉ last := by
      have hreverse := List.eq_append_cons_of_mem (List.mem_reverse.mpr hslash)
      obtain ⟨a, b, hab, ha⟩ := hreverse
      refine ⟨b.reverse, a.reverse, ?_, by simpa using ha⟩
      rw [← List.reverse_reverse front, hab]
      simp
    rw [List.append_assoc, List.cons_append, name_ofText_append (hname hlast)]
    exact List.suffix_append last ending
  · rw [ofText_of_isName (hname hslash)]
    exact List.suffix_append front ending

end Path

/-! ### The ends of the work -/

namespace Decompilation

/-- **The work fails** and nothing was pushed. -/
structure Fails (d : Decompilation) : Prop where
  pushed : d.pushed = []
  outcome : ∃ failure, d.outcome = .failed failure
  returned : d.returned? = none

/-- **The work is finished** and certain texts were pushed. -/
structure Pushes (d : Decompilation) (texts : List (Text × Text)) : Prop where
  pushed : d.pushed = texts
  outcome : d.outcome = .finished
  returned : d.returned? = some texts.length

/-- **The work breaks off** at an obstacle, and nothing more is pushed. -/
structure BreaksOff (d : Decompilation) (obstacle : Obstacle) (texts : List (Text × Text)) :
    Prop where
  pushed : d.pushed = texts
  outcome : d.outcome = .obstructed obstacle
  returned : d.returned? = none

end Decompilation

namespace Cfr

open FileTree

/-! ### Sources -/

/-- Whether the name at a location is that of a source. -/
def IsSource (here : Location) : Prop := sourceSuffix <:+ here.getLast?.getD []

instance (here : Location) : Decidable (IsSource here) :=
  inferInstanceAs (Decidable (_ <:+ _))

/-- **The sources in a tree**: the files that have their names, in the order of their paths. -/
structure AreSources (t : FileTree) (files : List (Location × Bytes)) : Prop where
  sorted : files.Pairwise fun a b => a.1 < b.1
  mem : ∀ file, file ∈ files ↔ t.get? file.1 = some (.file file.2) ∧ IsSource file.1

/-- The text of a source, with its line ends unified, and its path as the hint. -/
def pushedOf (file : Location × Bytes) : Text × Text :=
  (Text.unifyLineEnds (Utf8.decodeLossy file.2), joinWith ['/'] file.1)

/-- **A directory under the name of a source.** -/
structure IsSourceDirectory (t : FileTree) (here : Location) : Prop where
  directory : t.get? here = some .directory
  source : IsSource here

/-- **The work stops at a directory**: the first under the name of a source.  The files in front of
it and those behind it are the sources. -/
structure StopsAt (t : FileTree) (dir : Location) (front behind : List (Location × Bytes)) :
    Prop where
  first : IsLeast {here | IsSourceDirectory t here} dir
  sources : AreSources t (front ++ behind)
  below : ∀ file ∈ front, file.1 < dir
  above : ∀ file ∈ behind, dir < file.1

section

variable {t u : FileTree} {entry : Location × Node} {here : Location}

/-! ### What is collected -/

theorem mem_nodes_of_mem_sources (h : entry ∈ sources t) : entry ∈ t.nodes := by
  have hmem : entry ∈ t.nodes.filter _ := (List.mergeSort_perm _ _).mem_iff.mp h
  exact List.mem_of_mem_filter hmem

theorem mem_sources (h : t.IsOutput) :
    entry ∈ sources t ↔ t.get? entry.1 = some entry.2 ∧ IsSource entry.1 := by
  have hne : IsSource entry.1 → entry.1 ≠ [] := by
    intro hsource hempty
    rw [hempty] at hsource
    exact absurd hsource (by decide)
  rw [sources, (List.mergeSort_perm _ _).mem_iff, List.mem_filter, h.mem_nodes,
    List.isSuffixOf_iff_suffix]
  constructor
  · rintro ⟨⟨-, hentry⟩, hsource⟩
    exact ⟨hentry, hsource⟩
  · rintro ⟨hentry, hsource⟩
    exact ⟨⟨hne hsource, hentry⟩, hsource⟩

/-- **What is collected is in the order of paths**, which are compared component by component. -/
theorem sorted_sources (h : t.IsOutput) : (sources t).Pairwise fun a b => a.1 < b.1 := by
  have hle : (sources t).Pairwise fun a b => !(decide (b.1 < a.1)) := by
    refine List.pairwise_mergeSort (fun a b c hab hbc => ?_) (fun a b => ?_) _
    · simp only [Bool.not_eq_true', decide_eq_false_iff_not, not_lt] at hab hbc ⊢
      exact hab.trans hbc
    · simp only [Bool.or_eq_true, Bool.not_eq_true', decide_eq_false_iff_not, not_lt]
      exact le_total a.1 b.1
  have hne : (sources t).Pairwise fun a b => a.1 ≠ b.1 := by
    refine List.pairwise_map.mp ?_
    refine ((List.mergeSort_perm _ _).map Prod.fst).nodup_iff.mpr ?_
    exact h.distinct.sublist (List.filter_sublist.map Prod.fst)
  refine (hle.and hne).imp fun hab => ?_
  simp only [Bool.not_eq_true', decide_eq_false_iff_not, not_lt] at hab
  exact lt_of_le_of_ne hab.1 hab.2

/-- What is collected is found by its order. -/
theorem sources_eq_of_perm (h : t.IsOutput) {entries : List (Location × Node)}
    (hsorted : entries.Pairwise fun a b => a.1 < b.1)
    (hperm : entries.Perm (t.nodes.filter fun entry =>
      sourceSuffix.isSuffixOf (entry.1.getLast?.getD []))) : sources t = entries :=
  ((List.mergeSort_perm _ _).trans hperm.symm).eq_of_pairwise
    (fun _ _ _ _ hab hba => absurd hab hba.asymm) (sorted_sources h) hsorted

/-- The file that stands at a location, if it is one. -/
def file? : Location × Node → Option (Location × Bytes)
  | (here, .file content) => some (here, content)
  | _ => none

theorem file?_eq_some {file : Location × Bytes} :
    file? entry = some file ↔ entry = (file.1, .file file.2) := by
  obtain ⟨here, _ | content | entries⟩ := entry
  · simp [file?]
  · simp [file?, Prod.ext_iff]
  · simp [file?]

/-- The files among what is collected are the sources. -/
theorem areSources_filterMap (h : t.IsOutput) : AreSources t ((sources t).filterMap file?) where
  sorted := by
    refine List.Pairwise.filterMap file? (fun a a' haa' b hb b' hb' => ?_) (sorted_sources h)
    rw [file?_eq_some] at hb hb'
    rwa [hb, hb'] at haa'
  mem file := by
    simp only [List.mem_filterMap, file?_eq_some, mem_sources h]
    constructor
    · rintro ⟨_, hentry, rfl⟩
      exact hentry
    · exact fun hfile => ⟨_, hfile, rfl⟩

theorem isSourceDirectory_iff (h : t.IsOutput) :
    IsSourceDirectory t here ↔ (here, Node.directory) ∈ sources t := by
  rw [mem_sources h]
  exact ⟨fun hhere => ⟨hhere.directory, hhere.source⟩, fun hhere => ⟨hhere.1, hhere.2⟩⟩

/-! ### Trees with the same nodes -/

theorem AreSources.congr {files : List (Location × Bytes)} (h : AreSources u files)
    (hget : ∀ here, u.get? here = t.get? here) : AreSources t files :=
  ⟨h.sorted, fun file => by rw [h.mem, hget]⟩

theorem IsSourceDirectory.congr (h : IsSourceDirectory u here)
    (hget : ∀ here, u.get? here = t.get? here) : IsSourceDirectory t here :=
  ⟨hget here ▸ h.directory, h.source⟩

theorem StopsAt.congr {dir : Location} {front behind : List (Location × Bytes)}
    (h : StopsAt u dir front behind) (hget : ∀ here, u.get? here = t.get? here) :
    StopsAt t dir front behind where
  first := ⟨h.first.1.congr hget, fun _ hother =>
    h.first.2 (IsSourceDirectory.congr hother fun here => (hget here).symm)⟩
  sources := h.sources.congr hget
  below := h.below
  above := h.above

/-! ### Collecting -/

/-- Files and directories in a row are files only, or files up to a first directory. -/
theorem files_or_directory (entries : List (Location × Node))
    (hplain : ∀ entry ∈ entries, ∀ es, entry.2 ≠ .archive es) :
    (∃ files : List (Location × Bytes), entries = files.map fun f => (f.1, .file f.2)) ∨
      ∃ (files : List (Location × Bytes)) (here : Location) (more : List (Location × Node)),
        entries = files.map (fun f => (f.1, .file f.2)) ++ (here, .directory) :: more := by
  induction entries with
  | nil => exact .inl ⟨[], rfl⟩
  | cons entry entries ih =>
      rw [List.forall_mem_cons] at hplain
      obtain ⟨here, _ | content | es⟩ := entry
      · exact .inr ⟨[], here, entries, rfl⟩
      · rcases ih hplain.2 with ⟨files, rfl⟩ | ⟨files, there, more, rfl⟩
        · exact .inl ⟨(here, content) :: files, rfl⟩
        · exact .inr ⟨(here, content) :: files, there, more, rfl⟩
      · exact absurd rfl (hplain.1 es)

theorem collect_files (files : List (Location × Bytes)) :
    collect (files.map fun f => (f.1, .file f.2)) = (files.map pushedOf, false) := by
  induction files with
  | nil => rfl
  | cons file files ih =>
      rw [List.map_cons, collect, ih]
      rfl

theorem collect_directory (files : List (Location × Bytes)) (here : Location)
    (more : List (Location × Node)) :
    collect (files.map (fun f => (f.1, .file f.2)) ++ (here, .directory) :: more) =
      (files.map pushedOf, true) := by
  induction files with
  | nil => rfl
  | cons file files ih =>
      rw [List.map_cons, List.cons_append, collect, ih]
      rfl

theorem filterMap_file?_files (files : List (Location × Bytes)) :
    (files.map fun f => (f.1, Node.file f.2)).filterMap file? = files := by
  rw [List.filterMap_map]
  exact List.filterMap_some

/-- What is collected consists of files only, or of files up to a first directory. -/
theorem sources_cases (h : t.IsOutput) :
    (∃ files : List (Location × Bytes), sources t = files.map fun f => (f.1, .file f.2)) ∨
      ∃ (files : List (Location × Bytes)) (here : Location) (more : List (Location × Node)),
        sources t = files.map (fun f => (f.1, .file f.2)) ++ (here, .directory) :: more :=
  files_or_directory (sources t) fun entry hentry =>
    h.plain entry (mem_nodes_of_mem_sources hentry)

/-- **Without a directory among them** exactly the sources are collected. -/
theorem collect_sources (h : t.IsOutput) (hnone : ¬∃ here, IsSourceDirectory t here) :
    ∃ files, AreSources t files ∧ collect (sources t) = (files.map pushedOf, false) := by
  have hareSources := areSources_filterMap h
  rcases sources_cases h with ⟨files, hfiles⟩ | ⟨files, here, more, hmeets⟩
  · rw [hfiles, filterMap_file?_files] at hareSources
    rw [hfiles]
    exact ⟨files, hareSources, collect_files files⟩
  · have hhere : (here, Node.directory) ∈ sources t := by simp [hmeets]
    exact absurd ⟨here, (isSourceDirectory_iff h).mpr hhere⟩ hnone

/-- **With a directory among them** the sources in front of the first one are collected. -/
theorem collect_sources_of_directory (h : t.IsOutput) (hsome : ∃ here, IsSourceDirectory t here) :
    ∃ dir files more, StopsAt t dir files more ∧
      collect (sources t) = (files.map pushedOf, true) := by
  have hareSources := areSources_filterMap h
  have hsorted := sorted_sources h
  rcases sources_cases h with ⟨files, hfiles⟩ | ⟨files, dir, more, hmeets⟩
  · obtain ⟨here, hhere⟩ := hsome
    rw [isSourceDirectory_iff h, hfiles] at hhere
    simp at hhere
  · rw [hmeets, List.filterMap_append, filterMap_file?_files,
      List.filterMap_cons_none rfl] at hareSources
    rw [hmeets, List.pairwise_append, List.pairwise_cons] at hsorted
    obtain ⟨-, ⟨hbehind, -⟩, hfront⟩ := hsorted
    have hdir : IsSourceDirectory t dir := by
      rw [isSourceDirectory_iff h, hmeets]
      simp
    refine ⟨dir, files, more.filterMap file?, ⟨⟨hdir, fun other hother => ?_⟩, hareSources,
      fun file hfile => ?_, fun file hfile => ?_⟩, ?_⟩
    · have hmem : (other, Node.directory) ∈ sources t := (isSourceDirectory_iff h).mp hother
      rw [hmeets, List.mem_append, List.mem_cons] at hmem
      rcases hmem with hfile | heq | hmore
      · simp at hfile
      · cases heq
        exact le_rfl
      · exact (hbehind _ hmore).le
    · exact hfront _ (List.mem_map_of_mem hfile) _ List.mem_cons_self
    · obtain ⟨entry, hentry, hfile⟩ := List.mem_filterMap.mp hfile
      have hbelow := hbehind entry hentry
      rwa [file?_eq_some.mp hfile] at hbelow
    · rw [hmeets]
      exact collect_directory files dir more

end

/-! ### The work -/

/-- What the process leaves for an entry is, location by location, a certain tree. -/
def Leaves (c : Cfr) (entry : Text) (t : FileTree) : Prop :=
  ∀ here, (outputTree (c.process (Path.ofText entry).name).outputs).get? here = t.get? here

/-- The end of the process for an entry. -/
def endFor (c : Cfr) (entry : Text) : ProcessEnd := (c.process (Path.ofText entry).name).finish

/-- **The process fails**: there is nothing to run, it is not run to its end, or it ends with an
error. -/
inductive HasFailed (c : Cfr) (tree : FileTree) (entry : Text) : Prop
  | notInstalled (missing : tree.isFile c.jar = false) : HasFailed c tree entry
  | notFound (installed : tree.isFile c.jar = true) (ended : c.endFor entry = .notFound) :
      HasFailed c tree entry
  | timedOut (installed : tree.isFile c.jar = true) (ended : c.endFor entry = .timedOut) :
      HasFailed c tree entry
  | exited {code : Int} {output errors : Bytes} {texts : Text × Text}
      (installed : tree.isFile c.jar = true)
      (ended : c.endFor entry = .exited code output errors)
      (legible : c.readStreams output errors = .ok texts) (wrong : code ≠ 0) :
      HasFailed c tree entry

/-- **The process meets an obstacle**: it is refused, or it writes what cannot be read. -/
inductive HasObstacle (c : Cfr) (tree : FileTree) (entry : Text) : Obstacle → Prop
  | refused {complaint : Text} (installed : tree.isFile c.jar = true)
      (ended : c.endFor entry = .refused complaint) : HasObstacle c tree entry (.refused complaint)
  | illegible {code : Int} {output errors : Bytes} {complaint : Text}
      (installed : tree.isFile c.jar = true)
      (ended : c.endFor entry = .exited code output errors)
      (complains : c.readStreams output errors = .error complaint) :
      HasObstacle c tree entry (.illegible complaint)

/-- **What the process leaves is collected**: the decompiler is there, the process ends well, and what
it wrote can be read. -/
structure IsReady (c : Cfr) (tree : FileTree) (entry : Text) : Prop where
  installed : tree.isFile c.jar = true
  ended : ∃ output errors texts, c.endFor entry = .exited 0 output errors ∧
    c.readStreams output errors = .ok texts

section

variable {c : Cfr} {tree : FileTree} {bytes : Bytes} {entry : Text}

/-- A class can be put into a file of its own. -/
theorem name_of_class (hclass : Archive.classSuffix <:+ entry) :
    ((Path.ofText entry).name.isEmpty || (Path.ofText entry).name == Path.up) = false := by
  have hsuffix : Archive.classSuffix <:+ (Path.ofText entry).name :=
    Path.suffix_name_ofText ⟨by decide, by decide, by decide⟩ (by decide) hclass
  rw [Bool.or_eq_false_iff]
  constructor
  · rw [List.isEmpty_eq_false_iff]
    intro hempty
    rw [hempty] at hsuffix
    exact absurd hsuffix (by decide)
  · rw [beq_eq_false_iff_ne]
    intro hup
    rw [hup] at hsuffix
    exact absurd hsuffix (by decide)

/-- **The process goes in one of three ways.** -/
theorem goes (c : Cfr) (tree : FileTree) (entry : Text) :
    c.HasFailed tree entry ∨ (∃ obstacle, c.HasObstacle tree entry obstacle) ∨
      c.IsReady tree entry := by
  cases hjar : tree.isFile c.jar with
  | false => exact .inl (.notInstalled hjar)
  | true =>
      cases hend : c.endFor entry with
      | timedOut => exact .inl (.timedOut hjar hend)
      | notFound => exact .inl (.notFound hjar hend)
      | refused complaint => exact .inr (.inl ⟨_, .refused hjar hend⟩)
      | exited code output errors =>
          cases hread : c.readStreams output errors with
          | error complaint => exact .inr (.inl ⟨_, .illegible hjar hend hread⟩)
          | ok texts =>
              by_cases hcode : code = 0
              · exact .inr (.inr ⟨hjar, output, errors, texts, hcode ▸ hend, hread⟩)
              · exact .inl (.exited hjar hend hread hcode)

/-- The work on a class with the decompiler in its place is told by how the process ends. -/
theorem work_of_installed (handed : List (Text × Bytes)) (hclass : Archive.classSuffix <:+ entry)
    (hjar : tree.isFile c.jar = true) :
    c.decompile.work tree handed bytes entry =
      let commands := [(c.command (Path.ofText entry).name, bytes)]
      match c.endFor entry with
      | .timedOut => ⟨[], commands, .failed (.timedOut c.timeout entry)⟩
      | .notFound => ⟨[], commands, .failed (.programNotFound c.java)⟩
      | .refused complaint => ⟨[], commands, .obstructed (.refused complaint)⟩
      | .exited code output errors =>
        match c.readStreams output errors with
        | .error complaint => ⟨[], commands, .obstructed (.illegible complaint)⟩
        | .ok (_, errors) =>
          if code ≠ 0 then ⟨[], commands, .failed (.failed entry code errors)⟩
          else
            let (texts, met) :=
              collect (sources (outputTree (c.process (Path.ofText entry).name).outputs))
            ⟨texts, commands, if met then .obstructed .directory else .finished⟩ := by
  simp only [decompile, hjar, name_of_class hclass]
  rfl

theorem fails_of_hasFailed (handed : List (Text × Bytes))
    (hclass : Archive.classSuffix <:+ entry) (h : c.HasFailed tree entry) :
    (c.decompile.work tree handed bytes entry).Fails := by
  cases h with
  | notInstalled hjar =>
      simp only [decompile, hjar]
      exact ⟨rfl, ⟨_, rfl⟩, rfl⟩
  | notFound hjar hend =>
      rw [work_of_installed handed hclass hjar, hend]
      exact ⟨rfl, ⟨_, rfl⟩, rfl⟩
  | timedOut hjar hend =>
      rw [work_of_installed handed hclass hjar, hend]
      exact ⟨rfl, ⟨_, rfl⟩, rfl⟩
  | exited hjar hend hread hcode =>
      rw [work_of_installed handed hclass hjar, hend]
      dsimp only
      rw [hread]
      dsimp only
      rw [if_pos hcode]
      exact ⟨rfl, ⟨_, rfl⟩, rfl⟩

theorem breaksOff_of_hasObstacle (handed : List (Text × Bytes)) {obstacle : Obstacle}
    (hclass : Archive.classSuffix <:+ entry) (h : c.HasObstacle tree entry obstacle) :
    (c.decompile.work tree handed bytes entry).BreaksOff obstacle [] := by
  cases h with
  | refused hjar hend =>
      rw [work_of_installed handed hclass hjar, hend]
      exact ⟨rfl, rfl, rfl⟩
  | illegible hjar hend hread =>
      rw [work_of_installed handed hclass hjar, hend]
      dsimp only
      rw [hread]
      exact ⟨rfl, rfl, rfl⟩

/-- The work on a class whose process ends well. -/
theorem work_of_isReady (handed : List (Text × Bytes)) (hclass : Archive.classSuffix <:+ entry)
    (hready : c.IsReady tree entry) {texts : List (Text × Text)} {met : Bool}
    (hcollect : collect (sources (outputTree (c.process (Path.ofText entry).name).outputs)) =
      (texts, met)) :
    c.decompile.work tree handed bytes entry = ⟨texts,
      [(c.command (Path.ofText entry).name, bytes)],
      if met then .obstructed .directory else .finished⟩ := by
  obtain ⟨hjar, output, errors, streams, hend, hread⟩ := hready
  rw [work_of_installed handed hclass hjar, hend]
  dsimp only
  rw [hread, hcollect]
  rfl

end

/-- **All or nothing, and exactly the sources.**  A process that fails leaves the work failed with
nothing pushed, one that meets an obstacle breaks it off there, and in all other cases the sources
among what it left are pushed, up to the first directory under the name of a source. -/
theorem decompile_pushes_sources {t : FileTree} (ht : t.IsDirectoryTree) :
    (∃ outputs, ∀ here, (outputTree outputs).get? here = t.get? here) ∧
      ∀ (c : Cfr) (tree : FileTree) (handed : List (Text × Bytes)) (bytes : Bytes) (entry : Text),
        Archive.classSuffix <:+ entry → c.Leaves entry t →
          (c.HasFailed tree entry → (c.decompile.work tree handed bytes entry).Fails) ∧
          (∀ obstacle, c.HasObstacle tree entry obstacle →
            (c.decompile.work tree handed bytes entry).BreaksOff obstacle []) ∧
          (c.IsReady tree entry → (¬∃ dir, IsSourceDirectory t dir) →
            ∃ files, AreSources t files ∧
              (c.decompile.work tree handed bytes entry).Pushes (files.map pushedOf)) ∧
          (c.IsReady tree entry → (∃ dir, IsSourceDirectory t dir) →
            ∃ dir files more, StopsAt t dir files more ∧
              (c.decompile.work tree handed bytes entry).BreaksOff .directory
                (files.map pushedOf)) ∧
          (c.HasFailed tree entry ∨ (∃ obstacle, c.HasObstacle tree entry obstacle) ∨
            c.IsReady tree entry) := by
  refine ⟨exists_outputTree_eq ht, fun c tree handed bytes entry hclass hleaves =>
    ⟨fails_of_hasFailed handed hclass, fun _ => breaksOff_of_hasObstacle handed hclass,
      fun hready hnone => ?_, fun hready hsome => ?_, c.goes tree entry⟩⟩
  · have hdirectory : ¬∃ dir, IsSourceDirectory
        (outputTree (c.process (Path.ofText entry).name).outputs) dir := by
      rintro ⟨dir, hdir⟩
      exact hnone ⟨dir, hdir.congr hleaves⟩
    obtain ⟨files, hsources, hcollect⟩ := collect_sources (isOutput_outputTree _) hdirectory
    refine ⟨files, hsources.congr hleaves, ?_⟩
    rw [work_of_isReady handed hclass hready hcollect]
    exact ⟨rfl, rfl, rfl⟩
  · have hdirectory : ∃ dir, IsSourceDirectory
        (outputTree (c.process (Path.ofText entry).name).outputs) dir := by
      obtain ⟨dir, hdir⟩ := hsome
      exact ⟨dir, hdir.congr fun here => (hleaves here).symm⟩
    obtain ⟨dir, files, more, hstops, hcollect⟩ :=
      collect_sources_of_directory (isOutput_outputTree _) hdirectory
    refine ⟨dir, files, more, hstops.congr hleaves, ?_⟩
    rw [work_of_isReady handed hclass hready hcollect]
    exact ⟨rfl, rfl, rfl⟩

/-- Files that a process may leave: as texts, the paths of the sources have another order. -/
def sampleOutputs : List (Text × Bytes) :=
  [("a.java".toList, Utf8.encode "class a \x7b\x7d\r\n".toList),
    ("a/B.java".toList, 0xFF :: Utf8.encode "class B \x7b\x7d".toList),
    ("a/notes".toList, [])]

/-- A decompiler whose process goes a certain way for every class, on a machine with texts in
UTF-8. -/
def running (run : ProcessRun) : Cfr where
  jar := .ofString "cfr.jar"
  java := "java".toList
  timeout := 60
  options := defaultOptions
  process _ := run
  readOutput := readUtf8

/-- A decompiler whose process leaves certain files for every class, and warns of something. -/
def leaving (outputs : List (Text × Bytes)) : Cfr :=
  running ⟨outputs, .exited 0 [] (Utf8.encode "old format\r\n".toList)⟩

theorem isReady_leaving (outputs : List (Text × Bytes)) {tree : FileTree}
    (hjar : tree.isFile (.ofString "cfr.jar") = true) (entry : Text) :
    (leaving outputs).IsReady tree entry := by
  have hread : (leaving []).readStreams [] (Utf8.encode "old format\r\n".toList) =
      .ok ([], "old format\n".toList) := by decide +kernel
  exact ⟨hjar, [], Utf8.encode "old format\r\n".toList, ([], "old format\n".toList), rfl, hread⟩

/-- A tree that holds the decompiler. -/
def holdingCfr : FileTree := ⟨[(["cfr.jar".toList], .file [])], [], []⟩

theorem decompile_pushes_sources_nested :
    (outputTree sampleOutputs).IsDirectoryTree ∧ ∃ files,
      AreSources (outputTree sampleOutputs) files ∧
      ((leaving sampleOutputs).decompile.work holdingCfr [] [] "A.class".toList).Pushes
        (files.map pushedOf) ∧
      files.map pushedOf = [("\uFFFDclass B \x7b\x7d".toList, "a/B.java".toList),
        ("class a \x7b\x7d\n".toList, "a.java".toList)] := by
  have houtput := isOutput_outputTree sampleOutputs
  have hsources : sources (outputTree sampleOutputs) =
      [(["a".toList, "B.java".toList], .file (0xFF :: Utf8.encode "class B \x7b\x7d".toList)),
        (["a.java".toList], .file (Utf8.encode "class a \x7b\x7d\r\n".toList))] :=
    sources_eq_of_perm houtput (by decide +kernel) (by decide +kernel)
  have hnone : ¬∃ dir, IsSourceDirectory (outputTree sampleOutputs) dir := by
    rintro ⟨dir, hdir⟩
    rw [isSourceDirectory_iff houtput, hsources] at hdir
    simp at hdir
  obtain ⟨-, hcollects⟩ := decompile_pushes_sources houtput.isDirectoryTree
  have hready : (leaving sampleOutputs).IsReady holdingCfr "A.class".toList :=
    isReady_leaving sampleOutputs (by decide) _
  obtain ⟨-, -, hpushes, -⟩ := hcollects (leaving sampleOutputs) holdingCfr [] [] "A.class".toList
    (by decide) fun _ => rfl
  obtain ⟨files, hfiles, hpushes⟩ := hpushes hready hnone
  have hcollect : collect (sources (outputTree sampleOutputs)) =
      ([("\uFFFDclass B \x7b\x7d".toList, "a/B.java".toList),
        ("class a \x7b\x7d\n".toList, "a.java".toList)], false) := by
    rw [hsources]
    decide +kernel
  refine ⟨houtput.isDirectoryTree, files, hfiles, hpushes, ?_⟩
  rw [← hpushes.pushed, work_of_isReady [] (by decide) hready hcollect]

/-- What a process leaves if a directory has the name of a source. -/
def strayOutputs : List (Text × Bytes) :=
  [("X.java/B.java".toList, Utf8.encode "class B \x7b\x7d\n".toList)]

/-- The work breaks off at that directory, and the source that stands in it is not pushed. -/
theorem decompile_meets_directory :
    ((leaving strayOutputs).decompile.work holdingCfr [] [] "A.class".toList).BreaksOff
      .directory [] := by
  have hsources : sources (outputTree strayOutputs) = [(["X.java".toList], .directory),
      (["X.java".toList, "B.java".toList], .file (Utf8.encode "class B \x7b\x7d\n".toList))] :=
    sources_eq_of_perm (isOutput_outputTree _) (by decide +kernel) (by decide +kernel)
  have hcollect : collect (sources (outputTree strayOutputs)) = ([], true) := by
    rw [hsources]
    rfl
  rw [work_of_isReady [] (by decide) (isReady_leaving strayOutputs (by decide) _) hcollect]
  exact ⟨rfl, rfl, rfl⟩

/-- A process that ends with an error and writes a letter in another encoding breaks the work off,
where with another letter it would have failed. -/
theorem decompile_meets_illegible :
    ((running ⟨[], .exited 1 [] [0x63, 0x61, 0x66, 0xE9]⟩).decompile.work holdingCfr [] []
        "A.class".toList).BreaksOff (.illegible
          "'utf-8' codec can't decode byte 0xe9 in position 3: unexpected end of data".toList) [] ∧
      ((running ⟨[], .exited 1 [] [0x63, 0x61, 0x66, 0x65]⟩).decompile.work holdingCfr [] []
        "A.class".toList).Fails := by
  have hread : (running ⟨[], .exited 1 [] [0x63, 0x61, 0x66, 0x65]⟩).readStreams []
      [0x63, 0x61, 0x66, 0x65] = .ok ([], "cafe".toList) := by decide +kernel
  exact ⟨breaksOff_of_hasObstacle [] (by decide) (.illegible (by decide) rfl (by decide +kernel)),
    fails_of_hasFailed [] (by decide) (.exited (by decide) rfl hread (by decide))⟩

end Cfr

end Unjar
