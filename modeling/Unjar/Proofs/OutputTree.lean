import Mathlib.Data.List.Nodup
import Unjar.Decompiler
import Unjar.Proofs.Making
import Unjar.Proofs.Path
import Unjar.Proofs.Segments

/-!
What a process leaves behind.

A process leaves a tree of files and directories in its output directory.  The tree comes about node
by node: the directories above a path are made, and then a file is written there, unless a directory
stands in its place.  So everything in it has a name and stands in a directory and under one
location, whatever the process writes, and in whatever order; and every tree of files and
directories is left by some process.

Main definitions:

* `Unjar.FileTree.IsOutput` — what holds of every tree that is left;
* `Unjar.FileTree.IsDirectoryTree` — **trees of files and directories**, with names.

Main results:

* `Unjar.Path.ofText_joinWith` — a path of names, put together;
* `Unjar.FileTree.IsOutput.mem_nodes` — the nodes of a tree that is left;
* `Unjar.FileTree.IsOutput.isDirectoryTree` — it is a tree of files and directories;
* `Unjar.Cfr.isOutput_outputTree` — **what a process leaves is such a tree**;
* `Unjar.Cfr.exists_outputTree_eq` — **every tree of files and directories** is left by some process.
-/

set_option autoImplicit false

namespace Unjar

/-! ### Paths of names -/

theorem Path.ofText_joinWith {names : List Text} (hne : names ≠ [])
    (h : ∀ name ∈ names, IsName name) : ofText (joinWith ['/'] names) = ⟨0, names⟩ := by
  have hsplit : splitOn '/' (joinWith ['/'] names) = names :=
    splitOn_joinWith hne fun name hname => (h name hname).no_slash
  have hroot : (joinWith ['/'] names).takeWhile (· == '/') = [] := by
    obtain ⟨name, more, rfl⟩ := List.exists_cons_of_ne_nil hne
    rw [List.forall_mem_cons] at h
    obtain ⟨c, r, rfl⟩ := List.exists_cons_of_ne_nil h.1.nonempty
    have hc : c ≠ '/' := fun heq => h.1.no_slash (by simp [heq])
    obtain ⟨t, ht⟩ : ∃ t, joinWith ['/'] ((c :: r) :: more) = c :: t := by
      cases more with
      | nil => exact ⟨r, rfl⟩
      | cons next more => exact ⟨_, rfl⟩
    rw [ht, List.takeWhile_cons_of_neg (by simpa using hc)]
  have hnames : names.filter (fun part => !(part.isEmpty || part == ['.'])) = names := by
    refine List.filter_eq_self.mpr fun name hname => ?_
    simp [(h name hname).nonempty, (h name hname).not_dot]
  unfold ofText
  rw [hsplit, hroot, hnames]
  rfl

namespace FileTree

variable {t u : FileTree} {here there : Location} {node : Node} {entry : Location × Node}

/-! ### Nodes -/

theorem mem_putIn {nodes : List (Location × Node)} (h : entry ∈ putIn here node nodes) :
    entry = (here, node) ∨ entry ∈ nodes := by
  induction nodes with
  | nil => exact .inl (List.mem_singleton.mp h)
  | cons first nodes ih =>
      unfold putIn at h
      split at h
      · exact (List.mem_cons.mp h).imp_right (List.mem_cons_of_mem _)
      · rcases List.mem_cons.mp h with rfl | h
        · exact .inr List.mem_cons_self
        · exact (ih h).imp_right (List.mem_cons_of_mem _)

theorem map_fst_putIn (here : Location) (node : Node) (nodes : List (Location × Node)) :
    (putIn here node nodes).map Prod.fst =
      if here ∈ nodes.map Prod.fst then nodes.map Prod.fst else nodes.map Prod.fst ++ [here] := by
  induction nodes with
  | nil => rfl
  | cons first nodes ih =>
      unfold putIn
      by_cases hfirst : first.1 = here
      · rw [if_pos hfirst, if_pos (by simp [hfirst])]
        simp [hfirst]
      · rw [if_neg hfirst, List.map_cons, ih, List.map_cons]
        by_cases hmem : here ∈ nodes.map Prod.fst
        · rw [if_pos hmem, if_pos (List.mem_cons_of_mem _ hmem)]
        · rw [if_neg hmem, if_neg (by simp [hmem, Ne.symm hfirst])]
          rfl

/-- **A tree that a process leaves**: files and directories, each under one location. -/
structure IsOutput (t : FileTree) : Prop where
  working : t.workingDirectory = []
  wellFormed : t.WellFormed
  distinct : (t.nodes.map Prod.fst).Nodup
  inside : ∀ entry ∈ t.nodes, entry.1 ≠ []
  names : ∀ entry ∈ t.nodes, ∀ name ∈ entry.1, Path.IsName name ∧ name ≠ Path.up
  plain : ∀ entry ∈ t.nodes, ∀ entries, entry.2 ≠ .archive entries

theorem isOutput_empty : IsOutput ⟨[], [], []⟩ where
  working := rfl
  wellFormed := wellFormed_of_nodes (List.forall_mem_nil _) rfl
  distinct := .nil
  inside := List.forall_mem_nil _
  names := List.forall_mem_nil _
  plain := List.forall_mem_nil _

namespace IsOutput

/-- The nodes are what stands at locations other than the root. -/
theorem mem_nodes (h : t.IsOutput) :
    entry ∈ t.nodes ↔ entry.1 ≠ [] ∧ t.get? entry.1 = some entry.2 := by
  have hget (hne : entry.1 ≠ []) : t.get? entry.1 = t.nodes.lookup entry.1 := by
    simp [get?, hne]
  constructor
  · intro hentry
    refine ⟨h.inside entry hentry, ?_⟩
    rw [hget (h.inside entry hentry)]
    exact lookup_eq_some_of_mem h.distinct hentry
  · rintro ⟨hne, hentry⟩
    rw [hget hne] at hentry
    exact mem_of_lookup_eq_some hentry

theorem put (h : t.IsOutput) (hne : here ≠ []) (hparent : t.get? here.dropLast = some .directory)
    (hnames : ∀ name ∈ here, Path.IsName name ∧ name ≠ Path.up)
    (hnode : t.get? here = some .directory → node = .directory)
    (hplain : ∀ entries, node ≠ .archive entries) : (t.put here node).IsOutput where
  working := h.working
  wellFormed := h.wellFormed.put hne hparent hnode
  distinct := by
    change ((putIn here node t.nodes).map Prod.fst).Nodup
    rw [map_fst_putIn]
    split
    · exact h.distinct
    · next hnew =>
      rw [← List.concat_eq_append]
      exact List.Nodup.concat hnew h.distinct
  inside := fun entry hentry => by
    rcases mem_putIn hentry with rfl | hentry
    · exact hne
    · exact h.inside entry hentry
  names := fun entry hentry => by
    rcases mem_putIn hentry with rfl | hentry
    · exact hnames
    · exact h.names entry hentry
  plain := fun entry hentry => by
    rcases mem_putIn hentry with rfl | hentry
    · exact hplain
    · exact h.plain entry hentry

end IsOutput

/-! ### Steps of a process -/

/-- Wherever a path leads, a directory is above. -/
theorem WellFormed.get?_dropLast_of_follow (h : t.WellFormed) {parts : List Text}
    (hhere : t.get? here.dropLast = some .directory) (hfollow : t.follow here parts = .ok there) :
    t.get? there.dropLast = some .directory := by
  induction parts generalizing here with
  | nil =>
      cases hfollow
      exact hhere
  | cons part parts ih =>
      unfold FileTree.follow at hfollow
      split at hfollow
      · next hdirectory =>
        refine ih ?_ hfollow
        unfold Path.step
        split
        · exact h.parent _ _ hhere
        · rwa [List.dropLast_concat]
      · cases hfollow
      · cases hfollow

theorem IsOutput.get?_dropLast_of_locate (h : t.IsOutput) {p : Path}
    (hlocate : t.locate p = .ok here) : t.get? here.dropLast = some .directory := by
  unfold locate at hlocate
  rw [h.working, ite_self] at hlocate
  exact h.wellFormed.get?_dropLast_of_follow rfl hlocate

theorem IsOutput.names_of_locate (h : t.IsOutput) {p : Path} (hp : p.Proper)
    (hlocate : t.locate p = .ok here) : ∀ name ∈ here, Path.IsName name ∧ name ≠ Path.up := by
  rw [locate_eq hlocate, h.working]
  exact fun name hname => ⟨hp.isName_of_mem_normalize (List.forall_mem_nil _) name hname, fun hup =>
    Path.up_not_mem_normalize (List.not_mem_nil) p (hup ▸ hname)⟩

theorem keeps_isOutput_makeDirectory {p : Path} (hp : p.Proper) :
    Keeps (fun t u : FileTree => t.IsOutput → u.IsOutput) (makeDirectory p) := by
  intro t ht
  cases hlocate : t.locate p with
  | error fault =>
      simp only [makeDirectory, outcome_bind, outcome_target, hlocate]
      exact ht
  | ok here =>
      rw [outcome_makeDirectory hlocate]
      split
      · next hnone =>
        have hne : here ≠ [] := by
          rintro rfl
          cases hnone
        exact ht.put hne (ht.get?_dropLast_of_locate hlocate) (ht.names_of_locate hp hlocate)
          (fun _ => rfl) (by simp)
      · exact ht

theorem keeps_isOutput_writeFile {p : Path} (hp : p.Proper) (content : Bytes) :
    Keeps (fun t u : FileTree => t.IsOutput → u.IsOutput) (writeFile p content) := by
  intro t ht
  cases hlocate : t.locate p with
  | error fault =>
      simp only [writeFile, outcome_bind, outcome_target, hlocate]
      exact ht
  | ok here =>
      by_cases hdirectory : t.get? here = some .directory
      · simp only [writeFile, outcome_bind, outcome_target, hlocate, outcome_get, hdirectory]
        exact ht
      · have hreturns : outcome (writeFile p content) t = (.ok (), t.put here (.file content)) :=
          returns_writeFile hlocate hdirectory
        have hne : here ≠ [] := by
          rintro rfl
          exact hdirectory rfl
        rw [hreturns]
        exact ht.put hne (ht.get?_dropLast_of_locate hlocate) (ht.names_of_locate hp hlocate)
          (fun h => absurd h hdirectory) (by simp)

theorem keeps_isOutput_makeDirectories {p : Path} (hp : p.Proper) :
    Keeps (fun t u : FileTree => t.IsOutput → u.IsOutput) (makeDirectories p) :=
  keeps_makeDirectories_of (fun _ h => h) (fun htu huv h => huv (htu h)) fun _ hfront =>
    keeps_isOutput_makeDirectory fun part hpart => hp part (hfront.subset hpart)

/-! ### Every tree -/

/-- **A tree of files and directories** whose names are names. -/
structure IsDirectoryTree (t : FileTree) : Prop where
  working : t.workingDirectory = []
  wellFormed : t.WellFormed
  names : ∀ here node, t.get? here = some node → ∀ name ∈ here, Path.IsName name ∧ name ≠ Path.up
  plain : ∀ here entries, t.get? here ≠ some (.archive entries)

/-- What a process leaves is a tree of files and directories. -/
theorem IsOutput.isDirectoryTree (h : t.IsOutput) : t.IsDirectoryTree where
  working := h.working
  wellFormed := h.wellFormed
  names := fun here node hnode => by
    by_cases hempty : here = []
    · rw [hempty]
      exact List.forall_mem_nil _
    · exact h.names (here, node) (h.mem_nodes.mpr ⟨hempty, hnode⟩)
  plain := fun here entries hnode => by
    by_cases hempty : here = []
    · rw [hempty] at hnode
      cases hnode
    · exact h.plain (here, _) (h.mem_nodes.mpr ⟨hempty, hnode⟩) entries rfl

/-- What stands in one tree stands in the other. -/
def Within (t u : FileTree) : Prop := ∀ here node, t.get? here = some node → u.get? here = some node

theorem IsDirectoryTree.up_not_mem (h : t.IsDirectoryTree) (hnode : t.get? here = some node) :
    Path.up ∉ here := fun hup => (h.names here node hnode Path.up hup).2 rfl

/-- A directory of a tree can be made in a part of that tree. -/
theorem IsDirectoryTree.exists_makes (h : t.IsDirectoryTree) (hu : u.IsOutput) (hwithin : u.Within t)
    (hnode : t.get? here = some .directory) :
    ∃ v, Returns (makeDirectories ⟨0, here⟩) u () v ∧ v.IsOutput ∧ u.Within v ∧ v.Within t ∧
      ∀ front, front <+: here → v.get? front = some .directory := by
  have hway : ∀ front, front <+: here → t.get? front = some .directory := by
    rintro front ⟨rest, rfl⟩
    by_cases hempty : rest = []
    · rwa [hempty, List.append_nil] at hnode
    · exact h.wellFormed.get?_of_prefix hnode hempty
  have hclear : u.Clear [] here := by
    intro front hfront
    cases hfound : u.get? ([] ++ front) with
    | none => exact .inl rfl
    | some found => exact .inr ((hwithin _ _ hfound).symm.trans (hway front hfront))
  have hroot : u.locate ⟨0, []⟩ = .ok [] := by
    rw [locate, hu.working, ite_self]
    rfl
  obtain ⟨v, hreturns, hmakes⟩ :=
    makeDirectories_returns hu.wellFormed hroot rfl (h.up_not_mem hnode) hclear
  have hproper : Path.Proper ⟨0, [] ++ here⟩ := fun name hname => (h.names _ _ hnode name hname).1
  have hkeeps := keeps_isOutput_makeDirectories hproper
  refine ⟨v, hreturns, hkeeps.of_returns hreturns hu, fun there found hfound => ?_,
    fun there found hfound => ?_, fun front hfront => ?_⟩
  · rw [hmakes.nodes]
    split
    · next hthere => rw [← hwithin _ _ hfound, hway there hthere.2]
    · exact hfound
  · rw [hmakes.nodes] at hfound
    split at hfound
    · next hthere =>
      cases hfound
      exact hway there hthere.2
    · exact hwithin _ _ hfound
  · rw [hmakes.nodes, if_pos ⟨List.nil_prefix, hfront⟩]

end FileTree

namespace Cfr

open FileTree

/-- The steps that place one output. -/
theorem placeOutput_eq (t : FileTree) (output : Text × Bytes) : placeOutput t output =
    (outcome (do
      makeDirectories (Path.ofText output.1).parent
      writeFile (Path.ofText output.1) output.2) t).2 := rfl

theorem isOutput_placeOutput {t : FileTree} (h : t.IsOutput) (output : Text × Bytes) :
    (placeOutput t output).IsOutput := by
  have hproper := Path.proper_ofText output.1
  have hmake : Keeps (fun t u : FileTree => t.IsOutput → u.IsOutput)
      (makeDirectories (Path.ofText output.1).parent) :=
    keeps_isOutput_makeDirectories fun part hpart => hproper part (List.dropLast_subset _ hpart)
  exact hmake.bind (fun htu huv h => huv (htu h))
    (fun _ => keeps_isOutput_writeFile hproper output.2) t h

/-- **What a process leaves**, whatever it writes. -/
theorem isOutput_outputTree (outputs : List (Text × Bytes)) : (outputTree outputs).IsOutput := by
  unfold outputTree
  generalize hstart : (⟨[], [], []⟩ : FileTree) = t
  have ht : t.IsOutput := hstart ▸ isOutput_empty
  clear hstart
  induction outputs generalizing t with
  | nil => exact ht
  | cons output outputs ih => exact ih _ (isOutput_placeOutput ht output)

section

variable {t u : FileTree} {here : Location} {node : Node}

theorem isName_up : Path.IsName Path.up := ⟨by decide, by decide, by decide⟩

/-- What an output does to a tree, once the directories above it are made. -/
theorem placeOutput_of_returns {v : FileTree} {names : List Text} {last : Text} (content : Bytes)
    (hnames : ∀ name ∈ names ++ [last], Path.IsName name)
    (h : Returns (makeDirectories ⟨0, names⟩) u () v) :
    placeOutput u (joinWith ['/'] (names ++ [last]), content) =
      (outcome (writeFile ⟨0, names ++ [last]⟩ content) v).2 := by
  have hpath : Path.ofText (joinWith ['/'] (names ++ [last])) = ⟨0, names ++ [last]⟩ :=
    Path.ofText_joinWith (by simp) hnames
  have hparent : Path.parent ⟨0, names ++ [last]⟩ = ⟨0, names⟩ := by
    rw [Path.parent, List.dropLast_concat]
  rw [placeOutput_eq, hpath, hparent, outcome_bind, show outcome _ u = (.ok (), v) from h]

/-- **One node more**: what stands in a tree of files and directories can be put into a part of it. -/
theorem exists_placeOutput (h : t.IsDirectoryTree) (hu : u.IsOutput) (hwithin : u.Within t)
    (hne : here ≠ []) (hnode : t.get? here = some node) :
    ∃ output, u.Within (placeOutput u output) ∧ (placeOutput u output).Within t ∧
      (placeOutput u output).get? here = some node := by
  have hup := h.up_not_mem hnode
  have hnames : ∀ name ∈ here, Path.IsName name := fun name hname =>
    (h.names here node hnode name hname).1
  cases node with
  | archive entries => exact absurd hnode (h.plain here entries)
  | directory =>
      -- the two dots lead to a directory, so that none of it is written
      obtain ⟨v, hreturns, hv, huv, hvt, hway⟩ := h.exists_makes hu hwithin hnode
      have hlocate : v.locate ⟨0, here ++ [Path.up]⟩ = .ok here.dropLast := by
        have hhere : v.get? ([] ++ here ++ []) = some .directory := by
          simpa using hway here List.prefix_rfl
        rw [locate, hv.working, ite_self, follow_append,
          hv.wellFormed.follow hup hhere]
        change v.follow here [Path.up] = _
        rw [follow, hway here List.prefix_rfl]
        rfl
      have hdirectory : v.get? here.dropLast = some .directory :=
        hv.wellFormed.parent here .directory (hway here List.prefix_rfl)
      have hplaced : placeOutput u (joinWith ['/'] (here ++ [Path.up]), []) = v := by
        rw [placeOutput_of_returns [] ?_ hreturns]
        · simp only [writeFile, outcome_bind, outcome_target, hlocate, outcome_get, hdirectory]
          rfl
        · rw [List.forall_mem_append, List.forall_mem_singleton]
          exact ⟨hnames, isName_up⟩
      refine ⟨(joinWith ['/'] (here ++ [Path.up]), []), ?_⟩
      rw [hplaced]
      exact ⟨huv, hvt, hway here List.prefix_rfl⟩
  | file content =>
      obtain ⟨names, last, rfl⟩ : ∃ names last, here = names ++ [last] :=
        ⟨_, _, (List.dropLast_append_getLast hne).symm⟩
      have hparent : t.get? names = some .directory := by
        simpa using h.wellFormed.parent _ _ hnode
      obtain ⟨v, hreturns, hv, huv, hvt, hway⟩ := h.exists_makes hu hwithin hparent
      have hlocate : v.locate ⟨0, names ++ [last]⟩ = .ok (names ++ [last]) := by
        rw [locate, hv.working, ite_self]
        exact follow_of_directories hup hway
      have hfile : v.get? (names ++ [last]) ≠ some .directory := by
        intro hdirectory
        rw [hvt _ _ hdirectory] at hnode
        cases hnode
      have hplaced : placeOutput u (joinWith ['/'] (names ++ [last]), content) =
          v.put (names ++ [last]) (.file content) := by
        rw [placeOutput_of_returns content hnames hreturns]
        exact congrArg Prod.snd (returns_writeFile hlocate hfile)
      refine ⟨(joinWith ['/'] (names ++ [last]), content), ?_⟩
      rw [hplaced]
      refine ⟨fun there found hfound => ?_, fun there found hfound => ?_, ?_⟩
      · rw [get?_put hne]
        split
        · next hthere => rw [← hnode, ← hthere, hwithin _ _ hfound]
        · exact huv _ _ hfound
      · rw [get?_put hne] at hfound
        split at hfound
        · next hthere =>
          cases hfound
          rwa [hthere]
        · exact hvt _ _ hfound
      · rw [get?_put hne, if_pos rfl]

/-- **Every tree of files and directories** is left by some process. -/
theorem exists_outputTree_eq (h : t.IsDirectoryTree) :
    ∃ outputs, ∀ here, (outputTree outputs).get? here = t.get? here := by
  have hlist (places : List Location) : ∃ outputs, (outputTree outputs).Within t ∧
      ∀ here ∈ places, ∀ node, t.get? here = some node →
        (outputTree outputs).get? here = some node := by
    induction places with
    | nil =>
        refine ⟨[], fun here node hnode => ?_, List.forall_mem_nil _⟩
        by_cases hempty : here = []
        · subst hempty
          exact hnode
        · simp [outputTree, get?, hempty] at hnode
    | cons here places ih =>
        obtain ⟨outputs, hwithin, hplaces⟩ := ih
        by_cases hdone : here = [] ∨ t.get? here = none
        · refine ⟨outputs, hwithin, List.forall_mem_cons.mpr ⟨fun node hnode => ?_, hplaces⟩⟩
          rcases hdone with rfl | hnone
          · exact hnode
          · rw [hnone] at hnode
            cases hnode
        · rw [not_or] at hdone
          obtain ⟨node, hnode⟩ := Option.ne_none_iff_exists'.mp hdone.2
          obtain ⟨output, hmore, hall, hhere⟩ :=
            exists_placeOutput h (isOutput_outputTree outputs) hwithin hdone.1 hnode
          have hconcat : outputTree (outputs ++ [output]) =
              placeOutput (outputTree outputs) output := by
            rw [outputTree, List.foldl_append]
            rfl
          refine ⟨outputs ++ [output], ?_⟩
          rw [hconcat]
          refine ⟨hall, List.forall_mem_cons.mpr ⟨fun found hfound => ?_, ?_⟩⟩
          · rw [hhere, ← hnode, hfound]
          · exact fun there hthere found hfound => hmore _ _ (hplaces there hthere found hfound)
  obtain ⟨outputs, hwithin, hplaces⟩ := hlist (t.nodes.map Prod.fst)
  refine ⟨outputs, fun here => ?_⟩
  cases hnode : t.get? here with
  | none =>
      cases hfound : (outputTree outputs).get? here with
      | none => rfl
      | some found => rw [← hnode, hwithin _ _ hfound]
  | some node =>
      by_cases hempty : here = []
      · subst hempty
        exact hnode
      · have hlookup : t.nodes.lookup here = some node := by simpa [get?, hempty] using hnode
        exact hplaces here (List.mem_map.mpr ⟨_, mem_of_lookup_eq_some hlookup, rfl⟩) node hnode

end

end Cfr

end Unjar
