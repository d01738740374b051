import Mathlib.Data.Set.Lattice
import Unjar.Proofs.FileTree

/-!
What the operations leave alone.

An operation on files, whether it succeeds or fails half-way, changes little.  What it may do is
told by two sets of locations: at those of the one set anything may happen, at those of the other
directories may be made where nothing stood, and everywhere else all stays as it is.  A directory is
made only on the way of a path, that is, at a location to which a beginning of the path leads.

Main definitions:

* `Unjar.Path.way` — the locations on the way of a path;
* `Unjar.FileTree.Confined` — what has happened between two trees;
* `Unjar.FileTree.ConfinedFrom` — the same for trees with a given working directory.

Main results:

* `Unjar.FileTree.confined_makeDirectories`, `Unjar.FileTree.confined_writeFile`,
  `Unjar.FileTree.confined_removeTree`, `Unjar.FileTree.confined_replaceFile` — the operations;
* `Unjar.FileTree.removeTree_error` — a directory that is not removed;
* `Unjar.FileTree.replaceFile_error` — **a file that is not replaced** leaves everything as it was.
-/

set_option autoImplicit false

namespace Unjar

/-! ### Ways -/

namespace Path

/-- **The locations on the way of a path**, to which its beginnings lead. -/
def way (here : Location) (p : Path) : Set Location :=
  {there | ∃ front, front <+: p.parts ∧ there = normalize here ⟨p.root, front⟩}

theorem way_mono (here : Location) {p q : Path} (hroot : p.root = q.root)
    (hparts : p.parts <+: q.parts) : way here p ⊆ way here q := by
  rintro there ⟨front, hfront, rfl⟩
  exact ⟨front, hfront.trans hparts, by rw [hroot]⟩

theorem way_parent (here : Location) (p : Path) : way here p.parent ⊆ way here p :=
  way_mono here rfl (List.dropLast_prefix _)

/-- The way of a path behind another is the way of that one and then goes on from its end. -/
theorem way_append (here : Location) (p : Path) (parts : List Text) :
    way here ⟨p.root, p.parts ++ parts⟩ ⊆
      way here p ∪ way (normalize here p) ⟨0, parts⟩ := by
  rintro there ⟨front, hfront, rfl⟩
  rcases List.prefix_or_prefix_of_prefix hfront (List.prefix_append p.parts parts) with
    h | ⟨rest, rfl⟩
  · exact .inl ⟨front, h, rfl⟩
  · have hrest : rest <+: parts := (List.prefix_append_right_inj p.parts).mp hfront
    exact .inr ⟨rest, hrest, by simp [normalize]⟩

/-- The way of a path without pairs of dots never leads back. -/
theorem prefix_of_mem_way {here there : Location} {parts : List Text} (hup : up ∉ parts)
    (h : there ∈ way here ⟨0, parts⟩) : here <+: there := by
  obtain ⟨front, hfront, rfl⟩ := h
  rw [normalize_of_not_mem _ fun hmem => hup (hfront.subset hmem), if_pos rfl]
  exact List.prefix_append _ _

end Path

namespace FileTree

/-! ### Confinement -/

/-- **What has happened between two trees**: anything at the locations of `changed`, and at those of
`made` directories have been made where nothing stood. -/
structure Confined (made changed : Set Location) (t t' : FileTree) : Prop where
  working : t'.workingDirectory = t.workingDirectory
  nodes : ∀ here, here ∉ changed → t'.get? here = t.get? here ∨
    here ∈ made ∧ t.get? here = none ∧ t'.get? here = some .directory

/-- What has happened to a tree in which whoever works in it is `here`. -/
def ConfinedFrom (here : Location) (made changed : Set Location) (t t' : FileTree) : Prop :=
  t.workingDirectory = here → Confined made changed t t'

section

variable {here : Location} {made changed : Set Location} {t t' u : FileTree}

theorem Confined.refl (t : FileTree) : Confined made changed t t := ⟨rfl, fun _ _ => .inl rfl⟩

theorem Confined.trans (h : Confined made changed t t') (h' : Confined made changed t' u) :
    Confined made changed t u := by
  refine ⟨h'.working.trans h.working, fun there hthere => ?_⟩
  rcases h.nodes there hthere with hsame | ⟨hmade, hnone, hdirectory⟩
  · rw [← hsame]
    exact h'.nodes there hthere
  · -- once made, a directory is there, and nothing is made where it stands
    rcases h'.nodes there hthere with hsame | ⟨-, habsent, -⟩
    · exact .inr ⟨hmade, hnone, hsame.trans hdirectory⟩
    · rw [hdirectory] at habsent
      cases habsent

/-- Where a tree is confined, no file comes and none goes. -/
theorem Confined.file? (h : Confined made changed t t') {there : Location}
    (hthere : there ∉ changed) : t'.file? there = t.file? there := by
  rcases h.nodes there hthere with hsame | ⟨-, hnone, hdirectory⟩
  · rw [FileTree.file?, FileTree.file?, hsame]
  · simp [FileTree.file?, hnone, hdirectory, Node.isDirectory]

theorem ConfinedFrom.refl (t : FileTree) : ConfinedFrom here made changed t t :=
  fun _ => .refl t

theorem ConfinedFrom.trans (h : ConfinedFrom here made changed t t')
    (h' : ConfinedFrom here made changed t' u) : ConfinedFrom here made changed t u :=
  fun hw => (h hw).trans (h' ((h hw).working.trans hw))

theorem confined_put {there : Location} (hne : there ≠ []) (hthere : there ∈ changed)
    (node : Node) : Confined made changed t (t.put there node) := by
  refine ⟨rfl, fun other hother => .inl ?_⟩
  have ho : other ≠ there := fun he => hother (he ▸ hthere)
  rw [get?_put hne, if_neg ho]

theorem confined_put_directory {there : Location} (hnone : t.get? there = none)
    (hthere : there ∈ made ∪ changed) : Confined made changed t (t.put there .directory) := by
  have hne : there ≠ [] := by
    rintro rfl
    simp [get?] at hnone
  refine ⟨rfl, fun other hother => ?_⟩
  rw [get?_put hne]
  by_cases ho : other = there
  · exact .inr ⟨ho ▸ hthere.resolve_right (ho ▸ hother), ho ▸ hnone, by rw [if_pos ho]⟩
  · exact .inl (by rw [if_neg ho])

end

/-! ### The operations -/

section

variable {here : Location} {made changed : Set Location} {p : Path} {content : Bytes}

theorem confined_makeDirectory (hmade : Path.normalize here p ∈ made ∪ changed) :
    Keeps (ConfinedFrom here made changed) (makeDirectory p) := by
  rintro t rfl
  simp only [makeDirectory, outcome_bind, outcome_target, outcome_get]
  rcases hl : t.locate p with fault | there
  · exact .refl t
  · cases hn : t.get? there with
    | some node => simpa [hn] using .refl t
    | none => simpa [hn] using confined_put_directory hn (locate_eq hl ▸ hmade)

/-- **Making a directory** and those above it makes them on the way of the path. -/
theorem confined_makeDirectories (hmade : Path.way here p ⊆ made ∪ changed) :
    Keeps (ConfinedFrom here made changed) (makeDirectories p) :=
  keeps_makeDirectories_of .refl .trans fun front hfront =>
    confined_makeDirectory (hmade ⟨front, hfront, rfl⟩)

/-- **Writing a file** changes what stands where its path leads. -/
theorem confined_writeFile (hchanged : Path.normalize here p ∈ changed) :
    Keeps (ConfinedFrom here made changed) (writeFile p content) := by
  rintro t rfl
  simp only [writeFile, outcome_bind, outcome_target, outcome_get]
  rcases hl : t.locate p with fault | there
  · exact .refl t
  · rw [← locate_eq hl] at hchanged
    dsimp only
    split
    · exact .refl t
    · next hn =>
      refine confined_put (fun he => hn ?_) hchanged _
      simp [he, get?]

/-- **Removing a directory** by its name changes what stands there and beneath. -/
theorem confined_removeTree (hparts : p.parts ≠ []) (hname : p.name ≠ Path.up)
    (hchanged : ∀ there, Path.normalize here p <+: there → there ∈ changed) :
    Keeps (ConfinedFrom here made changed) (removeTree p) := by
  rintro t rfl
  simp only [removeTree, outcome_bind, outcome_target, outcome_get]
  rcases hl : t.locate p with fault | there
  · exact .refl t
  · rw [← locate_eq hl] at hchanged
    dsimp only
    split
    · exact .refl t
    · have hempty : p.parts.isEmpty = false := by simpa using hparts
      have hup : (p.name == Path.up) = false := by simpa using hname
      simp only [hempty, hup, Bool.false_eq_true, if_false]
      split
      · exact .refl t
      · refine ⟨rfl, fun other hother => .inl ?_⟩
        by_cases hroot : there = []
        · exact absurd (hchanged other (hroot ▸ List.nil_prefix)) hother
        · rw [outcome_modify, get?_prune t hroot, if_neg fun hp => hother (hchanged other hp)]
    · exact .refl t

variable {t t' : FileTree} {fault : FileFault}

/-- A file that is not written leaves the tree as it is. -/
theorem writeFile_error (h : outcome (writeFile p content) t = (.error fault, t')) : t' = t := by
  simp only [writeFile, outcome_bind, outcome_target, outcome_get] at h
  rcases hl : t.locate p with cause | there
  · rw [hl] at h
    cases h
    rfl
  · rw [hl] at h
    dsimp only at h
    split at h <;> cases h
    rfl

/-- A file that is not moved leaves the tree as it is. -/
theorem rename_error {source : Location} (h : outcome (rename source p) t = (.error fault, t')) :
    t' = t := by
  simp only [rename, outcome_bind, outcome_target, outcome_get] at h
  rcases hl : t.locate p with cause | there
  · rw [hl] at h
    cases h
    rfl
  · rw [hl] at h
    dsimp only at h
    split at h <;> cases h <;> rfl

/-- The name of a new file is none of two dots. -/
theorem ne_up_of_freeName {directory : Location} {name : Text}
    (h : t.freeName directory (candidateNames t p.name) = some name) : name ≠ Path.up := by
  obtain ⟨k, -, rfl⟩ := List.mem_map.mp (List.mem_of_find?_eq_some h)
  intro he
  have hlong := congrArg List.length he
  simp [Path.up] at hlong
  omega

/-- **A file that is not replaced** leaves everything as it was. -/
theorem replaceFile_error (hup : Path.up ∉ Path.normalize t.workingDirectory p.parent)
    (h : outcome (replaceFile p content) t = (.error fault, t')) : t' = t := by
  simp only [replaceFile, outcome_bind, outcome_get] at h
  generalize hdirectory : Path.normalize t.workingDirectory p.parent = directory at h hup
  cases hname : t.freeName directory (candidateNames t p.name) with
  | none =>
      rw [hname] at h
      cases h
      rfl
  | some name =>
      rw [hname] at h
      dsimp only at h
      have hfree := freeName_eq_some hname
      have hsource : Path.normalize t.workingDirectory ⟨1, directory ++ [name]⟩ =
          directory ++ [name] := by
        refine Path.normalize_of_not_mem _ ?_
        rw [List.mem_append, not_or, List.mem_singleton]
        exact ⟨hup, (ne_up_of_freeName hname).symm⟩
      simp only [outcome_bind] at h
      rcases hwrite : outcome (writeFile ⟨1, directory ++ [name]⟩ content) t with ⟨cause | u, t₁⟩
      · rw [hwrite] at h
        cases h
        exact writeFile_error hwrite
      · rw [hwrite] at h
        obtain ⟨rfl, -⟩ := writeFile_returns hwrite
        rw [hsource] at h
        simp only [outcome_tryCatch] at h
        generalize ht₁ : t.put (directory ++ [name]) (.file content) = t₁ at h
        rcases hmove : outcome (rename (directory ++ [name]) p) t₁ with ⟨cause | u, t₂⟩
        · rw [hmove] at h
          simp only [outcome_bind, outcome_modify, outcome_throw, Prod.mk.injEq] at h
          obtain ⟨-, rfl⟩ := h
          -- what the write had put there is gone, and nothing stood there before
          rw [rename_error hmove, ← ht₁]
          exact erase_put hfree _
        · rw [hmove] at h
          cases h

/-- **Replacing a file** changes what stands where its path leads, and nothing when it fails. -/
theorem confined_replaceFile (hup : Path.up ∉ Path.normalize here p.parent)
    (hchanged : Path.normalize here p ∈ changed) :
    Keeps (ConfinedFrom here made changed) (replaceFile p content) := by
  rintro t rfl
  rcases hr : outcome (replaceFile p content) t with ⟨fault | u, t'⟩
  · rw [replaceFile_error hup hr]
    exact .refl t
  · obtain ⟨hwork, hnodes⟩ := get?_of_replaceFile hr
    refine ⟨hwork, fun there hthere => .inl ?_⟩
    have hne : there ≠ Path.normalize t.workingDirectory p := fun he => hthere (he ▸ hchanged)
    rw [hnodes, if_neg hne]

end

end FileTree

end Unjar
