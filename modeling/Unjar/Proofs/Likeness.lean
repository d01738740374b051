import Mathlib.Data.List.Forall2
import Unjar.Pom.File
import Unjar.Proofs.FileTree
import Unjar.ProjectLayout

/-!
Files that nobody looks into.

An operation on files moves archives and removes them, but it does not look into them.  So two trees
that differ only in what their archives hold stay so whatever is done to both, and what is done ends
the same way.  Which contents may stand for one another is left open here: any relation will do.

Main definitions:

* `Unjar.Respects` — a computation ends the same way from states that are alike;
* `Unjar.Node.Alike`, `Unjar.FileTree.Alike` — **trees that differ in their archives** only.

Main results:

* `Unjar.Respects.bind`, `Unjar.Respects.tryCatch`, `Unjar.Respects.forM` — what is made of parts;
* `Unjar.FileTree.Alike.get?`, `Unjar.FileTree.Alike.locate` — looking at trees that are alike;
* `Unjar.FileTree.respects_makeDirectories`, `Unjar.FileTree.respects_writeFile`,
  `Unjar.FileTree.respects_removeTree`, `Unjar.FileTree.respects_replaceFile` — the operations;
* `Unjar.Placement.accept_alike`, `Unjar.Placement.copyResource_alike`,
  `Unjar.ProjectLayout.create_alike`, `Unjar.ProjectDescriptor.writeTo_alike` — what a run does to
  the files.
-/

set_option autoImplicit false

namespace Unjar

/-! ### Computations from states that are alike -/

section

variable {ε σ α β : Type} {S : σ → σ → Prop} {x : ExceptT ε (StateM σ) α}
  {f : α → ExceptT ε (StateM σ) β}

/-- Two ends are alike: one result or fault, and states that are alike. -/
def EndAlike (S : σ → σ → Prop) (ending ending' : α × σ) : Prop :=
  ∃ a t t', ending = (a, t) ∧ ending' = (a, t') ∧ S t t'

/-- **A computation respects states that are alike**: from them it comes to ends that are alike. -/
def Respects (S : σ → σ → Prop) (x : ExceptT ε (StateM σ) α) : Prop :=
  ∀ s s', S s s' → EndAlike S (outcome x s) (outcome x s')

theorem EndAlike.intro {S : σ → σ → Prop} (a : α) {t t' : σ} (h : S t t') :
    EndAlike S (a, t) (a, t') := ⟨a, t, t', rfl, rfl, h⟩

theorem respects_pure (a : α) : Respects S (pure a : ExceptT ε (StateM σ) α) :=
  fun _ _ h => .intro _ h

theorem respects_throw (e : ε) : Respects S (throw e : ExceptT ε (StateM σ) α) :=
  fun _ _ h => .intro _ h

theorem respects_modify {g : σ → σ} (hg : ∀ s s', S s s' → S (g s) (g s')) :
    Respects S (modify g : ExceptT ε (StateM σ) PUnit) := fun s s' h => .intro _ (hg s s' h)

theorem Respects.bind (hx : Respects S x) (hf : ∀ a, Respects S (f a)) : Respects S (x >>= f) := by
  intro s s' h
  obtain ⟨result, t, t', hs, hs', ht⟩ := hx s s' h
  rw [outcome_bind, outcome_bind, hs, hs']
  cases result with
  | error e => exact .intro _ ht
  | ok a => exact hf a t t' ht

theorem Respects.tryCatch {handle : ε → ExceptT ε (StateM σ) α} (hx : Respects S x)
    (hh : ∀ e, Respects S (handle e)) : Respects S (tryCatch x handle) := by
  intro s s' h
  obtain ⟨result, t, t', hs, hs', ht⟩ := hx s s' h
  rw [outcome_tryCatch, outcome_tryCatch, hs, hs']
  cases result with
  | error e => exact hh e t t' ht
  | ok a => exact .intro _ ht

theorem Respects.forM {f : α → ExceptT ε (StateM σ) PUnit} {l : List α}
    (hf : ∀ a ∈ l, Respects S (f a)) : Respects S (l.forM f) := by
  induction l with
  | nil => exact respects_pure _
  | cons a l ih =>
      rw [List.forall_mem_cons] at hf
      exact hf.1.bind fun _ => ih hf.2

/-- The state may be read where what is done with it comes to ends that are alike. -/
theorem respects_get_bind {f : σ → ExceptT ε (StateM σ) β}
    (hf : ∀ s s', S s s' → EndAlike S (outcome (f s) s) (outcome (f s') s')) :
    Respects S (get >>= f) := by
  intro s s' h
  rw [outcome_bind, outcome_bind]
  exact hf s s' h

end

/-! ### Trees that are alike -/

/-- **What stands at a location of two trees that are alike**: the same, but archives may differ. -/
inductive Node.Alike (R : List (Text × Bytes) → List (Text × Bytes) → Prop) : Node → Node → Prop
  | directory : Alike R .directory .directory
  | file (content : Bytes) : Alike R (.file content) (.file content)
  | archive {content content' : List (Text × Bytes)} (h : R content content') :
      Alike R (.archive content) (.archive content')

namespace FileTree

/-- **Trees that differ in their archives** only. -/
structure Alike (R : List (Text × Bytes) → List (Text × Bytes) → Prop) (t t' : FileTree) :
    Prop where
  working : t.workingDirectory = t'.workingDirectory
  nodes : t.nodes.Forall₂ (fun entry entry' => entry.1 = entry'.1 ∧ entry.2.Alike R entry'.2)
    t'.nodes
  links : t.links = t'.links

variable {R : List (Text × Bytes) → List (Text × Bytes) → Prop} {t t' : FileTree}

namespace Alike

/-- At each location stands the same, but for the contents of an archive. -/
theorem get? (h : t.Alike R t') (here : Location) :
    Option.Rel (Node.Alike R) (t.get? here) (t'.get? here) := by
  unfold FileTree.get?
  split
  · exact .some .directory
  · have hnodes := h.nodes
    revert hnodes
    generalize t.nodes = nodes
    generalize t'.nodes = nodes'
    intro hnodes
    induction hnodes with
    | nil => exact .none
    | @cons entry entry' nodes nodes' hentry hnodes ih =>
        obtain ⟨there, node⟩ := entry
        obtain ⟨there', node'⟩ := entry'
        obtain ⟨hthere, hnode⟩ := hentry
        obtain rfl : there = there' := hthere
        rw [lookup_cons, lookup_cons]
        split
        · exact .some hnode
        · exact ih

theorem isNone_get? (h : t.Alike R t') (here : Location) :
    (t.get? here).isNone = (t'.get? here).isNone := by
  have hnode := h.get? here
  revert hnode
  generalize t.get? here = node
  generalize t'.get? here = node'
  rintro (_ | _)
  · rfl
  · rfl

theorem follow (h : t.Alike R t') (here : Location) (parts : List Text) :
    t.follow here parts = t'.follow here parts := by
  induction parts generalizing here with
  | nil => rfl
  | cons part parts ih =>
      unfold FileTree.follow
      have hnode := h.get? here
      revert hnode
      generalize t.get? here = node
      generalize t'.get? here = node'
      rintro (⟨_ | _ | _⟩ | _)
      · exact ih _
      · rfl
      · rfl
      · rfl

/-- **A path leads to the same location**, or fails in the same way. -/
theorem locate (h : t.Alike R t') (p : Path) : t.locate p = t'.locate p := by
  rw [FileTree.locate, FileTree.locate, h.working, h.follow]

theorem stat (h : t.Alike R t') (p : Path) :
    Option.Rel (Node.Alike R) (t.stat p) (t'.stat p) := by
  unfold FileTree.stat
  rw [h.locate]
  cases t'.locate p with
  | error fault => exact .none
  | ok here => exact h.get? here

theorem isDirectory (h : t.Alike R t') (p : Path) : t.isDirectory p = t'.isDirectory p := by
  unfold FileTree.isDirectory
  have hnode := h.stat p
  revert hnode
  generalize t.stat p = node
  generalize t'.stat p = node'
  rintro (⟨_ | _ | _⟩ | _) <;> rfl

theorem isFile (h : t.Alike R t') (p : Path) : t.isFile p = t'.isFile p := by
  unfold FileTree.isFile
  have hnode := h.stat p
  revert hnode
  generalize t.stat p = node
  generalize t'.stat p = node'
  rintro (⟨_ | _ | _⟩ | _) <;> rfl

theorem exists? (h : t.Alike R t') (p : Path) : t.exists? p = t'.exists? p := by
  unfold FileTree.exists?
  have hnode := h.stat p
  revert hnode
  generalize t.stat p = node
  generalize t'.stat p = node'
  rintro (_ | _) <;> rfl

/-! ### Changes -/

theorem put (h : t.Alike R t') {here : Location} {node node' : Node} (hnode : node.Alike R node') :
    (t.put here node).Alike R (t'.put here node') := by
  refine ⟨h.working, ?_, h.links⟩
  have hnodes := h.nodes
  unfold FileTree.put
  dsimp only
  revert hnodes
  generalize t.nodes = nodes
  generalize t'.nodes = nodes'
  intro hnodes
  induction hnodes with
  | nil => exact .cons ⟨rfl, hnode⟩ .nil
  | @cons entry entry' nodes nodes' hentry hnodes ih =>
      obtain ⟨there, other⟩ := entry
      obtain ⟨there', other'⟩ := entry'
      obtain ⟨hthere, hother⟩ := hentry
      obtain rfl : there = there' := hthere
      unfold putIn
      split
      · exact .cons ⟨rfl, hnode⟩ hnodes
      · exact .cons ⟨rfl, hother⟩ ih

theorem filter (h : t.Alike R t') (keep : Location → Bool) :
    (t.nodes.filter fun entry => keep entry.1).Forall₂
      (fun entry entry' => entry.1 = entry'.1 ∧ entry.2.Alike R entry'.2)
      (t'.nodes.filter fun entry => keep entry.1) :=
  List.rel_filter (fun entry entry' hentry => by dsimp only; rw [hentry.1]) h.nodes

/-- Locations may be left out. -/
theorem restrict (h : t.Alike R t') (keep : Location → Bool) :
    (t.restrict keep).Alike R (t'.restrict keep) :=
  ⟨h.working, h.filter keep, congrArg (List.filter keep) h.links⟩

theorem erase (h : t.Alike R t') (here : Location) : (t.erase here).Alike R (t'.erase here) :=
  ⟨h.working, h.filter fun there => there ≠ here, h.links⟩

end Alike

/-! ### Operations -/

theorem respects_target (p : Path) : Respects (Alike R) (target p) := by
  refine respects_get_bind fun t t' h => ?_
  rw [h.locate]
  cases t'.locate p <;> exact .intro _ h

theorem respects_makeDirectory (p : Path) : Respects (Alike R) (makeDirectory p) := by
  refine (respects_target p).bind fun here => respects_get_bind fun t t' h => ?_
  have hnode := h.get? here
  revert hnode
  generalize t.get? here = node
  generalize t'.get? here = node'
  rintro (_ | _)
  · exact .intro _ h
  · exact .intro _ (h.put .directory)

theorem respects_settle (p : Path) (fault : FileFault) : Respects (Alike R) (settle p fault) := by
  refine respects_get_bind fun t t' h => ?_
  rw [h.isDirectory]
  split <;> exact .intro _ h

theorem respects_makeDirectoriesTo (p : Path) (depth : Nat) :
    Respects (Alike R) (makeDirectoriesTo p depth) := by
  have hsettle : ∀ (here : Path) (fault : FileFault), Respects (Alike R)
      (if fault = .notFound then throw fault else settle here fault) := by
    intro here fault
    split
    · exact respects_throw fault
    · exact respects_settle here fault
  induction depth with
  | zero => exact (respects_makeDirectory _).tryCatch fun fault => hsettle _ fault
  | succ depth ih =>
      refine (respects_makeDirectory _).tryCatch fun fault => ?_
      split
      · exact ih.bind fun _ => (respects_makeDirectory _).tryCatch fun fault => hsettle _ fault
      · exact respects_settle _ fault

/-- **Making a directory** and those above it. -/
theorem respects_makeDirectories (p : Path) : Respects (Alike R) (makeDirectories p) :=
  respects_makeDirectoriesTo p _

/-- **Writing a file**, be it over an archive. -/
theorem respects_writeFile (p : Path) (content : Bytes) :
    Respects (Alike R) (writeFile p content) := by
  refine (respects_target p).bind fun here => respects_get_bind fun t t' h => ?_
  have hnode := h.get? here
  revert hnode
  generalize t.get? here = node
  generalize t'.get? here = node'
  rintro (⟨_ | _ | _⟩ | _)
  · exact .intro _ h
  · exact .intro _ (h.put (.file content))
  · exact .intro _ (h.put (.file content))
  · exact .intro _ (h.put (.file content))

/-- **Removing a directory** with all beneath it. -/
theorem respects_removeTree (p : Path) : Respects (Alike R) (removeTree p) := by
  refine (respects_target p).bind fun here => respects_get_bind fun t t' h => ?_
  have hnode := h.get? here
  revert hnode
  generalize t.get? here = node
  generalize t'.get? here = node'
  rintro (⟨_ | _ | _⟩ | _)
  · dsimp only
    rw [h.links]
    split
    · exact .intro _ (h.restrict fun there => !Path.isBeneath there here)
    · split
      · exact .intro _ (h.restrict fun there => !Path.isBeneath there here)
      · split
        · exact .intro _ h
        · exact .intro _ (h.restrict fun there => !here.isPrefixOf there)
  · exact .intro _ h
  · exact .intro _ h
  · exact .intro _ h

/-- Moving a file, be it an archive. -/
theorem respects_rename (source : Location) (p : Path) : Respects (Alike R) (rename source p) := by
  refine (respects_target p).bind fun here => respects_get_bind fun t t' h => ?_
  have hnode := h.get? here
  have hsource := h.get? source
  rw [outcome_bind, outcome_bind, outcome_get, outcome_get]
  dsimp only
  revert hnode hsource
  generalize t.get? here = node
  generalize t'.get? here = node'
  generalize t.get? source = moved
  generalize t'.get? source = moved'
  have hmoved : ∀ {moved moved' : Node}, moved.Alike R moved' →
      ((t.erase source).put here moved).Alike R ((t'.erase source).put here moved') :=
    fun hmoved => (h.erase source).put hmoved
  rintro (⟨_ | _ | _⟩ | _) (hsource | _)
  · exact .intro _ h
  · exact .intro _ h
  · exact .intro _ (hmoved hsource)
  · exact .intro _ h
  · exact .intro _ (hmoved hsource)
  · exact .intro _ h
  · exact .intro _ (hmoved hsource)
  · exact .intro _ h

/-- The same names are free. -/
theorem Alike.freeName (h : t.Alike R t') (directory : Location) (name : Text) :
    t.freeName directory (t.candidateNames name) =
      t'.freeName directory (t'.candidateNames name) := by
  simp only [FileTree.freeName, candidateNames, h.nodes.length_eq, h.isNone_get?]

/-- **Replacing a file as a whole.** -/
theorem respects_replaceFile (p : Path) (content : Bytes) :
    Respects (Alike R) (replaceFile p content) := by
  refine respects_get_bind fun t t' h => ?_
  dsimp only
  rw [h.working, h.freeName]
  split
  · exact .intro _ h
  · refine Respects.bind (respects_writeFile _ _) (fun _ => ?_) t t' h
    refine (respects_rename _ p).tryCatch fun fault => ?_
    exact (respects_modify fun s s' hs => hs.erase _).bind fun _ => respects_throw fault

end FileTree

/-! ### Placing, making and writing -/

section

variable {R : List (Text × Bytes) → List (Text × Bytes) → Prop} {t t' : FileTree}

namespace Placement

theorem write_alike (file : Path) (content : Bytes) (h : t.Alike R t') :
    EndAlike (FileTree.Alike R) (write file content t) (write file content t') := by
  have hend : Respects (FileTree.Alike R) (writeWithParents file content) :=
    (FileTree.respects_makeDirectories _).bind fun _ => FileTree.respects_writeFile _ _
  obtain ⟨result, u, u', ht, ht', hu⟩ := hend t t' h
  refine ⟨result.mapError fun cause => ⟨file, cause⟩, u, u', ?_, ?_, hu⟩
  · rw [write, show (writeWithParents file content).run.run t = _ from ht]
  · rw [write, show (writeWithParents file content).run.run t' = _ from ht']

/-- Two ends of placing are alike: one result, one registry, and trees that are alike. -/
def PlacedAlike {α : Type} (R : List (Text × Bytes) → List (Text × Bytes) → Prop)
    (ending ending' : α × Placement × FileTree) : Prop :=
  ∃ a p t t', ending = (a, p, t) ∧ ending' = (a, p, t') ∧ FileTree.Alike R t t'

theorem PlacedAlike.intro {α : Type} (a : α) (p : Placement) (h : t.Alike R t') :
    PlacedAlike R (a, p, t) (a, p, t') := ⟨a, p, t, t', rfl, rfl, h⟩

/-- **Sources are placed alike.** -/
theorem accept_alike (p : Placement) (text : Text) (h : t.Alike R t') :
    PlacedAlike R (p.accept text t) (p.accept text t') := by
  unfold accept
  split
  · exact .intro _ _ h
  · dsimp only
    obtain ⟨result, u, u', ht, ht', hu⟩ := write_alike (p.destinationIn
      (JavaSource.declaredNames text).package (JavaSource.declaredNames text).typeName)
      (Utf8.encode (endLine text)) h
    rw [ht, ht']
    cases result <;> exact .intro _ _ hu

/-- **Resources are placed alike.** -/
theorem copyResource_alike (p : Placement) (relativePath : Text) (content : Bytes)
    (h : t.Alike R t') :
    PlacedAlike R (p.copyResource relativePath content t)
      (p.copyResource relativePath content t') := by
  unfold copyResource
  dsimp only
  rw [h.working]
  split
  · exact .intro _ _ h
  · obtain ⟨result, u, u', ht, ht', hu⟩ :=
      write_alike (p.resourceRoot.joinText relativePath) content h
    rw [ht, ht']
    cases result <;> exact .intro _ _ hu

end Placement

/-- **Projects are made alike.** -/
theorem ProjectLayout.create_alike (project : Path) (h : t.Alike R t') :
    EndAlike (FileTree.Alike R) (create project t) (create project t') := by
  have hmake : Respects (FileTree.Alike R)
      (directories.forM fun directory => FileTree.makeDirectories (project.join directory)) :=
    .forM fun directory _ => FileTree.respects_makeDirectories _
  have hend : Respects (FileTree.Alike R) (recreate project) := by
    refine respects_get_bind fun t t' h => ?_
    rw [h.exists?]
    split
    · exact ((FileTree.respects_removeTree project).bind fun _ => hmake) t t' h
    · exact hmake t t' h
  obtain ⟨result, u, u', ht, ht', hu⟩ := hend t t' h
  refine ⟨result.mapError fun cause => ⟨project, cause⟩, u, u', ?_, ?_, hu⟩
  · rw [create, show (recreate project).run.run t = _ from ht]
  · rw [create, show (recreate project).run.run t' = _ from ht']

/-- **Descriptors are written alike.** -/
theorem ProjectDescriptor.writeTo_alike (d : ProjectDescriptor) (path : Path) (h : t.Alike R t') :
    EndAlike (FileTree.Alike R) (d.writeTo path t) (d.writeTo path t') := by
  have hfile : fileAt path t = fileAt path t' := by rw [fileAt, fileAt, h.isDirectory]
  unfold writeTo
  dsimp only
  rw [hfile]
  cases d.render with
  | error fault => exact .intro _ h
  | ok text =>
      obtain ⟨result, u, u', ht, ht', hu⟩ :=
        FileTree.respects_replaceFile (fileAt path t') (Utf8.encode text) t t' h
      dsimp only
      rw [show (FileTree.replaceFile _ _).run.run t = _ from ht,
        show (FileTree.replaceFile _ _).run.run t' = _ from ht']
      cases result <;> exact .intro _ hu

end

end Unjar
