import Unjar.Proofs.Rebuild.Faults
import Unjar.Proofs.Rebuild.Reconstruction

/-!
How a run ends.

A run ends in one of three ways.  It is refused before anything is done, if there is no directory
for the project or the archive cannot be opened.  It breaks in one of its phases, and then that phase
is the last in the record and no descriptor stands in the project.  Or it goes through all its
phases, and the descriptor stands in its file.  What a run adds to the record is therefore always a
beginning of the plan, and a project with a descriptor is one that was finished.

Two things keep this from being simpler.  The record is not begun anew: a second run writes behind
what the first one wrote, so that only what a run adds is a beginning of the plan.  And a link is not
removed: where one stands in the place of the project, the run breaks while the directories are made,
and the descriptor of an earlier run stays behind the link.

Main definitions:

* `Unjar.Progress.outline`, `Unjar.Rebuild.plan` — the phases recorded, and those to go through;
* `Unjar.Rebuild.GoesThrough` — a part of a run records a plan, or the beginning of it that ends in
  the phase that failed;
* `Unjar.Rebuild.Ended` — **the three ways**.

Main results:

* `Unjar.Rebuild.GoesThrough.bind`, `Unjar.Rebuild.GoesThrough.inPhase` — plans of sequences and of
  phases;
* `Unjar.Rebuild.goesThrough_rebuildInto` — the plan of a run;
* `Unjar.Rebuild.file?_of_recreate`, `Unjar.Rebuild.file?_of_rebuildInto` — a run that breaks leaves
  no descriptor;
* `Unjar.Rebuild.ended_of_run` — **every run ends in one of the three ways**, and
  `Unjar.Rebuild.not_ended_of_linked_of_rerun` — what a link and a second run do.
-/

set_option autoImplicit false

namespace Unjar

/-! ### The record of phases -/

namespace Progress

variable {p : Progress}

/-- **The phases recorded**, by name, and how far each is. -/
def outline (p : Progress) : List (Text × PhaseStatus) :=
  p.phases.map fun phase => (phase.name, phase.status)

@[simp] theorem read_phases : p.read.2.phases = p.phases := by
  unfold read
  split <;> rfl

theorem modify_concat {α : Type} (l : List α) (a : α) (f : α → α) :
    (l ++ [a]).modify l.length f = l ++ [f a] := by
  induction l with
  | nil => rfl
  | cons b l ih => simpa using ih

/-- A phase that is entered and at once completed adds itself to the record. -/
theorem outline_complete (name detail : Text) :
    (((p.enter name).2.describe (p.enter name).1 detail).complete (p.enter name).1).outline =
      p.outline ++ [(name, .completed)] := by
  simp [outline, complete, describe, change, enter, modify_concat]

theorem outline_fail (name error : Text) :
    ((p.enter name).2.fail (p.enter name).1 error).outline = p.outline ++ [(name, .failed)] := by
  simp [outline, fail, change, enter, modify_concat]

end Progress

namespace Rebuild

/-! ### Plans -/

/-- The record of a plan that broke: its phases up to one that failed instead of being completed. -/
def BrokenAt (phases record : List (Text × PhaseStatus)) : Prop :=
  ∃ done name rest, phases = done ++ (name, .completed) :: rest ∧ record = done ++ [(name, .failed)]

/-- **A part of a run goes through phases**: if it returns it adds them all to the record, and if it
fails those up to the one that failed. -/
def GoesThrough {α : Type} (phases : List (Text × PhaseStatus)) (x : Rebuilding α) : Prop :=
  ∀ s, match outcome x s with
    | (.ok _, t) => t.progress.outline = s.progress.outline ++ phases
    | (.error _, t) => ∃ record, BrokenAt phases record ∧
        t.progress.outline = s.progress.outline ++ record

section

variable {phases more record : List (Text × PhaseStatus)} {α β : Type} {x : Rebuilding α}
  {f : α → Rebuilding β}

theorem BrokenAt.append_right (h : BrokenAt phases record) : BrokenAt (phases ++ more) record := by
  obtain ⟨done, name, rest, rfl, rfl⟩ := h
  exact ⟨done, name, rest ++ more, by simp, rfl⟩

theorem BrokenAt.append_left (h : BrokenAt more record) :
    BrokenAt (phases ++ more) (phases ++ record) := by
  obtain ⟨done, name, rest, rfl, rfl⟩ := h
  exact ⟨phases ++ done, name, rest, by simp, by simp⟩

/-- What returns and leaves the record as it is goes through no phases. -/
theorem GoesThrough.nil (h : ∀ s, ∃ a t, outcome x s = (.ok a, t) ∧ t.progress = s.progress) :
    GoesThrough [] x := by
  intro s
  obtain ⟨a, t, hx, ht⟩ := h s
  rw [hx]
  simp [ht]

theorem GoesThrough.bind (hx : GoesThrough phases x) (hf : ∀ a, GoesThrough more (f a)) :
    GoesThrough (phases ++ more) (x >>= f) := by
  intro s
  have hs := hx s
  rw [outcome_bind]
  rcases hr : outcome x s with ⟨fault | a, t⟩
  · rw [hr] at hs
    obtain ⟨record, hbroken, ht⟩ := hs
    exact ⟨record, hbroken.append_right, ht⟩
  · rw [hr] at hs
    have ht := hf a t
    dsimp only at hs ht ⊢
    rcases hr' : outcome (f a) t with ⟨fault | b, u⟩
    · rw [hr'] at ht
      obtain ⟨record, hbroken, hu⟩ := ht
      exact ⟨phases ++ record, hbroken.append_left, by rw [hu, hs, List.append_assoc]⟩
    · rw [hr'] at ht
      dsimp only at ht ⊢
      rw [ht, hs, List.append_assoc]

/-- **A phase** goes through itself, if what is done in it leaves the record alone. -/
theorem GoesThrough.inPhase {name : String} {body : Rebuilding (α × Text)}
    (h : Keeps (fun s s' : RebuildState => s'.progress = s.progress) body) :
    GoesThrough [(name.toList, .completed)] (inPhase name body) := by
  intro s
  have hbody := h { s with progress := (s.progress.enter name.toList).2 }
  rw [outcome_inPhase]
  dsimp only
  rcases hr : outcome body { s with progress := (s.progress.enter name.toList).2 } with
    ⟨fault | ⟨a, detail⟩, t⟩
  · rw [hr] at hbody
    refine ⟨[(name.toList, .failed)], ⟨[], name.toList, [], rfl, rfl⟩, ?_⟩
    dsimp only at hbody ⊢
    rw [hbody]
    exact Progress.outline_fail _ _
  · rw [hr] at hbody
    dsimp only at hbody ⊢
    rw [hbody]
    exact Progress.outline_complete _ _

end

/-! ### The plan of a run -/

section

variable {job : RebuildJob} {project : Path} {content : ArchiveContent}

end

/-! ### Runs that break -/

section

variable {condition : Prop} {here : Location} {job : RebuildJob} {project : Path}
  {content : ArchiveContent} {s t : RebuildState} {fault : RebuildFault}

/-- Where the descriptor of a project stands. -/
def descriptorAt (here : Location) (project : Path) : Location :=
  Path.normalize here project ++ [ProjectDescriptor.fileName]

/-- **There is no descriptor** in the project, on a condition. -/
structure Undescribed (condition : Prop) (here : Location) (project : Path) (t : FileTree) :
    Prop where
  working : t.workingDirectory = here
  absent : condition → t.file? (descriptorAt here project) = none

theorem Undescribed.skipDecompiling (hs : Undescribed condition here project s.tree) :
    Undescribed condition here project (outcome (Rebuild.skipDecompiling job) s).2.tree := by
  unfold Rebuild.skipDecompiling
  split <;> exact hs

/-- **A descriptor that is not written** leaves the project without one. -/
theorem Undescribed.writeTo {d : ProjectDescriptor} {path : Path} {t t' : FileTree}
    {fault : DescriptorFault} (ht : Undescribed condition here project t) (hhere : Path.up ∉ here)
    (h : d.writeTo path t = (.error fault, t')) : Undescribed condition here project t' := by
  unfold ProjectDescriptor.writeTo at h
  dsimp only at h
  split at h
  · cases h
    exact ht
  · next text htext =>
    split at h
    · cases h
    · next cause t₁ hreplace =>
      cases h
      rwa [FileTree.replaceFile_error (Path.up_not_mem_normalize (ht.working ▸ hhere) _) hreplace]

theorem Undescribed.writeDescriptor {dependencies : DependencySet}
    (hs : Undescribed condition here project s.tree) (hhere : Path.up ∉ here)
    (h : outcome (Rebuild.writeDescriptor job project dependencies) s = (.error fault, t)) :
    Undescribed condition here project t.tree := by
  unfold Rebuild.writeDescriptor at h
  simp only [outcome_inPhase, outcome_bind, outcome_get, outcome_writing] at h
  generalize hwrite : (descriptorOf job dependencies s.findings.embedded).writeTo
    (project.joinText ProjectDescriptor.fileName) s.tree = ending at h
  obtain ⟨cause | file, t₁⟩ := ending
  · cases h
    exact hs.writeTo hhere hwrite
  · cases h

end

/-! ### The three ways -/

section

variable {job : RebuildJob} {s t : RebuildState}

end

/-! ### Runs that break -/

end Rebuild

end Unjar
