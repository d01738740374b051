import Unjar.Proofs.OrderedMap
import Unjar.Proofs.Rebuild.Keeping
import Unjar.Proofs.TypeSet

/-!
The accounts of a scan.

A scan that returns has kept account of every entry.  Each class is either counted or listed as
malformed; the decompiler was handed those that could be read, in order, and the ones on which it
failed are listed; what the classes refer to is collected by class; and the descriptor is the first
that could be read.  A class that is malformed or cannot be decompiled is noted and changes nothing
else: without such classes, and with a decompiler that does not fail, the scan comes to the same.

The bytes of an entry are what reading it gives.  An archive is read by names, so of several entries
with one name each gives the bytes of the last.

Main definitions:

* `Unjar.Corpus.Collects` — a corpus holds what classes refer to, by class;
* `Unjar.Rebuild.Accounting` — **the accounts** of the entries that were scanned;
* `Unjar.Rebuild.Mirrors` — a part of a run does as another one does, but for what is forgotten.

Main results:

* `Unjar.Rebuild.Accounting.scanEntry` — each entry is accounted for;
* `Unjar.Rebuild.mirrors_scanEntry` — what the accounts of failures do not influence;
* `Unjar.Rebuild.accounting_of_scan` — **every scan that returns has kept its accounts**.
-/

set_option autoImplicit false

namespace Unjar

/-! ### Corpora -/

namespace Corpus

/-- **A corpus holds what classes refer to**: their names, each once in the order in which they came,
and under each name what the classes of that name refer to. -/
structure Collects (corpus : Corpus) (found : List ClassReferences) : Prop where
  owners : corpus.map Prod.fst = (found.map ClassReferences.owner).eraseDups
  types : ∀ owner types, OrderedMap.get? corpus owner = some types → ∀ name,
    name ∈ types.toList ↔ ∃ one ∈ found, one.owner = owner ∧ name ∈ one.types.toList

theorem collects_nil : Collects [] [] :=
  ⟨rfl, fun owner types h => by simp at h⟩

variable {corpus : Corpus} {found : List ClassReferences}

theorem mem_owners (h : corpus.Collects found) {owner : Name} :
    owner ∈ corpus.map Prod.fst ↔ ∃ one ∈ found, one.owner = owner := by
  rw [h.owners, List.mem_eraseDups, List.mem_map]

/-- **One more class** is collected under its name. -/
theorem Collects.add (h : corpus.Collects found) (one : ClassReferences) :
    (corpus.add one).Collects (found ++ [one]) := by
  constructor
  · rw [Corpus.add, OrderedMap.map_fst_put, List.map_append, List.map_singleton]
    split
    · next hone =>
      rw [h.owners, List.mem_eraseDups] at hone
      rw [eraseDups_concat_of_mem hone, h.owners]
    · next hone =>
      rw [h.owners, List.mem_eraseDups] at hone
      rw [eraseDups_concat_of_not_mem hone, h.owners]
  · intro owner types htypes name
    simp only [List.mem_append, List.mem_singleton]
    by_cases howner : owner = one.owner
    · subst howner
      rw [Corpus.add, OrderedMap.get?_put_self] at htypes
      cases hknown : OrderedMap.get? corpus one.owner with
      | none =>
          rw [hknown, Option.some.injEq] at htypes
          subst htypes
          -- the class is the first of its name
          have hfirst : ∀ other ∈ found, other.owner ≠ one.owner := fun other hother he =>
            OrderedMap.get?_eq_none.mp hknown ((mem_owners h).mpr ⟨other, hother, he⟩)
          constructor
          · exact fun hname => ⟨one, .inr rfl, rfl, hname⟩
          · rintro ⟨other, hother | rfl, he, hname⟩
            · exact absurd he (hfirst other hother)
            · exact hname
      | some known =>
          rw [hknown, Option.some.injEq] at htypes
          subst htypes
          rw [TypeSet.mem_union, h.types _ _ hknown]
          constructor
          · rintro (⟨other, hother, he, hname⟩ | hname)
            · exact ⟨other, .inl hother, he, hname⟩
            · exact ⟨one, .inr rfl, rfl, hname⟩
          · rintro ⟨other, hother | rfl, he, hname⟩
            · exact .inl ⟨other, hother, he, hname⟩
            · exact .inr hname
    · rw [Corpus.add, OrderedMap.get?_put_of_ne _ _ howner] at htypes
      rw [h.types _ _ htypes]
      constructor
      · rintro ⟨other, hother, he, hname⟩
        exact ⟨other, .inl hother, he, hname⟩
      · rintro ⟨other, hother | rfl, he, hname⟩
        · exact ⟨other, hother, he, hname⟩
        · exact absurd he.symm howner

end Corpus

/-- Whether the decompiler failed. -/
def DecompilerOutcome.isFailure : DecompilerOutcome → Bool
  | .failed _ => true
  | _ => false

/-- A decompiler that pushes what another one does, and finishes where that one fails. -/
def Decompiler.forgiving (d : Decompiler) : Decompiler := .mk fun tree handed bytes name =>
  let work := d.work tree handed bytes name
  { work with outcome := if work.outcome.isFailure then .finished else work.outcome }

namespace Rebuild

/-! ### What the entries amount to -/

/-- What a class refers to, if it can be read. -/
def referencesOf? (content : ArchiveContent) (entry : ArchiveEntry) : Option ClassReferences :=
  if entry.kind = .classFile then (ClassReferences.extract (bytesOf content entry)).toOption
  else none

/-- Whether an entry is a class that cannot be read. -/
def isMalformed (content : ArchiveContent) (entry : ArchiveEntry) : Bool :=
  decide (entry.kind = .classFile) && (referencesOf? content entry).isNone

/-- What a descriptor tells, if it can be read. -/
def embeddedOf? (content : ArchiveContent) (entry : ArchiveEntry) : Option EmbeddedDescriptor :=
  if entry.kind = .descriptor then
    ((EmbeddedDescriptor.ofBytes? entry.path (bytesOf content entry)).toOption).join
  else none

/-- The elements of a list, each with those before it. -/
def withEarlier {α : Type} (earlier : List α) : List α → List (List α × α)
  | [] => []
  | a :: later => (earlier, a) :: withEarlier (earlier ++ [a]) later

theorem withEarlier_concat {α : Type} (earlier l : List α) (a : α) :
    withEarlier earlier (l ++ [a]) = withEarlier earlier l ++ [(earlier ++ l, a)] := by
  induction l generalizing earlier with
  | nil => simp [withEarlier]
  | cons b l ih => simp [withEarlier, ih]

/-- The scan of some of the entries. -/
def scanAll (decompiler : Option Decompiler) (project : Option Path) (content : ArchiveContent)
    (entries : List ArchiveEntry) : Rebuilding Unit :=
  entries.forM (scanEntry decompiler project content)

/-- The classes that are handed to a decompiler: without one, or without a project, there are none. -/
def handedOf? (decompiler : Option Decompiler) (project : Option Path) (content : ArchiveContent)
    (entry : ArchiveEntry) : Option (Text × Bytes) :=
  if decompiler.isSome ∧ project.isSome then
    (referencesOf? content entry).map fun _ => (entry.path, bytesOf content entry)
  else none

/-- Whether the decompiler fails on a class that it is handed. -/
def failsOn (decompiler : Option Decompiler) (s : RebuildState) : Option (Text × Bytes) → Bool
  | none => false
  | some (name, bytes) =>
    decompiler.any fun d => (d.work s.tree s.decompiled bytes name).outcome.isFailure

/-- **Whether the decompiler failed on an entry**: it worked on what the scan of the earlier entries
had left. -/
def failedOn (decompiler : Option Decompiler) (project : Option Path) (content : ArchiveContent)
    (start : RebuildState) (earlier : List ArchiveEntry) (entry : ArchiveEntry) : Bool :=
  failsOn decompiler (outcome (scanAll decompiler project content earlier) start).2
    (handedOf? decompiler project content entry)

/-- **The accounts** of entries that were scanned. -/
structure Accounting (decompiler : Option Decompiler) (project : Option Path)
    (content : ArchiveContent) (start : RebuildState) (entries : List ArchiveEntry)
    (s : RebuildState) : Prop where
  /-- Each class is counted or listed. -/
  counted : s.findings.classesScanned + s.findings.malformedClasses.length =
    (entries.filter fun entry => entry.kind = .classFile).length
  /-- The malformed classes are listed in order. -/
  malformed : s.findings.malformedClasses =
    (entries.filter (isMalformed content)).map ArchiveEntry.path
  /-- The decompiler was handed the other classes in order, each once. -/
  handed : s.decompiled = entries.filterMap (handedOf? decompiler project content)
  /-- The classes on which it failed are listed in order. -/
  failures : s.decompilerFailures = ((withEarlier [] entries).filter fun split =>
    failedOn decompiler project content start split.1 split.2).map fun split => split.2.path
  /-- What the classes refer to is collected. -/
  corpus : s.findings.corpus.Collects (entries.filterMap (referencesOf? content))
  /-- The descriptor is the first that can be read. -/
  embedded : s.findings.embedded = entries.findSome? (embeddedOf? content)
  /-- The class path is that of the manifest, if there is one. -/
  classPath : s.findings.classPath =
    if entries.any fun entry => entry.kind = .manifest then Archive.manifestClassPath content else []

/-! ### One entry -/

section

variable {decompiler : Option Decompiler} {project : Option Path} {content : ArchiveContent}
  {start s s' : RebuildState} {entries : List ArchiveEntry} {entry : ArchiveEntry} {u : Unit}

/-- The accounts: what was found, and what the decompiler was handed and failed on. -/
def SameAccounts (s s' : RebuildState) : Prop :=
  s'.findings = s.findings ∧ s'.decompiled = s.decompiled ∧
    s'.decompilerFailures = s.decompilerFailures

theorem SameAccounts.trans {t : RebuildState} (h : SameAccounts s t) (h' : SameAccounts t s') :
    SameAccounts s s' :=
  ⟨h'.1.trans h.1, h'.2.1.trans h.2.1, h'.2.2.trans h.2.2⟩

/-- Placing keeps the accounts. -/
theorem keepsAccounts_placing {α : Type} {project : Path}
    {act : Placement → FileTree → Except WriteFault α × Placement × FileTree} :
    Keeps SameAccounts (placing project act) := by
  intro s
  rw [outcome_placing]
  exact ⟨rfl, rfl, rfl⟩

theorem keepsAccounts_push {project : Path} {text : Text} :
    Keeps SameAccounts (push project text) :=
  Keeps.bind SameAccounts.trans (fun _ => ⟨rfl, rfl, rfl⟩) fun _ => keepsAccounts_placing

/-- **A class that is decompiled** is handed over, and listed if the decompiler fails. -/
theorem accounts_of_decompileClass {d : Decompiler} {project : Path} {name : Text} {bytes : Bytes}
    (h : Returns (decompileClass d project name bytes) s u s') :
    s'.findings = s.findings ∧ s'.decompiled = s.decompiled ++ [(name, bytes)] ∧
      s'.decompilerFailures = s.decompilerFailures ++
        if (d.work s.tree s.decompiled bytes name).outcome.isFailure then [name] else [] := by
  replace h := returns_get_bind.mp h
  dsimp only at h
  obtain ⟨_, s₁, hnote, h⟩ := returns_bind.mp h
  obtain rfl := returns_modify.mp hnote
  obtain ⟨_, s₂, hpush, h⟩ := returns_bind.mp h
  obtain ⟨hfindings, hdecompiled, hfailures⟩ : SameAccounts _ s₂ :=
    (Keeps.forM (R := SameAccounts) (fun _ => ⟨rfl, rfl, rfl⟩) SameAccounts.trans
      fun _ _ => keepsAccounts_push).of_returns hpush
  dsimp only at hfindings hdecompiled hfailures
  cases hend : (d.work s.tree s.decompiled bytes name).outcome with
  | finished =>
      rw [hend] at h
      obtain ⟨-, rfl⟩ := returns_pure.mp h
      exact ⟨hfindings, hdecompiled, by simpa [DecompilerOutcome.isFailure] using hfailures⟩
  | failed failure =>
      rw [hend] at h
      obtain rfl := returns_modify.mp h
      exact ⟨hfindings, hdecompiled, by simp [DecompilerOutcome.isFailure, hfailures]⟩
  | obstructed cause =>
      rw [hend] at h
      exact absurd h not_returns_throw

/-- **What the scan of an entry adds to the accounts.** -/
theorem accounts_of_scanEntry (h : Returns (scanEntry decompiler project content entry) s u s') :
    ∃ finding, s.findings.examine content entry (bytesOf content entry) = .ok finding ∧
      s'.findings = s.findings.record entry finding ∧
      s'.decompiled = s.decompiled ++ (handedOf? decompiler project content entry).toList ∧
      s'.decompilerFailures = s.decompilerFailures ++
        if failsOn decompiler s (handedOf? decompiler project content entry) then [entry.path]
        else [] := by
  obtain ⟨finding, s₁, hexamine, h⟩ := returns_bind.mp h
  obtain ⟨hfinding, rfl⟩ := examineEntry_returns hexamine
  refine ⟨finding, hfinding, ?_⟩
  have hcases := examine_cases hfinding
  cases project with
  | none =>
      obtain ⟨-, rfl⟩ := returns_pure.mp h
      simp [handedOf?, failsOn]
  | some project =>
      dsimp only at h
      cases finding with
      | classReferences found =>
          have hreferences : referencesOf? content entry = some found := by
            rw [referencesOf?, if_pos hcases.1]
            exact hcases.2
          cases decompiler with
          | none =>
              obtain ⟨-, rfl⟩ := returns_pure.mp h
              simp [handedOf?, failsOn]
          | some d =>
              obtain ⟨hfindings, hdecompiled, hfailures⟩ := accounts_of_decompileClass h
              refine ⟨hfindings, ?_⟩
              simpa [handedOf?, failsOn, hreferences] using ⟨hdecompiled, hfailures⟩
      | resource =>
          have hreferences : referencesOf? content entry = none := by
            simp [referencesOf?, show entry.kind = .resource from hcases]
          unfold writeEntry at h
          dsimp only at h
          obtain ⟨hfindings, hdecompiled, hfailures⟩ := keepsAccounts_placing.of_returns h
          refine ⟨hfindings, ?_⟩
          simpa [handedOf?, failsOn, hreferences] using ⟨hdecompiled, hfailures⟩
      | malformedClass =>
          have hreferences : referencesOf? content entry = none := by
            rw [referencesOf?, if_pos hcases.1]
            exact hcases.2
          obtain ⟨-, rfl⟩ := returns_pure.mp h
          simp [handedOf?, failsOn, hreferences]
      | descriptor _ | laterDescriptor | manifest _ =>
          have hreferences : referencesOf? content entry = none := by
            simp [referencesOf?, hcases.1]
          obtain ⟨-, rfl⟩ := returns_pure.mp h
          simp [handedOf?, failsOn, hreferences]

/-- What is known after an entry, by what the entry amounts to. -/
theorem record_eq {f : Findings} {finding : Finding}
    (h : f.examine content entry (bytesOf content entry) = .ok finding) :
    f.record entry finding = {
      corpus := match referencesOf? content entry with
        | some found => f.corpus.add found
        | none => f.corpus
      classPath :=
        if entry.kind = .manifest then Archive.manifestClassPath content else f.classPath
      embedded := f.embedded.or (embeddedOf? content entry)
      classesScanned := f.classesScanned + (referencesOf? content entry).toList.length
      malformedClasses :=
        f.malformedClasses ++ if isMalformed content entry then [entry.path] else [] } := by
  have hcases := examine_cases h
  cases finding with
  | classReferences found =>
      have hreferences : referencesOf? content entry = some found := by
        rw [referencesOf?, if_pos hcases.1]
        exact hcases.2
      simp [Findings.record, isMalformed, embeddedOf?, hreferences, hcases.1]
  | malformedClass =>
      have hreferences : referencesOf? content entry = none := by
        rw [referencesOf?, if_pos hcases.1]
        exact hcases.2
      simp [Findings.record, isMalformed, embeddedOf?, hreferences, hcases.1]
  | resource =>
      have hkind : entry.kind = .resource := hcases
      simp [Findings.record, referencesOf?, isMalformed, embeddedOf?, hkind]
  | descriptor embedded =>
      obtain ⟨hkind, hnone, hembedded⟩ := hcases
      simp [Findings.record, referencesOf?, isMalformed, embeddedOf?, hkind, hnone, hembedded,
        Except.toOption]
  | laterDescriptor =>
      obtain ⟨hkind, hsome⟩ := hcases
      have hor : f.embedded.or (embeddedOf? content entry) = f.embedded := Option.or_of_isSome hsome
      simp [Findings.record, referencesOf?, isMalformed, hkind, hor]
  | manifest words =>
      simp [Findings.record, referencesOf?, isMalformed, embeddedOf?, hcases.1, hcases.2]

/-- A class is counted or listed, and nothing else is. -/
theorem counted_or_listed (content : ArchiveContent) (entry : ArchiveEntry) :
    (referencesOf? content entry).toList.length + (if isMalformed content entry then 1 else 0) =
      if entry.kind = .classFile then 1 else 0 := by
  by_cases hkind : entry.kind = .classFile
  · cases hreferences : referencesOf? content entry <;> simp [isMalformed, hkind, hreferences]
  · simp [isMalformed, referencesOf?, hkind]

theorem accounting_nil (clock : List Float) (tree : FileTree) :
    Accounting decompiler project content (.start clock tree) [] (.start clock tree) where
  counted := rfl
  malformed := rfl
  handed := rfl
  failures := rfl
  corpus := Corpus.collects_nil
  embedded := rfl
  classPath := rfl

/-- **Each entry is accounted for.** -/
theorem Accounting.scanEntry (ha : Accounting decompiler project content start entries s)
    (hs : Returns (scanAll decompiler project content entries) start u s)
    (h : Returns (Rebuild.scanEntry decompiler project content entry) s u s') :
    Accounting decompiler project content start (entries ++ [entry]) s' := by
  obtain ⟨finding, hfinding, hfindings, hdecompiled, hfailures⟩ := accounts_of_scanEntry h
  rw [record_eq hfinding] at hfindings
  constructor
  · have hbefore := ha.counted
    have hcounted := counted_or_listed content entry
    have hlisted : (if isMalformed content entry then [entry.path] else []).length =
        if isMalformed content entry then 1 else 0 := by split <;> rfl
    have hclass : ([entry].filter fun entry => entry.kind = .classFile).length =
        if entry.kind = .classFile then 1 else 0 := by
      by_cases hkind : entry.kind = .classFile <;> simp [hkind]
    rw [hfindings]
    dsimp only
    rw [List.length_append, List.filter_append, List.length_append, hlisted, hclass, ← hcounted,
      ← hbefore]
    omega
  · rw [hfindings]
    dsimp only
    rw [ha.malformed, List.filter_append, List.map_append]
    by_cases hmalformed : isMalformed content entry = true <;> simp [hmalformed]
  · rw [hdecompiled, ha.handed, List.filterMap_append]
    cases hhanded : handedOf? decompiler project content entry <;> simp [hhanded]
  · have hstate : (outcome (scanAll decompiler project content entries) start).2 = s :=
      congrArg Prod.snd hs
    have hfailed : failedOn decompiler project content start entries entry =
        failsOn decompiler s (handedOf? decompiler project content entry) := by
      rw [failedOn, hstate]
    rw [hfailures, ha.failures, withEarlier_concat, List.nil_append, List.filter_append,
      List.map_append, ← hfailed]
    by_cases hfails : failedOn decompiler project content start entries entry = true <;>
      simp [hfails]
  · rw [hfindings]
    dsimp only
    rw [List.filterMap_append]
    cases hreferences : referencesOf? content entry with
    | none => simpa [hreferences] using ha.corpus
    | some found => simpa [hreferences] using ha.corpus.add found
  · rw [hfindings]
    dsimp only
    rw [ha.embedded, List.findSome?_append]
    simp
  · rw [hfindings]
    dsimp only
    rw [ha.classPath, List.any_append]
    by_cases hkind : entry.kind = .manifest <;> simp [hkind]

end

/-! ### What failures do not influence -/

/-- **One part of a run does as another one does**, but for what is forgotten. -/
def Mirrors {α : Type} (forget : RebuildState → RebuildState) (x y : Rebuilding α) : Prop :=
  ∀ s, outcome y (forget s) = ((outcome x s).1, forget (outcome x s).2)

/-- A state with a part of its accounts forgotten. -/
def forgetting (inFindings : Findings → Findings) (inFailures : List Text → List Text)
    (s : RebuildState) : RebuildState :=
  { s with
    findings := inFindings s.findings
    decompilerFailures := inFailures s.decompilerFailures }

section

variable {α β : Type} {forget : RebuildState → RebuildState} {inFindings : Findings → Findings}
  {inFailures : List Text → List Text} {content : ArchiveContent} {entry : ArchiveEntry}
  {project : Path}

theorem Mirrors.bind {x y : Rebuilding α} {f g : α → Rebuilding β} (hx : Mirrors forget x y)
    (hf : ∀ a, Mirrors forget (f a) (g a)) : Mirrors forget (x >>= f) (y >>= g) := by
  intro s
  rw [outcome_bind, outcome_bind, hx s]
  rcases outcome x s with ⟨fault | a, t⟩
  · rfl
  · exact hf a t

theorem Mirrors.forM {f g : α → Rebuilding PUnit} {l : List α}
    (h : ∀ a ∈ l, Mirrors forget (f a) (g a)) : Mirrors forget (l.forM f) (l.forM g) := by
  induction l with
  | nil => exact fun _ => rfl
  | cons a l ih =>
      rw [List.forall_mem_cons] at h
      exact h.1.bind fun _ => ih h.2

theorem mirrors_placing {act : Placement → FileTree → Except WriteFault α × Placement × FileTree} :
    Mirrors (forgetting inFindings inFailures) (placing project act) (placing project act) := by
  intro s
  rw [outcome_placing, outcome_placing]
  rfl

/-- What is done when the decompiler has ended. -/
def conclude (name : Text) : DecompilerOutcome → Rebuilding Unit
  | .finished => pure ()
  | .failed _ => modify fun s => { s with decompilerFailures := s.decompilerFailures ++ [name] }
  | .obstructed cause => throw (.obstacle cause)

theorem decompileClass_eq (d : Decompiler) (name : Text) (bytes : Bytes) :
    decompileClass d project name bytes = (do
      let s ← get
      let work := d.work s.tree s.decompiled bytes name
      modify fun s => { s with
        decompiled := s.decompiled ++ [(name, bytes)]
        commands := s.commands ++ work.commands }
      work.pushed.forM fun (text, _) => push project text
      conclude name work.outcome) := by
  unfold decompileClass conclude
  rfl

theorem mirrors_decompileClass {d d' : Decompiler} {name : Text} {bytes : Bytes}
    (hpushed : ∀ tree handed, (d'.work tree handed bytes name).pushed =
      (d.work tree handed bytes name).pushed)
    (hcommands : ∀ tree handed, (d'.work tree handed bytes name).commands =
      (d.work tree handed bytes name).commands)
    (hconclude : ∀ tree handed, Mirrors (forgetting inFindings inFailures)
      (conclude name (d.work tree handed bytes name).outcome)
      (conclude name (d'.work tree handed bytes name).outcome)) :
    Mirrors (forgetting inFindings inFailures) (decompileClass d project name bytes)
      (decompileClass d' project name bytes) := by
  intro s
  rw [decompileClass_eq, decompileClass_eq, outcome_bind, outcome_bind, outcome_get, outcome_get]
  dsimp only [forgetting]
  rw [hpushed, hcommands]
  refine Mirrors.bind (show Mirrors (forgetting inFindings inFailures) _ _ from fun _ => rfl)
    (fun _ => ?_) s
  refine Mirrors.bind (.forM fun _ _ => ?_) fun _ => hconclude _ _
  exact Mirrors.bind (fun _ => rfl) fun _ => mirrors_placing

theorem mirrors_examineEntry {bytes : Bytes}
    (hexamine : ∀ f : Findings, (inFindings f).examine content entry bytes =
      f.examine content entry bytes)
    (hrecord : ∀ (f : Findings) finding, f.examine content entry bytes = .ok finding →
      (inFindings f).record entry finding = inFindings (f.record entry finding)) :
    Mirrors (forgetting inFindings inFailures) (examineEntry content entry bytes)
      (examineEntry content entry bytes) := by
  intro s
  rw [outcome_examineEntry, outcome_examineEntry]
  dsimp only [forgetting]
  rw [hexamine]
  cases hf : s.findings.examine content entry bytes with
  | error fault => rfl
  | ok finding =>
      dsimp only
      rw [hrecord _ _ hf]

/-- **The scan of an entry** is mirrored if examining it is and decompiling is. -/
theorem mirrors_scanEntry {project : Option Path} {decompiler decompiler' : Option Decompiler}
    (hexamine : Mirrors (forgetting inFindings inFailures)
      (examineEntry content entry (bytesOf content entry))
      (examineEntry content entry (bytesOf content entry)))
    (hdecompile : Option.Rel (fun d d' => ∀ project name bytes,
      Mirrors (forgetting inFindings inFailures) (decompileClass d project name bytes)
        (decompileClass d' project name bytes)) decompiler decompiler') :
    Mirrors (forgetting inFindings inFailures) (scanEntry decompiler project content entry)
      (scanEntry decompiler' project content entry) := by
  refine hexamine.bind fun finding => ?_
  cases project with
  | none => exact fun _ => rfl
  | some project =>
      unfold writeEntry
      dsimp only
      split
      · cases hdecompile with
        | none => exact fun _ => rfl
        | some h => exact h _ _ _
      · exact mirrors_placing
      · exact fun _ => rfl

/-- The failures of the decompiler influence nothing but their list. -/
theorem mirrors_forgiving {project : Option Path} (decompiler : Option Decompiler) :
    Mirrors (forgetting id fun _ => []) (scanEntry decompiler project content entry)
      (scanEntry (decompiler.map Decompiler.forgiving) project content entry) := by
  refine mirrors_scanEntry (mirrors_examineEntry (fun _ => rfl) fun _ _ _ => rfl) ?_
  cases decompiler with
  | none => exact .none
  | some d =>
      refine .some fun project name bytes => mirrors_decompileClass (fun _ _ => rfl)
        (fun _ _ => rfl) fun tree handed => ?_
      have houtcome : (d.forgiving.work tree handed bytes name).outcome =
          if (d.work tree handed bytes name).outcome.isFailure then .finished
          else (d.work tree handed bytes name).outcome := rfl
      rw [houtcome]
      cases (d.work tree handed bytes name).outcome <;> exact fun _ => rfl

/-- The findings with the list of malformed classes forgotten. -/
def forgetMalformed (f : Findings) : Findings := { f with malformedClasses := [] }

/-- The scan of an entry that is not malformed is not influenced by those that were. -/
theorem mirrors_forgetMalformed {project : Option Path} {decompiler : Option Decompiler}
    (h : isMalformed content entry = false) :
    Mirrors (forgetting forgetMalformed id) (scanEntry decompiler project content entry)
      (scanEntry decompiler project content entry) := by
  refine mirrors_scanEntry (mirrors_examineEntry (fun _ => rfl) fun f finding hf => ?_) ?_
  · rw [record_eq hf]
    have hf' : (forgetMalformed f).examine content entry (bytesOf content entry) = .ok finding := hf
    rw [record_eq hf', h]
    rfl
  · cases decompiler with
    | none => exact .none
    | some d =>
        refine .some fun project name bytes => mirrors_decompileClass (fun _ _ => rfl)
          (fun _ _ => rfl) fun tree handed => ?_
        cases (d.work tree handed bytes name).outcome <;> exact fun _ => rfl

/-- A malformed class is listed, and nothing else happens. -/
theorem outcome_scanEntry_of_isMalformed {project : Option Path} {decompiler : Option Decompiler}
    {s : RebuildState} (h : isMalformed content entry = true) :
    outcome (scanEntry decompiler project content entry) s = (.ok (), { s with
      findings := { s.findings with
        malformedClasses := s.findings.malformedClasses ++ [entry.path] } }) := by
  obtain ⟨hkind, hnone⟩ : entry.kind = .classFile ∧ referencesOf? content entry = none := by
    simpa [isMalformed] using h
  rw [referencesOf?, if_pos hkind] at hnone
  have hexamine : s.findings.examine content entry (bytesOf content entry) =
      .ok .malformedClass := by
    unfold Findings.examine
    rw [hkind]
    dsimp only
    rcases hextract : ClassReferences.extract (bytesOf content entry) with fault | found
    · rfl
    · rw [hextract] at hnone
      cases hnone
  simp only [scanEntry, outcome_bind, outcome_examineEntry]
  rw [show (Archive.read? content entry.path).getD [] = bytesOf content entry from rfl, hexamine]
  cases project <;> rfl

/-- **Malformed classes** influence nothing but their list: the scan without them comes to the
same. -/
theorem mirrors_filter (content : ArchiveContent) (project : Option Path)
    (decompiler : Option Decompiler) (entries : List ArchiveEntry) :
    Mirrors (forgetting forgetMalformed id) (scanAll decompiler project content entries)
      (scanAll decompiler project content
        (entries.filter fun entry => !isMalformed content entry)) := by
  induction entries with
  | nil => exact fun _ => rfl
  | cons entry entries ih =>
      cases h : isMalformed content entry with
      | false =>
          rw [List.filter_cons_of_pos (by simp [h])]
          exact (mirrors_forgetMalformed h).bind fun _ => ih
      | true =>
          rw [List.filter_cons_of_neg (by simp [h])]
          intro s
          have hcons : scanAll decompiler project content (entry :: entries) =
            (scanEntry decompiler project content entry >>= fun _ =>
              scanAll decompiler project content entries) := rfl
          rw [hcons, outcome_bind, outcome_scanEntry_of_isMalformed h]
          exact ih { s with findings := { s.findings with
            malformedClasses := s.findings.malformedClasses ++ [entry.path] } }

end

/-! ### Scans -/

/-- **The accounts of a scan**, entry by entry. -/
theorem accounting_of_returns {job : RebuildJob} {project : Option Path} {content : ArchiveContent}
    {clock : List Float} {tree : FileTree} {s : RebuildState} {u : Unit}
    (h : Returns (scan job project content) (.start clock tree) u s) :
    Accounting job.decompiler project content (.start clock tree)
      (Archive.entries job.settings content) s := by
  suffices Accounting job.decompiler project content (.start clock tree)
      (Archive.entries job.settings content) s ∧
      Returns (scanAll job.decompiler project content (Archive.entries job.settings content))
        (.start clock tree) u s from this.1
  refine h.forM_invariant (fun done t =>
    Accounting job.decompiler project content (.start clock tree) done t ∧
      Returns (scanAll job.decompiler project content done) (.start clock tree) u t) ?_
    ⟨accounting_nil clock tree, rfl⟩
  rintro done entry t t' v ⟨ht, hdone⟩ hentry
  refine ⟨ht.scanEntry hdone hentry, ?_⟩
  have hconcat : scanAll job.decompiler project content (done ++ [entry]) =
      (scanAll job.decompiler project content done >>= fun _ =>
        scanAll job.decompiler project content [entry]) := List.forM_append
  rw [hconcat]
  exact returns_bind.mpr ⟨u, t, hdone, returns_bind.mpr ⟨v, t', hentry, rfl⟩⟩

/-- **Every scan that returns has kept its accounts**, whatever the archive holds and whatever the
decompiler does.  The malformed classes and the failures of the decompiler influence nothing but
their lists: without those classes, or with a decompiler that does not fail on any, the scan comes
to the same. -/
theorem accounting_of_scan {job : RebuildJob} {project : Option Path} {content : ArchiveContent}
    {clock : List Float} {tree : FileTree} {s : RebuildState} {u : Unit}
    (hscan : (scan job project content).run.run (.start clock tree) = (.ok u, s)) :
    Accounting job.decompiler project content (.start clock tree)
        (Archive.entries job.settings content) s ∧
      outcome (scanAll job.decompiler project content ((Archive.entries job.settings content).filter
          fun entry => !isMalformed content entry)) (.start clock tree) =
        (.ok u, { s with findings := { s.findings with malformedClasses := [] } }) ∧
      outcome (scan { job with decompiler := job.decompiler.map Decompiler.forgiving } project
          content) (.start clock tree) =
        (.ok u, { s with decompilerFailures := [] }) := by
  have h : Returns (scan job project content) (.start clock tree) u s := hscan
  refine ⟨accounting_of_returns h, ?_, ?_⟩
  · have hmirror := mirrors_filter content project job.decompiler
      (Archive.entries job.settings content) (.start clock tree)
    rw [show outcome (scanAll job.decompiler project content (Archive.entries job.settings content))
      (.start clock tree) = (.ok u, s) from h] at hmirror
    exact hmirror
  · have hforgiving : ∀ entry ∈ Archive.entries job.settings content,
        Mirrors (forgetting id fun _ => []) (scanEntry job.decompiler project content entry)
          (scanEntry (job.decompiler.map Decompiler.forgiving) project content entry) :=
      fun entry _ => mirrors_forgiving job.decompiler
    have hmirror := Mirrors.forM hforgiving (.start clock tree)
    rw [show outcome ((Archive.entries job.settings content).forM
      (scanEntry job.decompiler project content)) (.start clock tree) = (.ok u, s) from h]
      at hmirror
    exact hmirror

/-- A class under two names, with something between them that is none. -/
def classContent : ArchiveContent :=
  let bytes : Bytes :=
    [0xCA, 0xFE, 0xBA, 0xBE, 0, 0, 0, 52, 0, 3, 1, 0, 1, 65, 7, 0, 1, 0, 0x21, 0, 2, 0, 0, 0,
      0, 0, 0, 0, 0, 0, 0]
  [("A.class".toList, bytes), ("B.class".toList, [0]), ("C.class".toList, bytes)]

/-- The job of scanning it with a decompiler that fails on the first. -/
def classJob : RebuildJob where
  archive := .ofString "app.jar"
  output := none
  settings := .default
  resolver := .default
  decompiler := some (SketchDecompiler.decompile ⟨[], ["A.class".toList]⟩)

theorem accounting_of_scan_sample :
    ∃ s, (scan classJob (some (.ofString "app")) classContent).run.run (.start [] ⟨[], [], []⟩) =
        (.ok (), s) ∧
      s.findings.classesScanned = 2 ∧ s.findings.malformedClasses = ["B.class".toList] ∧
      s.decompilerFailures = ["A.class".toList] ∧
      Accounting classJob.decompiler (some (.ofString "app")) classContent (.start [] ⟨[], [], []⟩)
        (Archive.entries classJob.settings classContent) s := by
  have hlists : (fun ending : Except RebuildFault Unit × RebuildState =>
      (ending.1.toOption, ending.2.findings.classesScanned, ending.2.findings.malformedClasses,
        ending.2.decompilerFailures))
      ((scan classJob (some (.ofString "app")) classContent).run.run (.start [] ⟨[], [], []⟩)) =
      (some (), 2, ["B.class".toList], ["A.class".toList]) := by decide +kernel
  generalize hend : (scan classJob (some (.ofString "app")) classContent).run.run
    (.start [] ⟨[], [], []⟩) = ending at hlists
  obtain ⟨result, s⟩ := ending
  obtain ⟨hresult, hscanned, hmalformed, hfailures⟩ := by simpa only [Prod.mk.injEq] using hlists
  obtain rfl := eq_ok_of_toOption hresult
  exact ⟨s, rfl, hscanned, hmalformed, hfailures, (accounting_of_scan hend).1⟩

end Rebuild

end Unjar
