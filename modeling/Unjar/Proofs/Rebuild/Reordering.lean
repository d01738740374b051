import Unjar.Proofs.Rebuild.Inspecting
import Unjar.Proofs.Resolution

/-!
Archives in another order.

What an archive tells does not depend on the order of its entries, if their names are different and
at most one is a descriptor.  Then each entry has its own bytes wherever it stands, so that each tells
what it told before; the accounts of a scan gather what the entries tell class by class, and the order
shows only in the order of the accounts.  A table that knows one version of each artifact finds the
same dependencies in them.  With two descriptors the first that can be read would count.

Main definitions:

* `Unjar.Archive.Reorders` — **the same entries** in another order;
* `Unjar.Corpus.WellFormed` — classes told apart, and their types listed in order;
* `Unjar.Findings.Reordered` — the same findings in another order;
* `Unjar.Rebuild.faultOf?` — what is wrong with the encoding of a descriptor;
* `Unjar.Rebuild.SameInspection` — inspections that end the same way.

Main results:

* `Unjar.Archive.Reorders.read?_eq` — a name that occurs once has its bytes wherever it stands;
* `Unjar.Corpus.Collects.perm` — what classes refer to is the same in any order;
* `Unjar.Rebuild.exists_fault_of_ofEntries`, `Unjar.Rebuild.ofEntries_eq_error` — only a descriptor
  that cannot be decoded ends an inspection, and the only one does;
* `Unjar.Rebuild.reordered_of_ofEntries` — what entries tell is the same in any order;
* `Unjar.Rebuild.inspection_of_reorders` — **an inspection does not depend on the order of the
  entries**.
-/

set_option autoImplicit false

namespace Unjar

/-! ### Entries in another order -/

namespace Archive

/-- **The same entries in another order**, each under a name of its own and at most one of them a
descriptor. -/
structure Reorders (settings : Settings) (content content' : ArchiveContent) : Prop where
  perm : content.Perm content'
  names : (content.map Prod.fst).Nodup
  descriptors : ((entries settings content).filter fun entry => entry.kind = .descriptor).length ≤ 1

variable {settings : Settings} {content content' : ArchiveContent}

namespace Reorders

theorem entries (h : Reorders settings content content') :
    (Archive.entries settings content).Perm (Archive.entries settings content') :=
  h.perm.filterMap _

theorem symm (h : Reorders settings content content') : Reorders settings content' content where
  perm := h.perm.symm
  names := (h.perm.map Prod.fst).nodup_iff.mp h.names
  descriptors := (h.entries.filter _).length_eq ▸ h.descriptors

/-- There is but one descriptor. -/
theorem eq_of_kind (h : Reorders settings content content') {entry other : ArchiveEntry}
    (hentry : entry ∈ Archive.entries settings content)
    (hother : other ∈ Archive.entries settings content) (hkind : entry.kind = .descriptor)
    (hkind' : other.kind = .descriptor) : entry = other := by
  have hmem : entry ∈ (Archive.entries settings content).filter fun entry =>
    entry.kind = .descriptor := List.mem_filter.mpr ⟨hentry, decide_eq_true hkind⟩
  have hmem' : other ∈ (Archive.entries settings content).filter fun entry =>
    entry.kind = .descriptor := List.mem_filter.mpr ⟨hother, decide_eq_true hkind'⟩
  obtain ⟨only, honly⟩ := List.length_eq_one_iff.mp
    (le_antisymm h.descriptors (List.length_pos_of_mem hmem))
  rw [honly, List.mem_singleton] at hmem hmem'
  exact hmem.trans hmem'.symm

end Reorders

/-- **A name that occurs once has its bytes** wherever it stands. -/
theorem Reorders.read?_eq (h : Reorders settings content content') (name : Text) :
    read? content name = read? content' name := by
  have hget : ∀ content : ArchiveContent,
      read? content name = OrderedMap.get? (κ := Text) content.reverse name := fun content => by
    simp only [read?, OrderedMap.get?, beq_eq_decide]
  have hreversed : content.reverse.Perm content'.reverse :=
    (List.reverse_perm _).trans (h.perm.trans (List.reverse_perm _).symm)
  have hnodup : (content.reverse.map Prod.fst).Nodup := by
    rw [List.map_reverse, List.nodup_reverse]
    exact h.names
  rw [hget, hget, OrderedMap.get?_eq_of_perm hnodup hreversed]

theorem Reorders.manifestClassPath_eq (h : Reorders settings content content') :
    manifestClassPath content = manifestClassPath content' := by
  rw [manifestClassPath, h.read?_eq, manifestClassPath]

end Archive

/-! ### Corpora -/

namespace Corpus

variable {corpus corpus' : Corpus} {found found' : List ClassReferences}

/-- **A corpus as it should be**: the classes are told apart, and the types of each are listed in
order. -/
structure WellFormed (corpus : Corpus) : Prop where
  owners : (corpus.map Prod.fst).Nodup
  types : ∀ entry ∈ corpus, entry.2.IsSorted

theorem wellFormed_nil : WellFormed [] := ⟨List.nodup_nil, by simp⟩

theorem WellFormed.add (h : corpus.WellFormed) {one : ClassReferences}
    (hone : one.types.IsSorted) : (corpus.add one).WellFormed := by
  refine ⟨OrderedMap.nodup_put h.owners, fun entry hentry => ?_⟩
  rcases OrderedMap.mem_put hentry with hentry | rfl
  · exact h.types entry hentry
  · dsimp only
    split
    · next known hknown => exact TypeSet.isSorted_union (h.types _ (OrderedMap.mem_of_get? hknown))
    · exact hone

/-- What is collected of some classes is among what is collected of others. -/
theorem Collects.mem_of_subset (h : corpus.Collects found) (h' : corpus'.Collects found')
    (hwf : corpus.WellFormed) (hwf' : corpus'.WellFormed) (hsame : ∀ one, one ∈ found ↔ one ∈ found')
    {entry : Name × TypeSet} (hentry : entry ∈ corpus) : entry ∈ corpus' := by
  obtain ⟨owner, types⟩ := entry
  have hget := OrderedMap.get?_of_mem hwf.owners hentry
  have howner : owner ∈ corpus'.map Prod.fst := by
    obtain ⟨one, hone, he⟩ := (mem_owners h).mp (List.mem_map_of_mem (f := Prod.fst) hentry)
    exact (mem_owners h').mpr ⟨one, (hsame one).mp hone, he⟩
  cases hget' : OrderedMap.get? corpus' owner with
  | none => exact absurd howner (OrderedMap.get?_eq_none.mp hget')
  | some types' =>
      have hentry' := OrderedMap.mem_of_get? hget'
      have htypes : types = types' := by
        refine TypeSet.ext_of_isSorted (hwf.types _ hentry) (hwf'.types _ hentry') fun name => ?_
        simp only [h.types owner types hget, h'.types owner types' hget', hsame]
      rwa [htypes]

/-- **What classes refer to is the same in any order.** -/
theorem Collects.perm (h : corpus.Collects found) (h' : corpus'.Collects found')
    (hwf : corpus.WellFormed) (hwf' : corpus'.WellFormed) (hsame : ∀ one, one ∈ found ↔ one ∈ found') :
    corpus.Perm corpus' := by
  rw [List.perm_ext_iff_of_nodup hwf.owners.of_map hwf'.owners.of_map]
  exact fun entry => ⟨h.mem_of_subset h' hwf hwf' hsame,
    h'.mem_of_subset h hwf' hwf fun one => (hsame one).symm⟩

end Corpus

/-! ### One entry -/

/-- **The same findings** in another order. -/
structure Findings.Reordered (f g : Findings) : Prop where
  corpus : f.corpus.Perm g.corpus
  classPath : f.classPath = g.classPath
  embedded : f.embedded = g.embedded
  classesScanned : f.classesScanned = g.classesScanned
  malformedClasses : f.malformedClasses.Perm g.malformedClasses

namespace Rebuild

/-- **What is wrong with the encoding of a descriptor.** -/
def faultOf? (content : ArchiveContent) (entry : ArchiveEntry) : Option Xml.EncodingFault :=
  if entry.kind = .descriptor then
    match EmbeddedDescriptor.ofBytes? entry.path (bytesOf content entry) with
    | .error fault => some fault
    | .ok _ => none
  else none

section

variable {content content' : ArchiveContent} {f g : Findings} {entry : ArchiveEntry}
  {entries : List ArchiveEntry} {fault : Xml.EncodingFault}

/-- An entry has nothing to tell if it is the first descriptor and cannot be decoded. -/
theorem take_eq_error_iff : f.take content entry = .error fault ↔
    f.embedded = none ∧ faultOf? content entry = some fault := by
  unfold Findings.take Findings.examine faultOf?
  cases hkind : entry.kind with
  | classFile =>
      dsimp only
      cases ClassReferences.extract (bytesOf content entry) <;> simp [Except.map]
  | resource | manifest => simp [Except.map]
  | descriptor =>
      cases f.embedded with
      | some embedded => simp [Except.map]
      | none => cases EmbeddedDescriptor.ofBytes? entry.path (bytesOf content entry) <;>
          simp [Except.map]

theorem isSorted_of_referencesOf? {found : ClassReferences}
    (h : referencesOf? content entry = some found) : found.types.IsSorted := by
  unfold referencesOf? at h
  split at h
  · exact ClassReferences.isSorted_of_extract (eq_ok_of_toOption h)
  · cases h

/-- An entry leaves the corpus as it should be, and only a descriptor brings a descriptor. -/
theorem take_eq_ok (h : f.take content entry = .ok g) :
    (f.corpus.WellFormed → g.corpus.WellFormed) ∧
      g.embedded = f.embedded.or (embeddedOf? content entry) := by
  unfold Findings.take at h
  cases hfinding : f.examine content entry (bytesOf content entry) with
  | error fault =>
      rw [hfinding] at h
      cases h
  | ok finding =>
      rw [hfinding] at h
      obtain rfl : f.record entry finding = g := Except.ok.inj h
      rw [record_eq hfinding]
      refine ⟨fun hf => ?_, rfl⟩
      dsimp only
      cases hfound : referencesOf? content entry with
      | none => exact hf
      | some found => exact hf.add (isSorted_of_referencesOf? hfound)

/-! ### All entries -/

theorem wellFormed_of_ofEntries (h : f.ofEntries content entries = .ok g)
    (hf : f.corpus.WellFormed) : g.corpus.WellFormed := by
  induction entries generalizing f with
  | nil =>
      cases h
      exact hf
  | cons entry entries ih =>
      obtain ⟨next, hnext, h⟩ := bind_eq_ok.mp h
      exact ih h ((take_eq_ok hnext).1 hf)

theorem exists_fault_of_ofEntries (h : f.ofEntries content entries = .error fault) :
    ∃ entry ∈ entries, faultOf? content entry = some fault := by
  induction entries generalizing f with
  | nil => cases h
  | cons entry entries ih =>
      rcases bind_eq_error h with hfault | ⟨next, -, h⟩
      · exact ⟨entry, List.mem_cons_self, (take_eq_error_iff.mp hfault).2⟩
      · obtain ⟨other, hother, hfault⟩ := ih h
        exact ⟨other, List.mem_cons_of_mem _ hother, hfault⟩

theorem kind_of_faultOf? (h : faultOf? content entry = some fault) : entry.kind = .descriptor := by
  unfold faultOf? at h
  split at h
  · next hkind => exact hkind
  · cases h

/-- **A descriptor that cannot be decoded** ends it, if it is the only descriptor. -/
theorem ofEntries_eq_error (hnone : f.embedded = none)
    (hone : ∀ entry ∈ entries, ∀ other ∈ entries, entry.kind = .descriptor →
      other.kind = .descriptor → entry = other)
    (hentry : entry ∈ entries) (hfault : faultOf? content entry = some fault) :
    f.ofEntries content entries = .error fault := by
  have hkind := kind_of_faultOf? hfault
  induction entries generalizing f with
  | nil => cases hentry
  | cons first entries ih =>
      by_cases hfirst : first.kind = .descriptor
      · obtain rfl := hone entry hentry first List.mem_cons_self hkind hfirst
        rw [Findings.ofEntries, List.foldlM_cons, take_eq_error_iff.mpr ⟨hnone, hfault⟩]
        rfl
      · -- another entry tells of no descriptor
        have hne : entry ≠ first := by
          rintro rfl
          exact hfirst hkind
        cases htake : f.take content first with
        | error other => exact absurd (kind_of_faultOf? (take_eq_error_iff.mp htake).2) hfirst
        | ok next =>
            have hnext : next.embedded = none := by
              rw [(take_eq_ok htake).2, hnone, embeddedOf?, if_neg hfirst]
              rfl
            have hrest : f.ofEntries content (first :: entries) =
                next.ofEntries content entries := by
              rw [Findings.ofEntries, List.foldlM_cons, htake]
              rfl
            rw [hrest]
            exact ih hnext (fun entry hentry other hother => hone entry
              (List.mem_cons_of_mem _ hentry) other (List.mem_cons_of_mem _ hother))
              ((List.mem_cons.mp hentry).resolve_left hne)

end

/-! ### Findings -/

section

variable {content content' : ArchiveContent} {job : RebuildJob} {found found' : Findings}

theorem bytesOf_eq_of_reorders (h : Archive.Reorders job.settings content content') :
    bytesOf content = bytesOf content' := by
  funext entry
  rw [bytesOf, bytesOf, h.read?_eq]

/-- What entries tell is what a scan that writes nothing has account of. -/
theorem accounting_of_ofEntries
    (h : Findings.empty.ofEntries content (Archive.entries job.settings content) = .ok found) :
    Accounting job.decompiler none content (.start [] ⟨[], [], []⟩)
      (Archive.entries job.settings content)
      { RebuildState.start [] ⟨[], [], []⟩ with findings := found } :=
  accounting_of_returns (scan_none_returns (s := .start [] ⟨[], [], []⟩) h)

/-- Where one entry at most has something, the first that has it is the same in any order. -/
theorem findSome?_eq_of_perm {α β : Type} {l l' : List α} {f : α → Option β} (h : l.Perm l')
    (hone : ∀ a ∈ l, ∀ b ∈ l, (f a).isSome → (f b).isSome → a = b) :
    l.findSome? f = l'.findSome? f := by
  cases hfound : l.findSome? f with
  | none =>
      rw [List.findSome?_eq_none_iff] at hfound
      exact (List.findSome?_eq_none_iff.mpr fun a ha => hfound a (h.mem_iff.mpr ha)).symm
  | some b =>
      obtain ⟨a, ha, hb⟩ := List.exists_of_findSome?_eq_some hfound
      cases hfound' : l'.findSome? f with
      | none =>
          have hnone := List.findSome?_eq_none_iff.mp hfound' a (h.mem_iff.mp ha)
          rw [hb] at hnone
          cases hnone
      | some b' =>
          obtain ⟨a', ha', hb'⟩ := List.exists_of_findSome?_eq_some hfound'
          obtain rfl := hone a ha a' (h.mem_iff.mpr ha') (by simp [hb]) (by simp [hb'])
          exact hb.symm.trans hb'

theorem kind_of_embeddedOf? {entry : ArchiveEntry} (h : (embeddedOf? content entry).isSome) :
    entry.kind = .descriptor := by
  unfold embeddedOf? at h
  split at h
  · next hkind => exact hkind
  · cases h

/-- **What entries tell is the same in any order.** -/
theorem reordered_of_ofEntries (hr : Archive.Reorders job.settings content content')
    (h : Findings.empty.ofEntries content (Archive.entries job.settings content) = .ok found)
    (h' : Findings.empty.ofEntries content' (Archive.entries job.settings content') = .ok found') :
    found.Reordered found' := by
  have ha := accounting_of_ofEntries h
  have ha' := accounting_of_ofEntries h'
  have hentries := hr.entries
  -- each entry tells the same, wherever it stands
  have hbytes := bytesOf_eq_of_reorders hr
  have hreferences : referencesOf? content = referencesOf? content' := by
    funext entry
    rw [referencesOf?, referencesOf?, hbytes]
  have hmalformed : isMalformed content = isMalformed content' := by
    funext entry
    rw [isMalformed, isMalformed, hreferences]
  have hembedded : embeddedOf? content = embeddedOf? content' := by
    funext entry
    rw [embeddedOf?, embeddedOf?, hbytes]
  have hlisted : found.malformedClasses.Perm found'.malformedClasses := by
    rw [show found.malformedClasses = _ from ha.malformed,
      show found'.malformedClasses = _ from ha'.malformed, hmalformed]
    exact (hentries.filter _).map _
  constructor
  · refine ha.corpus.perm ha'.corpus (wellFormed_of_ofEntries h Corpus.wellFormed_nil)
      (wellFormed_of_ofEntries h' Corpus.wellFormed_nil) fun one => ?_
    rw [hreferences]
    exact (hentries.filterMap _).mem_iff
  · rw [show found.classPath = _ from ha.classPath, show found'.classPath = _ from ha'.classPath,
      hentries.any_eq, hr.manifestClassPath_eq]
  · rw [show found.embedded = _ from ha.embedded, show found'.embedded = _ from ha'.embedded,
      ← hembedded]
    exact findSome?_eq_of_perm hentries fun entry hentry other hother hsome hsome' =>
      hr.eq_of_kind hentry hother (kind_of_embeddedOf? hsome) (kind_of_embeddedOf? hsome')
  · have hcounted : found.classesScanned + found.malformedClasses.length = _ := ha.counted
    have hcounted' : found'.classesScanned + found'.malformedClasses.length = _ := ha'.counted
    rw [← (hentries.filter _).length_eq, ← hcounted, hlisted.length_eq] at hcounted'
    exact (Nat.add_right_cancel hcounted').symm
  · exact hlisted

/-- A descriptor that cannot be decoded cannot be decoded anywhere. -/
theorem ofEntries_eq_error_of_reorders {fault : Xml.EncodingFault}
    (hr : Archive.Reorders job.settings content content')
    (h : Findings.empty.ofEntries content (Archive.entries job.settings content) = .error fault) :
    Findings.empty.ofEntries content' (Archive.entries job.settings content') = .error fault := by
  obtain ⟨entry, hentry, hfault⟩ := exists_fault_of_ofEntries h
  refine ofEntries_eq_error rfl (fun _ hentry _ hother => hr.symm.eq_of_kind hentry hother)
    (hr.entries.mem_iff.mp hentry) ?_
  rwa [faultOf?, ← bytesOf_eq_of_reorders hr, ← faultOf?]

end

/-! ### Inspections -/

/-- **Inspections that end the same way**: both find the same dependencies from the same findings, in
whatever order, or both fail with the same fault. -/
inductive SameInspection : Except RebuildFault DependencySet × RebuildState →
    Except RebuildFault DependencySet × RebuildState → Prop
  | found {dependencies dependencies' : DependencySet} {s s' : RebuildState}
      (perm : dependencies.toList.Perm dependencies'.toList)
      (reordered : s.findings.Reordered s'.findings) :
      SameInspection (.ok dependencies, s) (.ok dependencies', s')
  | failed {fault : RebuildFault} {s s' : RebuildState} :
      SameInspection (.error fault, s) (.error fault, s')

/-- **An inspection does not depend on the order of the entries.**  Two archives with the same entries
in whatever order, each under a name of its own and at most one of them a descriptor, are inspected
with the same end: either the same dependencies are found, from the same findings, or the descriptor
cannot be decoded. -/
theorem inspection_of_reorders {job : RebuildJob} {archive : Path} {tree tree' : FileTree}
    {clock clock' : List Float} {content content' : ArchiveContent}
    (htable : job.resolver.table.IsConsistent)
    (hcontent : ArchiveReader.contentOf job.settings job.archive tree = .ok content)
    (hcontent' : ArchiveReader.contentOf job.settings archive tree' = .ok content')
    (hr : Archive.Reorders job.settings content content') :
    SameInspection ((inspect job).run.run (.start clock tree))
      ((inspect { job with archive }).run.run (.start clock' tree')) := by
  cases hfound : Findings.empty.ofEntries content (Archive.entries job.settings content) with
  | error fault =>
      have hfound' := ofEntries_eq_error_of_reorders hr hfound
      obtain ⟨s, hend⟩ : ∃ s, (inspect job).run.run (.start clock tree) =
        (.error (.encoding fault), s) := inspect_fails hcontent hfound
      obtain ⟨s', hend'⟩ : ∃ s, (inspect { job with archive }).run.run (.start clock' tree') =
        (.error (.encoding fault), s) := inspect_fails hcontent' hfound'
      rw [hend, hend']
      exact .failed
  | ok found =>
      obtain ⟨found', hfound'⟩ : ∃ found', Findings.empty.ofEntries content'
          (Archive.entries job.settings content') = .ok found' := by
        cases hfound' : Findings.empty.ofEntries content'
            (Archive.entries job.settings content') with
        | ok found' => exact ⟨found', rfl⟩
        | error fault =>
            rw [ofEntries_eq_error_of_reorders hr.symm hfound'] at hfound
            cases hfound
      have hsame := reordered_of_ofEntries hr hfound hfound'
      obtain ⟨progress, hend⟩ : ∃ progress, (inspect job).run.run (.start clock tree) =
          (.ok (dependenciesOf job.resolver found),
            { RebuildState.start clock tree with findings := found, progress }) :=
        inspect_returns hcontent hfound
      obtain ⟨progress', hend'⟩ : ∃ progress,
          (inspect { job with archive }).run.run (.start clock' tree') =
            (.ok (dependenciesOf job.resolver found'),
              { RebuildState.start clock' tree' with findings := found', progress }) :=
        inspect_returns hcontent' hfound'
      rw [hend, hend']
      refine .found ?_ hsame
      dsimp only [dependenciesOf]
      rw [← hsame.classPath, ← hsame.embedded]
      exact Resolver.perm_resolve htable hsame.corpus _ _

/-- A class that extends another. -/
def subclass (name parent : String) : Bytes :=
  let spelled : String → Bytes := fun text => 1 :: 0 :: text.length.toUInt8 :: Utf8.encode text.toList
  [0xCA, 0xFE, 0xBA, 0xBE, 0, 0, 0, 52, 0, 5] ++ spelled name ++ [7, 0, 1] ++ spelled parent ++
    [7, 0, 3, 0, 0x21, 0, 2, 0, 4, 0, 0, 0, 0, 0, 0, 0, 0]

/-- An archive with two classes that extend what others have written. -/
def twoClasses : ArchiveContent :=
  [("A.class".toList, subclass "A" "org/slf4j/Marker"),
    ("B.class".toList, subclass "B" "com/google/gson/Gson")]

/-- The two orders of its entries. -/
def twoOrders : FileTree where
  nodes :=
    [(["a.jar".toList], .archive twoClasses), (["b.jar".toList], .archive twoClasses.reverse)]
  workingDirectory := []

/-- The job of inspecting it. -/
def inspectingJob : RebuildJob where
  archive := .ofString "a.jar"
  output := none
  settings := .default
  resolver := .default
  decompiler := none

theorem inspection_of_reorders_sample :
    ∃ dependencies s dependencies' s',
      (inspect inspectingJob).run.run (.start [] twoOrders) = (.ok dependencies, s) ∧
      (inspect { inspectingJob with archive := .ofString "b.jar" }).run.run (.start [] twoOrders) =
        (.ok dependencies', s') ∧
      dependencies ≠ dependencies' ∧ s.findings.classesScanned = 2 ∧
      dependencies.toList.Perm dependencies'.toList ∧ s.findings.Reordered s'.findings := by
  obtain ⟨dependencies, s, hend, hfound⟩ : ∃ dependencies s,
      (inspect inspectingJob).run.run (.start [] twoOrders) = (.ok dependencies, s) ∧
        (dependencies.toList.head?.map Coordinate.artifactId, s.findings.classesScanned) =
          (some "slf4j-api".toList, 2) :=
    exists_eq_ok_of_map (by decide +kernel)
  obtain ⟨dependencies', s', hend', hfound'⟩ : ∃ dependencies s,
      (inspect { inspectingJob with archive := .ofString "b.jar" }).run.run (.start [] twoOrders) =
          (.ok dependencies, s) ∧
        dependencies.toList.head?.map Coordinate.artifactId = some "gson".toList :=
    exists_eq_ok_of_map (by decide +kernel)
  obtain ⟨hfirst, hscanned⟩ := Prod.mk.inj hfound
  have hne : dependencies ≠ dependencies' := by
    rintro rfl
    rw [hfirst] at hfound'
    exact absurd hfound' (by decide)
  have hreorders : Archive.Reorders inspectingJob.settings twoClasses twoClasses.reverse :=
    ⟨(List.reverse_perm twoClasses).symm, by decide +kernel, by decide +kernel⟩
  have hcontent : ArchiveReader.contentOf inspectingJob.settings inspectingJob.archive twoOrders =
    .ok twoClasses := eq_ok_of_toOption (by decide +kernel)
  have hcontent' : ArchiveReader.contentOf inspectingJob.settings (.ofString "b.jar") twoOrders =
    .ok twoClasses.reverse := eq_ok_of_toOption (by decide +kernel)
  have h : SameInspection ((inspect inspectingJob).run.run (.start [] twoOrders))
      ((inspect { inspectingJob with archive := .ofString "b.jar" }).run.run
        (.start [] twoOrders)) :=
    inspection_of_reorders PackageTable.isConsistent_known hcontent hcontent' hreorders
  rw [hend, hend'] at h
  obtain ⟨hperm, hsame⟩ | _ := h
  exact ⟨dependencies, s, dependencies', s', hend, hend', hne, hscanned, hperm, hsame⟩

end Rebuild

end Unjar
