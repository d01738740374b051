import Unjar.Proofs.Making
import Unjar.Proofs.Rebuild.Accounting

/-!
Sources filed one after the other.

Whatever texts come, each can be filed: the package and the type that it declares are identifiers, so
that its file lies beneath the directory of sources, and since no identifier has a dot, no package is
ever wanted where a file stands, nor a file where a package is.  The books agree with the shelves:
each text that is not blank has its record, the files are those recorded, each holds the last text for
it, and the collisions are the records of files that were there before.

Main definitions:

* `Unjar.JavaSource.IsSimpleName` — the names of packages and types, character by character;
* `Unjar.Placement.acceptAll`, `Unjar.Placement.recordOf?` — texts placed in turn, and the record of
  a text;
* `Unjar.repeats` — what occurs again;
* `Unjar.Placement.Shelves` — **the invariant**: what stands beneath the directory of sources;
* `Unjar.Placement.Books` — **the books and the shelves** agree.

Main results:

* `Unjar.Placement.accept_returns` — a text can be placed where its way is clear;
* `Unjar.Placement.Shelves.accept` — each text can be placed, and the books stay in order;
* `Unjar.Placement.acceptAll_returns` — **all texts can be placed**, and the books are exact.
-/

set_option autoImplicit false

namespace Unjar

/-! ### Names -/

namespace JavaSource

/-- A letter, an underscore or a dollar sign. -/
def IsNameStart (c : Char) : Prop :=
  'A' ≤ c ∧ c ≤ 'Z' ∨ 'a' ≤ c ∧ c ≤ 'z' ∨ c = '_' ∨ c = '$'

/-- **The names of packages and types**: a letter, an underscore or a dollar sign, and behind it also
digits. -/
def IsSimpleName (t : Text) : Prop :=
  ∃ first rest, t = first :: rest ∧ IsNameStart first ∧
    ∀ c ∈ rest, IsNameStart c ∨ '0' ≤ c ∧ c ≤ '9'

theorem isIdentifierStart_iff {c : Char} : isIdentifierStart c = true ↔ IsNameStart c := by
  simp [isIdentifierStart, IsNameStart, Text.isAlpha_iff, or_assoc]

theorem isIdentifierPart_iff {c : Char} :
    isIdentifierPart c = true ↔ IsNameStart c ∨ '0' ≤ c ∧ c ≤ '9' := by
  simp [isIdentifierPart, isIdentifierStart_iff, Text.isDigit_iff]

theorem isIdentifier_iff {t : Text} : isIdentifier t = true ↔ IsSimpleName t := by
  cases t with
  | nil => simp [isIdentifier, IsSimpleName]
  | cons c r => simp [isIdentifier, IsSimpleName, isIdentifierStart_iff, isIdentifierPart_iff]

theorem dot_not_mem_of_isIdentifier {t : Text} (h : isIdentifier t = true) : '.' ∉ t :=
  not_mem_of_isIdentifier h (by decide)

end JavaSource

/-! ### What occurs again -/

/-- **What occurs again**, once for each time. -/
def repeats {α : Type} [DecidableEq α] (l : List α) : List α :=
  ((Rebuild.withEarlier [] l).filter fun split => split.2 ∈ split.1).map Prod.snd

section

variable {α : Type} [DecidableEq α]

theorem repeats_concat (l : List α) (a : α) :
    repeats (l ++ [a]) = repeats l ++ if a ∈ l then [a] else [] := by
  rw [repeats, Rebuild.withEarlier_concat, List.filter_append, List.map_append, repeats]
  by_cases ha : a ∈ l <;> simp [ha]

/-- What occurs again among the images under an injective map. -/
theorem repeats_map {β : Type} [DecidableEq β] {f : α → β} (hf : Function.Injective f) (l : List α) :
    repeats (l.map f) = (repeats l).map f := by
  induction l using List.reverseRecOn with
  | nil => rfl
  | append_singleton l a ih =>
      rw [List.map_append, List.map_singleton, repeats_concat, repeats_concat, ih, List.map_append]
      simp only [List.mem_map_of_injective hf]
      split <;> rfl

theorem length_eraseDups_add_length_repeats (l : List α) :
    l.eraseDups.length + (repeats l).length = l.length := by
  induction l using List.reverseRecOn with
  | nil => rfl
  | append_singleton l a ih =>
      rw [repeats_concat]
      by_cases ha : a ∈ l
      · rw [eraseDups_concat_of_mem ha, if_pos ha, List.length_append, List.length_append, ← ih,
          Nat.add_assoc]
      · rw [eraseDups_concat_of_not_mem ha, if_neg ha, List.append_nil, List.length_append,
          List.length_append, ← ih, Nat.add_right_comm]

end

/-- The books of sources placed in turn. -/
def WriteRegistry.ofRecords (records : List SourceRecord) : WriteRegistry :=
  ⟨records, repeats (records.map SourceRecord.destination)⟩

namespace WriteRegistry

theorem register_ofRecords (records : List SourceRecord) (record : SourceRecord) :
    (ofRecords records).register record = ofRecords (records ++ [record]) := by
  have hwritten : (ofRecords records).hasWritten record.destination = true ↔
      record.destination ∈ records.map SourceRecord.destination := by
    simp [hasWritten, ofRecords]
  have hagain : ofRecords (records ++ [record]) =
      ⟨records ++ [record], repeats (records.map SourceRecord.destination) ++
        if record.destination ∈ records.map SourceRecord.destination then [record.destination]
        else []⟩ := by
    rw [ofRecords, List.map_append, List.map_singleton, repeats_concat]
  rw [hagain, register]
  by_cases hmem : record.destination ∈ records.map SourceRecord.destination
  · rw [if_pos (hwritten.mpr hmem), if_pos hmem]
    rfl
  · rw [if_neg (mt hwritten.mp hmem), if_neg hmem, List.append_nil]
    rfl

theorem mem_destinations {r : WriteRegistry} {file : Path} :
    file ∈ r.destinations ↔ ∃ record ∈ r.records, record.destination = file := by
  rw [destinations, List.mem_eraseDups, List.mem_map]

end WriteRegistry

namespace Placement

/-! ### One text -/

/-- **The record of a text**; a text of blanks has none. -/
def recordOf? (p : Placement) (text : Text) : Option SourceRecord :=
  let names := JavaSource.declaredNames text
  if Text.isAllBlank text then none
  else some ⟨names.packageName, names.typeName, p.sourceRoot.join ⟨0, sourceNames text⟩⟩

variable {p p' : Placement} {t t' u : FileTree} {root there : Location} {text : Text}
  {texts : List Text}

/-- The directories of a package end before its file. -/
theorem not_on_way (root : Location) (text : Text) :
    ¬root ++ sourceNames text <+: root ++ (JavaSource.declaredNames text).package := by
  intro h
  have hlength := h.length_le
  simp only [sourceNames, List.length_append, List.length_singleton] at hlength
  omega

theorem accept_of_blank (hblank : Text.isAllBlank text = true) (p : Placement) (t : FileTree) :
    p.accept text t = (.ok (p.recordOf? text), p, t) := by
  rw [accept, if_pos hblank, recordOf?, if_pos hblank]

/-- **A text can be placed** where its way is clear and no directory stands in place of its file. -/
theorem accept_returns (hwf : t.WellFormed) (hlocate : t.locate p.sourceRoot = .ok root)
    (hroot : t.get? root = some .directory)
    (hclear : t.Clear root (JavaSource.declaredNames text).package)
    (hfile : t.get? (root ++ sourceNames text) ≠ some .directory)
    (hblank : Text.isAllBlank text = false) :
    ∃ record u, p.recordOf? text = some record ∧
      t.Makes root (JavaSource.declaredNames text).package u ∧
      p.accept text t = (.ok (some record), { p with registry := p.registry.register record },
        u.put (root ++ sourceNames text) (.file (sourceContent text))) := by
  have hnotblank : ¬Text.isAllBlank text = true := by simp [hblank]
  have hup := up_not_mem_sourceNames text
  obtain ⟨u, hmake, hmakes⟩ := FileTree.makeDirectories_returns hwf hlocate hroot
    (fun h => hup (List.mem_append_left _ h)) hclear
  have hparent : (p.sourceRoot.join ⟨0, sourceNames text⟩).parent =
      ⟨p.sourceRoot.root, p.sourceRoot.parts ++ (JavaSource.declaredNames text).package⟩ := by
    simp [Path.join, Path.parent, sourceNames, ← List.append_assoc]
  have hfileu : u.get? (root ++ sourceNames text) ≠ some .directory := by
    rwa [hmakes.nodes, if_neg fun hway => not_on_way root text hway.2]
  have hwrite : Returns (writeWithParents (p.sourceRoot.join ⟨0, sourceNames text⟩)
      (sourceContent text)) t ()
      (u.put (root ++ sourceNames text) (.file (sourceContent text))) := by
    refine returns_bind.mpr ⟨(), u, by rwa [hparent], ?_⟩
    exact FileTree.returns_writeFile (hmakes.locate hlocate hup) hfileu
  refine ⟨_, u, if_neg hnotblank, hmakes, ?_⟩
  rw [accept, if_neg hnotblank]
  dsimp only
  rw [destinationIn_eq, encode_endLine, write_eq, hwrite]
  rfl

/-! ### The shelves -/

/-- **What stands beneath the directory of sources**, once texts have been placed in a tree: a package
has a name without a dot and a file has one with a dot, and each file holds the last text for it.  All
else is as it was. -/
structure Shelves (p : Placement) (t : FileTree) (root : Location) (texts : List Text)
    (t' : FileTree) : Prop where
  wellFormed : t'.WellFormed
  working : t'.workingDirectory = t.workingDirectory
  located : t'.locate p.sourceRoot = .ok root
  directory : t'.get? root = some .directory
  dotted : ∀ front last node, t'.get? (root ++ (front ++ [last])) = some node →
    (node = .directory ↔ '.' ∉ last)
  files : ∀ there, Path.isBeneath there root = true →
    t'.file? there = (lastAt (Rebuild.sourceFiles root texts) there).map Node.file
  outside : ∀ there, Path.isBeneath there root = false → t'.get? there = t.get? there

/-- Before the first text there is nothing but the directory. -/
theorem shelves_nil (hwf : t.WellFormed) (hlocate : t.locate p.sourceRoot = .ok root)
    (hroot : t.get? root = some .directory)
    (hempty : ∀ there, Path.isBeneath there root = true → t.get? there = none) :
    Shelves p t root [] t where
  wellFormed := hwf
  working := rfl
  located := hlocate
  directory := hroot
  dotted := by
    intro front last node hnode
    rw [hempty _ (Path.isBeneath_iff.mpr ⟨front ++ [last], by simp, rfl⟩)] at hnode
    cases hnode
  files := fun there hthere => FileTree.file?_of_get?_eq_none (hempty there hthere)
  outside := fun _ _ => rfl

theorem dot_mem_type_append_suffix (type : Text) : '.' ∈ type ++ ".java".toList :=
  List.mem_append_right _ (by decide)

namespace Shelves

theorem concat_of_blank (h : Shelves p t root texts t') (hblank : Text.isAllBlank text = true) :
    Shelves p t root (texts ++ [text]) t' :=
  { h with files := by simpa only [Rebuild.sourceFiles_concat_of_blank hblank] using h.files }

/-- The way to any package is clear. -/
theorem clear (h : Shelves p t root texts t') (text : Text) :
    t'.Clear root (JavaSource.declaredNames text).package := by
  intro front hfront
  rcases List.eq_nil_or_concat front with rfl | ⟨front, last, rfl⟩
  · exact .inr (by simpa using h.directory)
  · rw [List.concat_eq_append] at hfront ⊢
    have hlast : '.' ∉ last := JavaSource.dot_not_mem_of_isIdentifier
      ((JavaSource.isIdentifier_of_declaredNames text).package last
        (hfront.subset (List.mem_append_right _ (List.mem_singleton_self last))))
    cases hnode : t'.get? (root ++ (front ++ [last])) with
    | none => exact .inl rfl
    | some node => exact .inr (by rw [(h.dotted _ _ _ hnode).mpr hlast])

/-- No package stands in place of a file. -/
theorem get?_sourceNames (h : Shelves p t root texts t') (text : Text) :
    t'.get? (root ++ sourceNames text) ≠ some .directory := by
  intro hdirectory
  exact (h.dotted _ _ _ hdirectory).mp rfl (dot_mem_type_append_suffix _)

/-- What stands once the directories and the file of a text are there. -/
theorem concat (h : Shelves p t root texts t') (hblank : Text.isAllBlank text = false)
    (hmakes : t'.Makes root (JavaSource.declaredNames text).package u)
    (hwrites : t'.Writes (root ++ sourceNames text) (sourceContent text)
      (u.put (root ++ sourceNames text) (.file (sourceContent text)))) :
    Shelves p t root (texts ++ [text])
      (u.put (root ++ sourceNames text) (.file (sourceContent text))) := by
  have hne : root ++ sourceNames text ≠ [] := by simp [sourceNames]
  have hfile : u.get? (root ++ sourceNames text) ≠ some .directory := by
    rw [hmakes.nodes, if_neg fun hway => not_on_way root text hway.2]
    exact h.get?_sourceNames text
  have hnames := JavaSource.isIdentifier_of_declaredNames text
  have hkept : ∀ there, t'.get? there = some .directory →
      (u.put (root ++ sourceNames text) (.file (sourceContent text))).get? there =
        some .directory := by
    intro there hthere
    rw [FileTree.get?_put hne, if_neg, hmakes.get?_of_directory hthere]
    rintro rfl
    exact h.get?_sourceNames text hthere
  constructor
  · refine (hmakes.wellFormed h.wellFormed h.directory).put hne ?_ fun hdirectory =>
      absurd hdirectory hfile
    rw [sourceNames, ← List.append_assoc, List.dropLast_concat, hmakes.nodes, if_pos]
    exact ⟨List.prefix_append _ _, List.prefix_rfl⟩
  · exact hwrites.working.trans h.working
  · exact FileTree.locate_mono hwrites.working hkept h.located
  · exact hkept root h.directory
  · intro front last node hnode
    rw [FileTree.get?_put hne] at hnode
    split at hnode
    · next he =>
      -- the file of the text, whose name has the dot of its suffix
      obtain ⟨-, hlast⟩ := List.append_inj' (List.append_cancel_left he) rfl
      cases hnode
      rw [List.singleton_inj.mp hlast]
      exact iff_of_false (by simp) fun hdot => hdot (dot_mem_type_append_suffix _)
    · rw [hmakes.nodes] at hnode
      split at hnode
      · next hway =>
        -- a directory of its package
        have hlast := ((List.prefix_append_right_inj root).mp hway.2).subset
          (List.mem_append_right _ (List.mem_singleton_self last))
        cases hnode
        simp [JavaSource.dot_not_mem_of_isIdentifier (hnames.package last hlast)]
      · exact h.dotted front last node hnode
  · intro there hthere
    rw [Rebuild.sourceFiles_concat hblank, sourceFile, lastAt_concat, hwrites.files]
    split
    · rfl
    · exact h.files there hthere
  · intro there hthere
    rw [← h.outside there hthere, FileTree.get?_put hne, if_neg, hmakes.nodes]
    · split
      · next hway =>
        have he : there = root := by
          by_contra hne
          obtain ⟨rest, rfl⟩ := hway.1
          rw [Path.isBeneath_iff.mpr ⟨rest, by rintro rfl; simp at hne, rfl⟩] at hthere
          cases hthere
        rw [he, h.directory]
      · rfl
    · rintro rfl
      rw [Path.isBeneath_iff.mpr ⟨_, sourceNames_ne_nil text, rfl⟩] at hthere
      cases hthere

end Shelves

/-! ### One text after the other -/

/-- **Texts placed in turn**: what is returned for each, and where that leads. -/
def acceptAll (p : Placement) (t : FileTree) :
    List Text → List (Except WriteFault (Option SourceRecord)) × Placement × FileTree
  | [] => ([], p, t)
  | text :: texts =>
    let (result, p, t) := p.accept text t
    let (results, p, t) := p.acceptAll t texts
    (result :: results, p, t)

/-- The placement after texts were placed in turn. -/
def after (p : Placement) (texts : List Text) : Placement :=
  { p with registry := .ofRecords (texts.filterMap p.recordOf?) }

/-- **Each text can be placed**, whatever was placed before. -/
theorem Shelves.accept (h : Shelves p t root texts t') (text : Text) :
    ∃ u, (p.after texts).accept text t' =
        (.ok (p.recordOf? text), p.after (texts ++ [text]), u) ∧
      Shelves p t root (texts ++ [text]) u := by
  by_cases hblank : Text.isAllBlank text = true
  · refine ⟨t', ?_, h.concat_of_blank hblank⟩
    rw [accept_of_blank hblank]
    simp [after, recordOf?, hblank]
  · have hblank : Text.isAllBlank text = false := by simpa using hblank
    obtain ⟨record, u, hrecord, hmakes, haccept⟩ := accept_returns (p := p.after texts)
      h.wellFormed h.located h.directory (h.clear text) (h.get?_sourceNames text) hblank
    have hsome : p.recordOf? text = some record := hrecord
    refine ⟨_, ?_, h.concat hblank hmakes ?_⟩
    · rw [haccept, hsome]
      simp [after, WriteRegistry.register_ofRecords, hsome]
    · obtain ⟨hb, -⟩ | ⟨-, -, -, -, hwrites⟩ := accept_eq_ok haccept
      · rw [hblank] at hb
        cases hb
      · rwa [show Path.normalize t'.workingDirectory (p.after texts).sourceRoot = root from
          (FileTree.locate_eq h.located).symm] at hwrites

/-- **All texts can be placed**, one after the other. -/
theorem Shelves.acceptAll (h : Shelves p t root texts t') (more : List Text) :
    ∃ u, (p.after texts).acceptAll t' more =
        (more.map fun text => .ok (p.recordOf? text), p.after (texts ++ more), u) ∧
      Shelves p t root (texts ++ more) u := by
  induction more generalizing texts t' with
  | nil => exact ⟨t', by simp [Placement.acceptAll], by rwa [List.append_nil]⟩
  | cons text more ih =>
      obtain ⟨u, haccept, hu⟩ := h.accept text
      obtain ⟨v, hmore, hv⟩ := ih hu
      rw [List.append_assoc, List.singleton_append] at hmore hv
      refine ⟨v, ?_, hv⟩
      rw [Placement.acceptAll, haccept]
      dsimp only
      rw [hmore]
      rfl

/-- Texts of blanks make no difference. -/
theorem acceptAll_filter (p : Placement) (t : FileTree) (texts : List Text) :
    (p.acceptAll t (texts.filter fun text => !Text.isAllBlank text)).2 = (p.acceptAll t texts).2 := by
  induction texts generalizing p t with
  | nil => rfl
  | cons text texts ih =>
      by_cases hblank : Text.isAllBlank text = true
      · rw [List.filter_cons_of_neg (by simp [hblank]), ih, acceptAll, accept_of_blank hblank]
      · rw [List.filter_cons_of_pos (by simpa using hblank), acceptAll, acceptAll]
        exact ih _ _

/-! ### Books and shelves -/

/-- **The books and the shelves agree** once texts have been placed, in a tree with an empty directory
of sources. -/
structure Books (p : Placement) (t : FileTree) (texts : List Text) (p' : Placement)
    (t' : FileTree) : Prop where
  /-- Each text that is not blank has its record, in order. -/
  records : p'.registry.records = texts.filterMap p.recordOf?
  /-- A file is a name beneath directories of names, those that its record tells. -/
  named : ∀ record ∈ p'.registry.records, ∃ package type,
    (∀ name ∈ package, JavaSource.IsSimpleName name) ∧ JavaSource.IsSimpleName type ∧
      record.package = joinWith ['.'] package ∧ record.type = type ∧
      record.destination = p.sourceRoot.join ⟨0, package ++ [type ++ ".java".toList]⟩
  /-- The destinations are those of the records, each once. -/
  destinations : p'.registry.destinations.Nodup ∧ ∀ file, file ∈ p'.registry.destinations ↔
    ∃ record ∈ p'.registry.records, record.destination = file
  /-- The collisions are the records of files that were there before, in order. -/
  collisions :
    p'.registry.collisions = repeats (p'.registry.records.map SourceRecord.destination)
  counted : p'.registry.records.length =
    p'.registry.destinations.length + p'.registry.collisions.length
  /-- The destinations lie beneath the directory of sources. -/
  inside : ∀ file ∈ p'.registry.destinations,
    Path.isBeneath (Path.normalize t.workingDirectory file)
      (Path.normalize t.workingDirectory p.sourceRoot) = true
  /-- No destination lies beneath another. -/
  apart : ∀ file ∈ p'.registry.destinations, ∀ other ∈ p'.registry.destinations,
    Path.isBeneath (Path.normalize t.workingDirectory file)
      (Path.normalize t.workingDirectory other) = false
  /-- The files beneath the directory of sources are the destinations. -/
  files : ∀ there,
    Path.isBeneath there (Path.normalize t.workingDirectory p.sourceRoot) = true →
      ((t'.file? there).isSome ↔
        ∃ file ∈ p'.registry.destinations, Path.normalize t.workingDirectory file = there)
  /-- Each holds the last text for it, as `sourceContent` tells. -/
  contents : ∀ there,
    Path.isBeneath there (Path.normalize t.workingDirectory p.sourceRoot) = true →
      t'.file? there = (lastAt (Rebuild.sourceFiles
        (Path.normalize t.workingDirectory p.sourceRoot) texts) there).map Node.file
  /-- All else is as it was. -/
  outside : ∀ there,
    Path.isBeneath there (Path.normalize t.workingDirectory p.sourceRoot) = false →
      t'.get? there = t.get? there

theorem recordOf?_eq_some {record : SourceRecord} (h : p.recordOf? text = some record) :
    Text.isAllBlank text = false ∧
      record.package = (JavaSource.declaredNames text).packageName ∧
      record.type = (JavaSource.declaredNames text).typeName ∧
      record.destination = p.sourceRoot.join ⟨0, sourceNames text⟩ := by
  unfold recordOf? at h
  dsimp only at h
  split at h
  · cases h
  · next hblank =>
    cases h
    exact ⟨by simpa using hblank, rfl, rfl, rfl⟩

theorem mem_destinations_after {file : Path} : file ∈ (p.after texts).registry.destinations ↔
    ∃ text ∈ texts, Text.isAllBlank text = false ∧
      p.sourceRoot.join ⟨0, sourceNames text⟩ = file := by
  rw [WriteRegistry.mem_destinations]
  constructor
  · rintro ⟨record, hrecord, rfl⟩
    obtain ⟨text, htext, hof⟩ := List.mem_filterMap.mp hrecord
    obtain ⟨hblank, -, -, hfile⟩ := recordOf?_eq_some hof
    exact ⟨text, htext, hblank, hfile.symm⟩
  · rintro ⟨text, htext, hblank, rfl⟩
    have hof : p.recordOf? text = some ⟨_, _, _⟩ := if_neg (by simp [hblank])
    exact ⟨_, List.mem_filterMap.mpr ⟨text, htext, hof⟩, rfl⟩

/-- The file of a text is no directory of a package. -/
theorem not_isBeneath_sourceNames (root : Location) (text other : Text) :
    Path.isBeneath (root ++ sourceNames text) (root ++ sourceNames other) = false := by
  rw [← Bool.not_eq_true, Path.isBeneath_iff]
  rintro ⟨rest, hrest, he⟩
  rw [List.append_assoc] at he
  have hnames := List.append_cancel_left he
  have hpackage : (JavaSource.declaredNames text).package =
      sourceNames other ++ rest.dropLast := by
    rw [← List.dropLast_append_of_ne_nil hrest, ← hnames, sourceNames, List.dropLast_concat]
  have hmem : (JavaSource.declaredNames other).typeName ++ ".java".toList ∈
      (JavaSource.declaredNames text).package := by
    rw [hpackage, sourceNames]
    simp
  exact JavaSource.dot_not_mem_of_isIdentifier
    ((JavaSource.isIdentifier_of_declaredNames text).package _ hmem)
    (dot_mem_type_append_suffix _)

/-- **Where the shelves are in order, the books agree with them.** -/
theorem Shelves.books
    (h : Shelves p t (Path.normalize t.workingDirectory p.sourceRoot) texts t') :
    Books p t texts (p.after texts) t' := by
  constructor
  · rfl
  · intro record hrecord
    obtain ⟨text, -, hof⟩ := List.mem_filterMap.mp hrecord
    obtain ⟨-, hpackage, htype, hfile⟩ := recordOf?_eq_some hof
    have hnames := JavaSource.isIdentifier_of_declaredNames text
    exact ⟨(JavaSource.declaredNames text).package, (JavaSource.declaredNames text).typeName,
      fun name hname => JavaSource.isIdentifier_iff.mp (hnames.package name hname),
      JavaSource.isIdentifier_iff.mp hnames.type, hpackage, htype, hfile⟩
  · exact ⟨nodup_eraseDups _, fun file => WriteRegistry.mem_destinations⟩
  · rfl
  · have hlength := length_eraseDups_add_length_repeats
      ((p.after texts).registry.records.map SourceRecord.destination)
    rw [List.length_map] at hlength
    exact hlength.symm
  · intro file hfile
    obtain ⟨text, -, -, rfl⟩ := mem_destinations_after.mp hfile
    rw [normalize_source]
    exact Path.isBeneath_iff.mpr ⟨_, sourceNames_ne_nil text, rfl⟩
  · intro file hfile other hother
    obtain ⟨text, -, -, rfl⟩ := mem_destinations_after.mp hfile
    obtain ⟨text', -, -, rfl⟩ := mem_destinations_after.mp hother
    rw [normalize_source, normalize_source]
    exact not_isBeneath_sourceNames _ text text'
  · intro there hthere
    rw [h.files there hthere, Option.isSome_map, lastAt_isSome]
    simp only [Rebuild.sourceFiles, List.map_map, List.mem_map, List.mem_filter,
      Function.comp_apply, sourceFile, Bool.not_eq_true', mem_destinations_after]
    constructor
    · rintro ⟨text, ⟨htext, hblank⟩, rfl⟩
      exact ⟨_, ⟨text, htext, hblank, rfl⟩, normalize_source _ _ _⟩
    · rintro ⟨_, ⟨text, htext, hblank, rfl⟩, rfl⟩
      exact ⟨text, ⟨htext, hblank⟩, (normalize_source _ _ _).symm⟩
  · exact h.files
  · exact h.outside

/-- **All texts can be placed**, whatever they hold, and the books are exact.  From empty books and an
empty directory of sources on, no text fails, texts of blanks make no difference, and after any number
of texts the books agree with the shelves. -/
theorem acceptAll_returns (hwf : t.WellFormed) (hregistry : p.registry = .empty)
    (hroot : t.stat p.sourceRoot = some .directory)
    (hempty : ∀ there,
      Path.isBeneath there (Path.normalize t.workingDirectory p.sourceRoot) = true →
        t.get? there = none) (texts : List Text) :
    ∃ p' t', p.acceptAll t texts = (texts.map fun text => .ok (p.recordOf? text), p', t') ∧
      (p.acceptAll t (texts.filter fun text => !Text.isAllBlank text)).2 = (p', t') ∧
      Books p t texts p' t' := by
  obtain ⟨root, hlocate, hdirectory⟩ : ∃ root, t.locate p.sourceRoot = .ok root ∧
      t.get? root = some .directory := by
    unfold FileTree.stat at hroot
    split at hroot
    · next root hlocate => exact ⟨root, hlocate, hroot⟩
    · cases hroot
  obtain rfl := FileTree.locate_eq hlocate
  have hstart : p.after [] = p := by
    rw [after, List.filterMap_nil, show WriteRegistry.ofRecords [] = .empty from rfl, ← hregistry]
  obtain ⟨t', hend, hshelves⟩ :=
    (shelves_nil hwf hlocate hdirectory hempty).acceptAll texts
  rw [hstart, List.nil_append] at hend
  exact ⟨p.after texts, t', hend, by rw [acceptAll_filter, hend], hshelves.books⟩

/-- A tree with an empty directory of sources. -/
def emptyShelves : FileTree := ⟨[(["src".toList], .directory)], [], []⟩

/-- A class, blanks, the class again, and one that is named like its package. -/
def fourTexts : List Text :=
  ["package a;class C".toList, " \n".toList, "package a;class C\n".toList, "class a".toList]

/-- A placement in it. -/
def emptyBooks : Placement := start (.ofString "src") (.ofString "res") .empty

theorem acceptAll_returns_sample :
    ∃ p' t', emptyBooks.acceptAll emptyShelves fourTexts =
        (fourTexts.map fun text => .ok (emptyBooks.recordOf? text), p', t') ∧
      p'.registry.destinations = [.ofString "src/a/C.java", .ofString "src/a.java"] ∧
      p'.registry.collisions = [.ofString "src/a/C.java"] ∧
      t'.file? ["src".toList, "a".toList, "C.java".toList] =
        some (.file (Utf8.encode "package a;class C\n".toList)) ∧
      t'.file? ["src".toList, "a.java".toList] = some (.file (Utf8.encode "class a\n".toList)) ∧
      Books emptyBooks emptyShelves fourTexts p' t' := by
  have hwf : emptyShelves.WellFormed :=
    FileTree.wellFormed_of_nodes (by decide +kernel) (by decide +kernel)
  have hroot : Path.normalize emptyShelves.workingDirectory emptyBooks.sourceRoot =
    ["src".toList] := by decide +kernel
  have hempty : ∀ there,
      Path.isBeneath there (Path.normalize emptyShelves.workingDirectory emptyBooks.sourceRoot) =
        true → emptyShelves.get? there = none := by
    intro there hthere
    rw [hroot] at hthere
    obtain ⟨rest, hrest, rfl⟩ := Path.isBeneath_iff.mp hthere
    simp [FileTree.get?, emptyShelves, hrest]
  have hfiles : (fourTexts.filterMap emptyBooks.recordOf?).map SourceRecord.destination =
      [.ofString "src/a/C.java", .ofString "src/a/C.java", .ofString "src/a.java"] := by
    decide +kernel
  obtain ⟨p', t', hend, -, hbooks⟩ :=
    acceptAll_returns (p := emptyBooks) hwf rfl (by decide +kernel) hempty fourTexts
  have hcontents := hbooks.contents
  rw [← hbooks.records] at hfiles
  rw [hroot] at hcontents
  refine ⟨p', t', hend, ?_, ?_, ?_, ?_, hbooks⟩
  · rw [WriteRegistry.destinations, hfiles]
    decide +kernel
  · rw [hbooks.collisions, hfiles]
    decide +kernel
  · rw [hcontents _ (by decide +kernel)]
    decide +kernel
  · rw [hcontents _ (by decide +kernel)]
    decide +kernel

end Placement

end Unjar
