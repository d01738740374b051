import Unjar.Proofs.JavaSource.Heading
import Unjar.Proofs.Segments

/-!
Sources of one empty class.

A source text that declares a package, or none, and one class is filed under these names, whatever
blanks stand between the two declarations: its file is the one of the class in the directories of the
package.  Different names have different files.  So of sources filed in turn none overwrites one of
other names, and the only collisions are of those that declare the same.

All this is said of names of ASCII characters.  A name with another letter is read as several tokens,
and a source that declares one is filed elsewhere: `declaredNames_text_iff` says that these are all the
exceptions there are, and `Unjar.Placement.acceptAll_differs` has two such sources that end up in one
file.

Main definitions:

* `Unjar.JavaSource.SourceUnit`, `Unjar.JavaSource.SourceUnit.text` — a package and a class, and the
  source that declares them;
* `Unjar.Placement.fileOf` — **the file of a class in a package**;
* `Unjar.Placement.FilesUnit`, `Unjar.Placement.FilesUnits` — one source is filed, and many are in turn.

Main results:

* `Unjar.JavaSource.SourceUnit.declaredNames_text_iff` — what is declared is found exactly if its names
  are ASCII;
* `Unjar.Placement.fileOf_injective` — different names have different files;
* `Unjar.Placement.acceptAll_units` — **every class is filed under its own names**.
-/

set_option autoImplicit false

namespace Unjar

namespace JavaSource

variable {rest t : Text} {ls : List Lexeme} {parts : List Text}

/-! ### What spells a name -/

/-- Blanks may stand in front. -/
theorem Spells.blanks (gap : Text) (hgap : Text.isAllBlank gap = true) (h : Spells rest ls t) :
    Spells rest ls (gap ++ t) := by
  induction gap with
  | nil => exact h
  | cons c gap ih =>
      rw [Text.isAllBlank, List.all_cons, Bool.and_eq_true] at hgap
      change Spells rest ls ([c] ++ (gap ++ t))
      exact .filler (.blank hgap.1) (ih hgap.2)

/-- A character that is no part of an identifier ends one. -/
theorem endsBefore_cons {c : Char} (hc : isIdentifierPart c = false) (r : Text) :
    ∀ d ∈ (c :: r).head?, isIdentifierPart d = false := by
  intro d hd
  obtain rfl := Option.some.inj hd
  exact hc

/-- The parts of a dotted name, with dots between them. -/
theorem Spells.dotted (hparts : ∀ part ∈ parts, isIdentifier part = true)
    (hends : ∀ c ∈ t.head?, isIdentifierPart c = false) (h : Spells rest ls t) :
    Spells rest (dotted parts ++ ls) (joinWith ['.'] parts ++ t) := by
  fun_induction JavaSource.dotted parts with
  | case1 => exact h
  | case2 part =>
      exact .lexeme (Lexeme.wellFormed_name (hparts part List.mem_cons_self)) hends h
  | case3 part parts hmore ih =>
      rw [List.forall_mem_cons] at hparts
      have hdot : Spells rest (.sign '.' :: (JavaSource.dotted parts ++ ls))
          ('.' :: (joinWith ['.'] parts ++ t)) :=
        .lexeme (l := .sign '.') ⟨by decide, by decide, by decide⟩
          (fun hslash => absurd hslash (by decide)) (ih hparts.2)
      rw [joinWith_cons ['.'] part hmore, List.append_assoc, List.append_assoc]
      exact .lexeme (Lexeme.wellFormed_name hparts.1) (endsBefore_cons (by decide) _) hdot

/-! ### Sources of one class -/

/-- **A package and a class**, and what stands between their declarations. -/
structure SourceUnit where
  /-- The parts of the name of the package; none where no package is declared. -/
  package : List Text
  /-- The name of the class. -/
  type : Text
  /-- What stands between the declarations. -/
  gap : Text

namespace SourceUnit

variable {u : SourceUnit}

/-- The declaration of the package, if there is one. -/
def clause (u : SourceUnit) : Text :=
  if u.package = [] then [] else "package ".toList ++ joinWith ['.'] u.package ++ [';']

/-- **The source** that declares the package and the class. -/
def text (u : SourceUnit) : Text :=
  u.clause ++ u.gap ++ ("public class ".toList ++ u.type ++ " \x7b\x7d".toList)

/-- Nothing but blanks stands between the declarations, and the name of the class is no word that
cannot name a type. -/
structure WellFormed (u : SourceUnit) : Prop where
  gap : Text.isAllBlank u.gap = true
  reserved : u.type ∉ reserved

/-- **All names are of ASCII characters.** -/
structure IsPlain (u : SourceUnit) : Prop where
  package : ∀ part ∈ u.package, IsSimpleName part
  type : IsSimpleName u.type

/-- The lexemes of the declaration of the package. -/
def clauseLexemes (u : SourceUnit) : List Lexeme :=
  if u.package = [] then [] else .name "package".toList :: (dotted u.package ++ [.sign ';'])

theorem packageClause (hu : u.IsPlain) : PackageClause u.clauseLexemes u.package := by
  unfold clauseLexemes
  split
  · next hnone =>
    rw [hnone]
    exact .absent
  · next hsome =>
    have hannotations : ∀ ls ∈ ([] : List (List Lexeme)), Annotation ls := List.forall_mem_nil _
    exact .declared hannotations hsome hu.package

theorem spells_clause (hu : u.IsPlain) (h : Spells rest ls t) :
    Spells rest (u.clauseLexemes ++ ls) (u.clause ++ t) := by
  unfold clauseLexemes clause
  split
  · exact h
  · have hparts : ∀ part ∈ u.package, isIdentifier part = true := fun part hpart =>
      isIdentifier_iff.mpr (hu.package part hpart)
    have hsemicolon : Spells rest (.sign ';' :: ls) (';' :: t) :=
      .lexeme (l := .sign ';') ⟨by decide, by decide, by decide⟩
        (fun hslash => absurd hslash (by decide)) h
    have hname := hsemicolon.dotted hparts (endsBefore_cons (by decide) _)
    have hpackage := (hname.blanks [' '] (by decide)).lexeme (l := .name "package".toList)
      (Lexeme.wellFormed_name (by decide)) (endsBefore_cons (by decide) _)
    simpa [Lexeme.text] using hpackage

/-- The lexemes in front of the body of the class. -/
theorem spells_text (hwf : u.WellFormed) (hu : u.IsPlain) : Spells " \x7b\x7d".toList
    (u.clauseLexemes ++ ([.name "public".toList] ++ ([.name "class".toList] ++ [.name u.type])))
    u.text := by
  have htype : Spells " \x7b\x7d".toList [.name u.type] (u.type ++ " \x7b\x7d".toList) :=
    .lexeme (Lexeme.wellFormed_name (isIdentifier_iff.mpr hu.type))
      (endsBefore_cons (by decide) _) .done
  have hclass := (htype.blanks [' '] (by decide)).lexeme (l := .name "class".toList)
    (Lexeme.wellFormed_name (by decide)) (endsBefore_cons (by decide) _)
  have hpublic := (hclass.blanks [' '] (by decide)).lexeme (l := .name "public".toList)
    (Lexeme.wellFormed_name (by decide)) (endsBefore_cons (by decide) _)
  have htext := spells_clause hu (hpublic.blanks u.gap hwf.gap)
  simpa [text, Lexeme.text] using htext

/-- **The package and the class are found.** -/
theorem declaredNames_text (hwf : u.WellFormed) (hu : u.IsPlain) :
    declaredNames u.text = ⟨u.package, some u.type⟩ := by
  have hspells := spells_text hwf hu
  have hclause : ∀ l ∈ u.clauseLexemes, l.WellFormed := fun l hl =>
    hspells.wellFormed l (List.mem_append_left _ hl)
  have hpublic : Passes [.name "public".toList] := .word (by decide) (by decide)
  rw [declaredNames, tokens, hspells.tokensAt_eq, lexemeTokens_append, List.append_assoc]
  obtain ⟨hdepth, previous, hprevious, hread⟩ := (packageClause hu).declaredIn_append hclause _
  rw [hread, hdepth, lexemeTokens_append, List.append_assoc, declaredIn_quiet (hpublic.quiet _),
    hpublic.depth]
  exact (TypeKeyword.word (by decide)).declaredIn_append hu.type hwf.reserved
    (hpublic.last _ hprevious) _ _

/-- **They are found exactly if all names are of ASCII characters.** -/
theorem declaredNames_text_iff (hwf : u.WellFormed) :
    declaredNames u.text = ⟨u.package, some u.type⟩ ↔ u.IsPlain := by
  constructor
  · intro h
    obtain ⟨hpackage, htype⟩ := isIdentifier_of_declaredNames u.text
    rw [h] at hpackage htype
    exact ⟨fun part hpart => isIdentifier_iff.mp (hpackage part hpart), isIdentifier_iff.mp htype⟩
  · exact declaredNames_text hwf

/-- **What tells sources apart**: the package and the class. -/
def names (u : SourceUnit) : List Text × Text := (u.package, u.type)

theorem isAllBlank_text (u : SourceUnit) : Text.isAllBlank u.text = false := by
  refine List.all_eq_false.mpr ⟨'p', ?_, by decide⟩
  simp [text]

end SourceUnit

end JavaSource

open JavaSource (SourceUnit)

namespace Placement

variable {p p' : Placement} {t t' : FileTree} {u : SourceUnit} {units : List SourceUnit}
  {result : Option SourceRecord}

/-! ### The file of a class -/

/-- **The file of a class in a package.** -/
def fileOf (p : Placement) (names : List Text × Text) : Path :=
  p.sourceRoot.join ⟨0, names.1 ++ [names.2 ++ ".java".toList]⟩

theorem names_inj {names names' : List Text × Text}
    (h : names.1 ++ [names.2 ++ ".java".toList] = names'.1 ++ [names'.2 ++ ".java".toList]) :
    names = names' := by
  obtain ⟨hpackage, hfile⟩ := List.append_inj' h rfl
  exact Prod.ext hpackage (List.append_cancel_right (List.singleton_inj.mp hfile))

/-- **Different names have different files.** -/
theorem fileOf_injective (p : Placement) : Function.Injective p.fileOf := by
  intro names names' h
  have hparts := congrArg Path.parts h
  exact names_inj (List.append_cancel_left hparts)

/-- The record of a source that is filed under its own names. -/
def recordFor (p : Placement) (u : SourceUnit) : SourceRecord :=
  ⟨joinWith ['.'] u.package, u.type, p.fileOf u.names⟩

theorem sourceNames_text (hwf : u.WellFormed) (hu : u.IsPlain) :
    sourceNames u.text = u.package ++ [u.type ++ ".java".toList] := by
  rw [sourceNames, SourceUnit.declaredNames_text hwf hu]
  rfl

theorem recordOf?_text (hwf : u.WellFormed) (hu : u.IsPlain) :
    p.recordOf? u.text = some (p.recordFor u) := by
  rw [recordOf?, if_neg (by simp [u.isAllBlank_text]), sourceNames_text hwf hu,
    SourceUnit.declaredNames_text hwf hu]
  rfl

/-- The file of a source lies where its names lead. -/
theorem normalize_fileOf (hwf : u.WellFormed) (hu : u.IsPlain) (here : Location) :
    Path.normalize here (p.fileOf u.names) =
      Path.normalize here p.sourceRoot ++ sourceNames u.text := by
  rw [← normalize_source, sourceNames_text hwf hu]
  rfl

/-! ### One source -/

/-- **A source is filed** under its own names, and no other file is touched. -/
structure FilesUnit (p : Placement) (t : FileTree) (u : SourceUnit) (result : Option SourceRecord)
    (p' : Placement) (t' : FileTree) : Prop where
  result : result = some (p.recordFor u)
  registered : p' = { p with registry := p.registry.register (p.recordFor u) }
  writes : t.Writes (Path.normalize t.workingDirectory (p.fileOf u.names))
    (sourceContent u.text) t'

/-- A source that is placed, by whatever placement and in whatever tree, is filed. -/
theorem filesUnit_of_accept (hwf : u.WellFormed) (hu : u.IsPlain)
    (h : p.accept u.text t = (.ok result, p', t')) : FilesUnit p t u result p' t' := by
  have hfile : p.destinationIn u.package u.type = p.fileOf u.names := by
    have heq := destinationIn_eq p u.text
    rwa [sourceNames_text hwf hu, SourceUnit.declaredNames_text hwf hu] at heq
  rw [accept, if_neg (by simp [u.isAllBlank_text]), SourceUnit.declaredNames_text hwf hu] at h
  dsimp only [JavaSource.DeclaredNames.typeName, Option.getD_some] at h
  rw [hfile, encode_endLine] at h
  split at h
  · cases h
  · next t₁ hwrite =>
    cases h
    exact ⟨rfl, rfl, write_eq_ok hwrite⟩

/-! ### Sources in turn -/

/-- **Sources are filed in turn**: those that declare the same names collide, and no others. -/
structure FilesUnits (p : Placement) (t : FileTree) (units : List SourceUnit) (p' : Placement)
    (t' : FileTree) : Prop where
  collisions :
    p'.registry.collisions = (repeats (units.map SourceUnit.names)).map p.fileOf
  /-- The last source of its names is in its file. -/
  contents : ∀ front u back, units = front ++ u :: back → (∀ v ∈ back, v.names ≠ u.names) →
    t'.file? (Path.normalize t.workingDirectory (p.fileOf u.names)) =
      some (.file (sourceContent u.text))

theorem filterMap_recordOf?_text (hwf : ∀ u ∈ units, u.WellFormed)
    (hplain : ∀ u ∈ units, u.IsPlain) :
    (units.map SourceUnit.text).filterMap p.recordOf? = units.map p.recordFor := by
  rw [List.filterMap_map, ← List.filterMap_eq_map]
  exact List.filterMap_congr fun u hu => recordOf?_text (hwf u hu) (hplain u hu)

theorem sourceFiles_text (root : Location) (units : List SourceUnit) :
    Rebuild.sourceFiles root (units.map SourceUnit.text) =
      units.map fun u => sourceFile root u.text := by
  have hall : (units.map SourceUnit.text).filter (fun text => !Text.isAllBlank text) =
      units.map SourceUnit.text := by
    rw [List.filter_eq_self, List.forall_mem_map]
    intro u _
    rw [u.isAllBlank_text]
    rfl
  rw [Rebuild.sourceFiles, hall, List.map_map]
  rfl

/-- Sources that stand on the shelves are filed. -/
theorem Shelves.filesUnits (hwf : ∀ u ∈ units, u.WellFormed) (hplain : ∀ u ∈ units, u.IsPlain)
    (h : Shelves p t (Path.normalize t.workingDirectory p.sourceRoot)
      (units.map SourceUnit.text) t') :
    FilesUnits p t units (p.after (units.map SourceUnit.text)) t' := by
  constructor
  · have hdestinations : (units.map p.recordFor).map SourceRecord.destination =
        (units.map SourceUnit.names).map p.fileOf := by
      rw [List.map_map, List.map_map]
      rfl
    rw [← repeats_map p.fileOf_injective, ← hdestinations, ← filterMap_recordOf?_text hwf hplain]
    rfl
  · rintro front u back rfl hback
    have hu : u ∈ front ++ u :: back := List.mem_append_right _ List.mem_cons_self
    have hbeneath : Path.isBeneath
        (Path.normalize t.workingDirectory p.sourceRoot ++ sourceNames u.text)
        (Path.normalize t.workingDirectory p.sourceRoot) = true :=
      Path.isBeneath_iff.mpr ⟨_, sourceNames_ne_nil _, rfl⟩
    rw [normalize_fileOf (hwf u hu) (hplain u hu), h.files _ hbeneath, sourceFiles_text,
      List.map_append, List.map_cons, sourceFile, lastAt_append_cons]
    · rfl
    · -- a later source in the same place would declare the same names
      rw [List.forall_mem_map]
      intro v hv heq
      have hmem : v ∈ front ++ u :: back :=
        List.mem_append_right _ (List.mem_cons_of_mem _ hv)
      have hnames := List.append_cancel_left heq
      rw [sourceNames_text (hwf u hu) (hplain u hu), sourceNames_text (hwf v hmem) (hplain v hmem)]
        at hnames
      exact hback v hv (names_inj hnames)

/-- Before the first source the shelves are empty. -/
theorem shelves_start (hwf : t.WellFormed) (hroot : t.stat p.sourceRoot = some .directory)
    (hempty : ∀ there,
      Path.isBeneath there (Path.normalize t.workingDirectory p.sourceRoot) = true →
        t.get? there = none) :
    Shelves p t (Path.normalize t.workingDirectory p.sourceRoot) [] t := by
  unfold FileTree.stat at hroot
  split at hroot
  · next root hlocate =>
    obtain rfl := FileTree.locate_eq hlocate
    exact shelves_nil hwf hlocate hroot hempty
  · cases hroot

/-- **Every class is filed under its own names.**  A source that is placed is in the file of its
package and its class; and from empty books and an empty directory of sources on, all sources are
placed, and no file is written again for other names than its own. -/
theorem acceptAll_units (hwf : ∀ u ∈ units, u.WellFormed) (hplain : ∀ u ∈ units, u.IsPlain) :
    (∀ p : Placement, Function.Injective p.fileOf) ∧
    (∀ u ∈ units, ∀ (p : Placement) t result p' t',
      p.accept u.text t = (.ok result, p', t') → FilesUnit p t u result p' t') ∧
    ∀ (p : Placement) (t : FileTree), t.WellFormed → p.registry = .empty →
      t.stat p.sourceRoot = some .directory →
      (∀ there,
        Path.isBeneath there (Path.normalize t.workingDirectory p.sourceRoot) = true →
          t.get? there = none) →
      ∃ p' t', p.acceptAll t (units.map SourceUnit.text) =
          (units.map fun u => .ok (some (p.recordFor u)), p', t') ∧
        FilesUnits p t units p' t' := by
  refine ⟨fileOf_injective, fun u hu p t result p' t' h =>
    filesUnit_of_accept (hwf u hu) (hplain u hu) h, ?_⟩
  intro p t htree hregistry hroot hempty
  obtain ⟨t', hend, hshelves⟩ :=
    (shelves_start htree hroot hempty).acceptAll (units.map SourceUnit.text)
  have hstart : p.after [] = p := by
    rw [after, List.filterMap_nil, show WriteRegistry.ofRecords [] = .empty from rfl, ← hregistry]
  have hresults : ((units.map SourceUnit.text).map fun text =>
      (.ok (p.recordOf? text) : Except WriteFault (Option SourceRecord))) =
        units.map fun u => .ok (some (p.recordFor u)) := by
    rw [List.map_map]
    exact List.map_congr_left fun u hu => congrArg _ (recordOf?_text (hwf u hu) (hplain u hu))
  rw [hstart, List.nil_append, hresults] at hend
  exact ⟨_, t', hend, hshelves.filesUnits hwf hplain⟩

/-- A class in a package, one of the same name in none, and one that is named like the package. -/
def threeUnits : List SourceUnit :=
  [⟨["p".toList, "q".toList], "T".toList, "\n".toList⟩, ⟨[], "T".toList, []⟩,
    ⟨["p".toList], "q".toList, " ".toList⟩]

theorem wellFormed_threeUnits : ∀ u ∈ threeUnits, u.WellFormed := by
  have h : ∀ u ∈ threeUnits, Text.isAllBlank u.gap = true ∧ u.type ∉ JavaSource.reserved := by
    decide
  exact fun u hu => ⟨(h u hu).1, (h u hu).2⟩

theorem isPlain_threeUnits : ∀ u ∈ threeUnits, u.IsPlain := by
  have h : ∀ u ∈ threeUnits, (∀ part ∈ u.package, JavaSource.isIdentifier part = true) ∧
      JavaSource.isIdentifier u.type = true := by decide
  exact fun u hu => ⟨fun part hpart => JavaSource.isIdentifier_iff.mp ((h u hu).1 part hpart),
    JavaSource.isIdentifier_iff.mp (h u hu).2⟩

theorem get?_emptyShelves {there : Location} (hthere : Path.isBeneath there
    (Path.normalize emptyShelves.workingDirectory emptyBooks.sourceRoot) = true) :
    emptyShelves.get? there = none := by
  have hroot : Path.normalize emptyShelves.workingDirectory emptyBooks.sourceRoot =
    ["src".toList] := by decide +kernel
  rw [hroot] at hthere
  obtain ⟨rest, hrest, rfl⟩ := Path.isBeneath_iff.mp hthere
  simp [FileTree.get?, emptyShelves, hrest]

theorem acceptAll_units_sample : ∃ p' t',
    emptyBooks.acceptAll emptyShelves (threeUnits.map SourceUnit.text) =
      (threeUnits.map fun u => .ok (some (emptyBooks.recordFor u)), p', t') ∧
    p'.registry.collisions = [] ∧
    t'.file? ["src".toList, "p".toList, "q".toList, "T.java".toList] =
      some (.file (Utf8.encode "package p.q;\npublic class T \x7b\x7d\n".toList)) := by
  obtain ⟨p', t', hend, hfiled⟩ :=
    (acceptAll_units wellFormed_threeUnits isPlain_threeUnits).2.2 emptyBooks emptyShelves
      (FileTree.wellFormed_of_nodes (by decide +kernel) (by decide +kernel)) rfl
      (by decide +kernel) fun there hthere => get?_emptyShelves hthere
  refine ⟨p', t', hend, ?_, ?_⟩
  · rw [hfiled.collisions]
    decide +kernel
  · exact hfiled.contents [] _ _ rfl (by decide +kernel)

/-- Two classes whose names are single letters beyond ASCII. -/
def foreignUnits : List SourceUnit := [⟨[], "É".toList, []⟩, ⟨[], "Ü".toList, []⟩]

/-- **Classes with other letters in their names are filed under none of them**, and the second is
written over the first. -/
theorem acceptAll_differs :
    (∀ u ∈ foreignUnits, u.WellFormed ∧ (JavaSource.Lexeme.name u.type).WellFormed) ∧
    (emptyBooks.acceptAll emptyShelves (foreignUnits.map SourceUnit.text)).2.1.registry =
      ⟨[⟨[], "Unknown".toList, .ofString "src/Unknown.java"⟩,
        ⟨[], "Unknown".toList, .ofString "src/Unknown.java"⟩], [.ofString "src/Unknown.java"]⟩ := by
  refine ⟨?_, by decide +kernel⟩
  rw [foreignUnits, List.forall_mem_cons, List.forall_mem_singleton]
  exact ⟨⟨⟨rfl, by decide⟩, 'É', [], rfl, by decide, List.forall_mem_nil _⟩,
    ⟨rfl, by decide⟩, 'Ü', [], rfl, by decide, List.forall_mem_nil _⟩

end Placement

end Unjar
