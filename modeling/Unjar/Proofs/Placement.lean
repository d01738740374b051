import Unjar.Placement
import Unjar.Proofs.FileTree

/-!
Where sources and resources are placed.

The names that a source text declares are identifiers, so they never lead out of the directory of
sources, and two texts go to the same file only if they declare the same names.  A resource goes
where its path leads, provided that is beneath the directory of resources.  Either way one file is
written and nothing else is changed.

Main definitions:

* `Unjar.Placement.sourceNames`, `Unjar.Placement.sourceContent`, `Unjar.Placement.sourceFile` —
  where a source text goes, and what its file holds;
* `Unjar.Placement.resourceLocation?` — where a resource goes, if anywhere.

Main results:

* `Unjar.JavaSource.isIdentifier_of_declaredNames` — declared names are identifiers;
* `Unjar.Placement.accept_eq_ok`, `Unjar.Placement.copyResource_eq_ok` — what placing does.
-/

set_option autoImplicit false

namespace Unjar

/-! ### Declared names -/

namespace JavaSource

theorem isIdentifier_of_qualifiedName {tokens : List Token} {parts : List Text}
    (h : ∀ part ∈ parts, isIdentifier part) :
    ∀ part ∈ qualifiedName parts tokens, isIdentifier part := by
  fun_induction qualifiedName parts tokens with
  | case1 | case4 | case5 => exact fun _ h => absurd h List.not_mem_nil
  | case2 parts part stop more hp hs =>
      have hi : isIdentifier part.text = true := by simpa using hp
      intro name hname
      rcases List.mem_append.mp hname with hname | hname
      · exact h name hname
      · rwa [List.mem_singleton.mp hname]
  | case3 parts part stop more hp _ hs ih =>
      have hi : isIdentifier part.text = true := by simpa using hp
      refine ih fun name hname => ?_
      rcases List.mem_append.mp hname with hname | hname
      · exact h name hname
      · rwa [List.mem_singleton.mp hname]

theorem isIdentifier_of_typeAfter {previous : Option Text} {tokens : List Token} {type : Text}
    (h : typeAfter previous tokens = some type) : isIdentifier type := by
  unfold typeAfter at h
  split at h
  · cases h
  · split at h
    · cases h
    · split at h
      · next hc =>
        cases h
        exact (Bool.and_eq_true_iff.mp hc).1
      · cases h

theorem isIdentifier_placeholderType : isIdentifier placeholderType := by decide

/-- What is declared: a package of identifiers, and a type that is one. -/
structure DeclaredNames.Identifiers (d : DeclaredNames) : Prop where
  package : ∀ part ∈ d.package, isIdentifier part
  type : isIdentifier d.typeName

theorem isIdentifier_of_declaredIn (tokens : List Token) (previous : Option Text)
    {package : List Text} (h : ∀ part ∈ package, isIdentifier part) :
    (declaredIn previous package tokens).Identifiers := by
  induction tokens generalizing previous package with
  | nil => exact ⟨h, isIdentifier_placeholderType⟩
  | cons token more ih =>
      unfold declaredIn
      split
      · exact ih _ h
      · split
        · exact ih _ (isIdentifier_of_qualifiedName fun _ h => absurd h List.not_mem_nil)
        · split
          · split
            · next type htype => exact ⟨h, isIdentifier_of_typeAfter htype⟩
            · exact ih _ h
          · exact ih _ h

/-- **The names that a source text declares are identifiers.** -/
theorem isIdentifier_of_declaredNames (text : Text) : (declaredNames text).Identifiers :=
  isIdentifier_of_declaredIn _ _ fun _ h => absurd h List.not_mem_nil

/-- The characters of an identifier are neither slashes nor dots. -/
theorem not_mem_of_isIdentifier {t : Text} (h : isIdentifier t) {c : Char}
    (hc : isIdentifierPart c = false) : c ∉ t := by
  cases t with
  | nil => exact List.not_mem_nil
  | cons d r =>
      obtain ⟨hd, hr⟩ := Bool.and_eq_true_iff.mp h
      intro hmem
      have hpart : isIdentifierPart c = true := by
        rcases List.mem_cons.mp hmem with rfl | hmem
        · simp [isIdentifierPart, hd]
        · exact List.all_eq_true.mp hr c hmem
      rw [hc] at hpart
      cases hpart

theorem isName_of_isIdentifier {t : Text} (h : isIdentifier t) :
    Path.IsName t ∧ t ≠ Path.up := by
  have hdot : '.' ∉ t := not_mem_of_isIdentifier h (by decide)
  refine ⟨⟨?_, ?_, not_mem_of_isIdentifier h (by decide)⟩, ?_⟩
  · rintro rfl
    simp [isIdentifier] at h
  · rintro rfl
    exact hdot List.mem_cons_self
  · rintro rfl
    exact hdot List.mem_cons_self

end JavaSource

namespace Placement

/-! ### Sources -/

/-- The components of the path of a source text, from the directory of sources on. -/
def sourceNames (text : Text) : List Text :=
  let names := JavaSource.declaredNames text
  names.package ++ [names.typeName ++ ".java".toList]

/-- **What the file of a source text holds**: the text as UTF-8, with a line feed behind it unless it
ends in one. -/
def sourceContent (text : Text) : Bytes :=
  if text.getLast? = some '\n' then Utf8.encode text else Utf8.encode text ++ [0x0A]

/-- **The file of a source text** in a directory of sources, and what it holds. -/
def sourceFile (directory : Location) (text : Text) : Location × Bytes :=
  (directory ++ sourceNames text, sourceContent text)

/-- What is written for a source text is what its file holds. -/
theorem encode_endLine (text : Text) : Utf8.encode (endLine text) = sourceContent text := by
  have hends : ['\n'].isSuffixOf text = true ↔ text.getLast? = some '\n' := by
    rw [List.isSuffixOf_iff_suffix, List.singleton_suffix_iff_getLast?_eq_some]
  unfold endLine sourceContent
  by_cases h : text.getLast? = some '\n'
  · rw [if_pos h, if_pos (hends.mpr h)]
  · rw [if_neg h, if_neg (mt hends.mp h)]
    exact List.flatMap_append

theorem sourceNames_ne_nil (text : Text) : sourceNames text ≠ [] := by
  simp [sourceNames]

theorem isName_sourceSuffix {type : Text} (h : JavaSource.isIdentifier type) :
    Path.IsName (type ++ sourceSuffix) ∧ type ++ sourceSuffix ≠ Path.up := by
  have hslash : '/' ∉ type := JavaSource.not_mem_of_isIdentifier h (by decide)
  have hlong : 5 ≤ (type ++ sourceSuffix).length := by
    simp [sourceSuffix]
  refine ⟨⟨?_, ?_, ?_⟩, ?_⟩
  · intro he
    simp [he] at hlong
  · intro he
    simp [he] at hlong
  · rw [List.mem_append, not_or]
    exact ⟨hslash, by decide⟩
  · intro he
    simp [he, Path.up] at hlong

theorem up_not_mem_sourceNames (text : Text) : Path.up ∉ sourceNames text := by
  obtain ⟨hpackage, htype⟩ := JavaSource.isIdentifier_of_declaredNames text
  intro h
  rcases List.mem_append.mp h with h | h
  · exact (JavaSource.isName_of_isIdentifier (hpackage _ h)).2 rfl
  · exact (isName_sourceSuffix htype).2 (List.mem_singleton.mp h).symm

/-- The path of a source text is that of the directory followed by the declared names. -/
theorem destinationIn_eq (p : Placement) (text : Text) :
    p.destinationIn (JavaSource.declaredNames text).package
        (JavaSource.declaredNames text).typeName =
      p.sourceRoot.join ⟨0, sourceNames text⟩ := by
  obtain ⟨hpackage, htype⟩ := JavaSource.isIdentifier_of_declaredNames text
  have hnames : ∀ part ∈ (JavaSource.declaredNames text).package, Path.IsName part :=
    fun part h => (JavaSource.isName_of_isIdentifier (hpackage part h)).1
  rw [destinationIn, Path.foldl_joinText _ hnames,
    Path.joinText_of_isName _ (isName_sourceSuffix htype).1]
  simp [Path.join, sourceNames, sourceSuffix]

theorem normalize_source (here : Location) (directory : Path) (text : Text) :
    Path.normalize here (directory.join ⟨0, sourceNames text⟩) =
      Path.normalize here directory ++ sourceNames text := by
  rw [Path.normalize_join, Path.normalize_of_not_mem _ (up_not_mem_sourceNames text), if_pos rfl]

/-! ### Resources -/

/-- **Where a resource goes**, if that is beneath the directory of resources. -/
def resourceLocation? (directory : Location) (relativePath : Text) : Option Location :=
  let here := Path.normalize directory (Path.ofText relativePath)
  if Path.isBeneath here directory then some here else none

theorem isBeneath_of_resourceLocation? {directory here : Location} {relativePath : Text}
    (h : resourceLocation? directory relativePath = some here) :
    Path.isBeneath here directory = true := by
  unfold resourceLocation? at h
  dsimp only at h
  split at h
  · next hb => exact Option.some.inj h ▸ hb
  · cases h

/-! ### What placing does -/

section

variable {p p' : Placement} {t t' : FileTree} {text : Text} {content : Bytes}

/-- A write ends as its operation does, with a fault that names the file. -/
theorem write_eq (file : Path) (content : Bytes) (t : FileTree) :
    write file content t =
      ((outcome (writeWithParents file content) t).1.mapError fun cause => ⟨file, cause⟩,
        (outcome (writeWithParents file content) t).2) := rfl

/-- A write that succeeds has made directories, and then the file is written. -/
theorem exists_of_write_eq_ok {file : Path} {u : Unit}
    (h : write file content t = (.ok u, t')) :
    ∃ t₁, t.SameFiles t₁ ∧ Returns (FileTree.writeFile file content) t₁ u t' := by
  have hr : Returns (writeWithParents file content) t u t' := returns_of_mapError h
  obtain ⟨_, t₁, hmake, hwrite⟩ := returns_bind.mp hr
  exact ⟨t₁, (FileTree.keeps_makeDirectories _).of_returns hmake, hwrite⟩

theorem write_eq_ok {file : Path} {u : Unit} (h : write file content t = (.ok u, t')) :
    t.Writes (Path.normalize t.workingDirectory file) content t' := by
  obtain ⟨t₁, hsame, hwrite⟩ := exists_of_write_eq_ok h
  have hw := FileTree.writes_of_writeFile hwrite
  rw [hsame.working] at hw
  exact hsame.writes hw

/-- **Placing a source text** writes its file, and a text of blanks does nothing. -/
theorem accept_eq_ok {r : Option SourceRecord} (h : p.accept text t = (.ok r, p', t')) :
    Text.isAllBlank text = true ∧ p' = p ∧ t' = t ∨
      Text.isAllBlank text = false ∧
        ∃ record : SourceRecord, record.destination = p.sourceRoot.join ⟨0, sourceNames text⟩ ∧
          p' = { p with registry := p.registry.register record } ∧
          t.Writes (Path.normalize t.workingDirectory p.sourceRoot ++ sourceNames text)
            (sourceContent text) t' := by
  unfold accept at h
  split at h
  · next hb =>
    simp only [Prod.mk.injEq] at h
    exact .inl ⟨hb, h.2.1.symm, h.2.2.symm⟩
  · next hb =>
    refine .inr ⟨by simpa using hb, ?_⟩
    dsimp only at h
    rw [destinationIn_eq] at h
    split at h
    · simp at h
    · next t₁ hw =>
      simp only [Prod.mk.injEq] at h
      obtain ⟨-, rfl, rfl⟩ := h
      refine ⟨_, rfl, rfl, ?_⟩
      rw [← normalize_source, ← encode_endLine]
      exact write_eq_ok hw

/-- **Placing a resource** writes its file, and one that leads elsewhere does nothing. -/
theorem copyResource_eq_ok {relativePath : Text} {r : Option Path}
    (h : p.copyResource relativePath content t = (.ok r, p', t')) :
    resourceLocation? (Path.normalize t.workingDirectory p.resourceRoot) relativePath = none ∧
        p' = p ∧ t' = t ∨
      ∃ here,
        resourceLocation? (Path.normalize t.workingDirectory p.resourceRoot) relativePath =
            some here ∧
          p' = { p with resourcesCopied := p.resourcesCopied + 1 } ∧ t.Writes here content t' := by
  have hjoin : Path.normalize t.workingDirectory (p.resourceRoot.joinText relativePath) =
      Path.normalize (Path.normalize t.workingDirectory p.resourceRoot)
        (Path.ofText relativePath) := Path.normalize_join _ _ _
  unfold copyResource at h
  dsimp only at h
  split at h
  · next hb =>
    rw [hjoin] at hb
    simp only [Prod.mk.injEq] at h
    refine .inl ⟨?_, h.2.1.symm, h.2.2.symm⟩
    simpa [resourceLocation?] using hb
  · next hb =>
    rw [hjoin] at hb
    split at h
    · simp at h
    · next t₁ hw =>
      simp only [Prod.mk.injEq] at h
      obtain ⟨-, rfl, rfl⟩ := h
      refine .inr ⟨_, ?_, rfl, write_eq_ok hw⟩
      rw [hjoin]
      simpa [resourceLocation?] using hb

end

end Placement

end Unjar
