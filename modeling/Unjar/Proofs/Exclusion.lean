import Unjar.Archive
import Unjar.Proofs.Segments

/-!
Excluded directories.

The directories that settings name, with a slash at the end or without, are brought to one form, and
whether a name lies beneath one is then a test on characters.  Here this is told by segments: those of
the directory are the first of the name, and the others are what is left of it.  So `org/spring` is
above `org/spring/A.class` and not above `org/springframework/A.class`.

A name is excluded if an excluded directory is above it, or above what is left of it beneath a
directory of embedded classes.  Of the directories of embedded classes that a name lies beneath only
the first is looked at.  That is all there is to look at as long as they leave the same of the name;
of two that are nested, the other one is overlooked.

Main definitions:

* `Unjar.Settings.excludedDirectories`, `Unjar.Settings.classDirectories` — the directories as they are
  named, given or by default;
* `Unjar.IsBeneath` — **a name lies beneath a directory**, segment by segment;
* `Unjar.Archive.IsExcludedBy`, `Unjar.Archive.HasOneRest` — excluded names, and those with which it is
  all one which directory of embedded classes is looked at.

Main results:

* `Unjar.Settings.directories_of_ofValues` — checked settings hold the normal forms of what was named;
* `Unjar.isBeneath_iff` — the test on characters is one on segments;
* `Unjar.Archive.isDescriptor_iff` — packaged descriptors by their segments;
* `Unjar.Archive.classify_of_ofValues` — **what is excluded is passed over, and no other class is**.
-/

set_option autoImplicit false

namespace Unjar

/-! ### The directories that are named -/

namespace Settings

variable {α β : Type} {values : Values} {settings : Settings} {field : Field} {names : List Text}

/-- The text of a value that is one. -/
def Value.text? : Value → Option Text
  | text t => some t
  | _ => none

/-- The names given for a field, or else its default. -/
def namesGiven (values : Values) (field : Field) (default : List Text) : List Text :=
  match values.get? field.name with
  | some (.list items) => items.filterMap Value.text?
  | some _ => []
  | none => default

/-- The directories whose entries are to be left out, as they are named. -/
def excludedDirectories (values : Values) : List Text :=
  namesGiven values .excludedPrefixes default.excludedPrefixes

/-- The directories of embedded classes, as they are named. -/
def classDirectories (values : Values) : List Text :=
  namesGiven values .embeddedClassRoots default.embeddedClassRoots

/-- A field more is checked if both the fields before it and this one are. -/
theorem apply_eq_ok {f : Checked (α → β)} {a : Checked α} {b : β} :
    apply f a = .ok b ↔ ∃ g x, f = .ok g ∧ a = .ok x ∧ g x = b := by
  cases f <;> cases a <;> simp [apply, both]

/-- The items of a list that is checked are texts. -/
theorem checkItems_eq_ok {i : Nat} {items : List Value} (h : checkItems field i items = .ok names) :
    names = items.filterMap Value.text? := by
  fun_induction checkItems field i items generalizing names with
  | case1 => exact (Except.ok.inj h).symm
  | case2 i t more ih =>
      cases hmore : checkItems field (i + 1) more with
      | error complaints =>
          rw [hmore] at h
          cases h
      | ok texts =>
          rw [hmore] at h
          cases h
          rw [ih hmore]
          rfl
  | case3 => cases h
  | case4 => cases h

/-- The normal forms of the directories that are named. -/
theorem checkField_directories {default : List Text}
    (hdefault : normalizeDirectories default = default)
    (h : checkField values field default
      (fun field value => (checkList field value).map normalizeDirectories) = .ok names) :
    names = normalizeDirectories (namesGiven values field default) := by
  unfold checkField at h
  unfold namesGiven
  split at h
  · next value hvalue =>
    rw [hvalue]
    cases value with
    | list items =>
        dsimp only [checkList] at h ⊢
        cases hitems : checkItems field 0 items with
        | error complaints =>
            rw [hitems] at h
            cases h
        | ok texts =>
            rw [hitems] at h
            cases h
            rw [checkItems_eq_ok hitems]
    | _ => cases h
  · next hvalue =>
    rw [hvalue]
    cases h
    exact hdefault.symm

/-- **Checked settings hold the normal forms** of the directories that are named. -/
theorem directories_of_ofValues (h : ofValues values = .ok settings) :
    settings.excludedPrefixes = normalizeDirectories (excludedDirectories values) ∧
      settings.embeddedClassRoots = normalizeDirectories (classDirectories values) := by
  simp only [ofValues, apply_eq_ok] at h
  -- from the last field to the first; only the first two matter
  obtain ⟨_, _, ⟨_, _, ⟨_, _, ⟨_, _, ⟨_, _, ⟨_, _, ⟨_, _, ⟨_, _, ⟨_, _, ⟨_, _, hmake,
    hexcluded, rfl⟩, hroots, rfl⟩, -, rfl⟩, -, rfl⟩, -, rfl⟩, -, rfl⟩, -, rfl⟩, -, rfl⟩, -, rfl⟩,
    -, rfl⟩ := h
  cases hmake
  exact ⟨checkField_directories (by decide) hexcluded, checkField_directories (by decide) hroots⟩

end Settings

/-! ### Names beneath directories -/

variable {directory name rest : Text} {names : List Text}

/-- The segments of a directory, which is named with a slash at the end or without. -/
def directorySegments (directory : Text) : List Text :=
  if ['/'].isSuffixOf directory then (splitOn '/' directory).dropLast else splitOn '/' directory

/-- **A name lies beneath a directory**, and `rest` is what is left of it. -/
def IsBeneath (directory name rest : Text) : Prop :=
  splitOn '/' name = directorySegments directory ++ splitOn '/' rest

/-- How names beneath a directory begin. -/
def directoryStart (directory : Text) : Text :=
  if ['/'].isSuffixOf directory then directory else directory ++ ['/']

/-- A directory without the slash at its end. -/
theorem exists_directory (directory : Text) : ∃ d, directorySegments directory = splitOn '/' d ∧
    directoryStart directory = d ++ ['/'] := by
  unfold directorySegments directoryStart
  split
  · next hslash =>
    obtain ⟨d, rfl⟩ := List.isSuffixOf_iff_suffix.mp hslash
    refine ⟨d, ?_, rfl⟩
    rw [splitOn_append_cons]
    exact List.dropLast_concat
  · exact ⟨directory, rfl, rfl⟩

/-- **The test on characters is one on segments.** -/
theorem isBeneath_iff : IsBeneath directory name rest ↔ name = directoryStart directory ++ rest := by
  obtain ⟨d, hsegments, hstart⟩ := exists_directory directory
  rw [IsBeneath, hsegments, hstart, ← splitOn_append_cons, splitOn_inj, List.append_assoc,
    List.singleton_append]

theorem mem_normalizeDirectories {start : Text} : start ∈ Settings.normalizeDirectories names ↔
    ∃ directory ∈ names, directory ≠ [] ∧ directoryStart directory = start := by
  simp [Settings.normalizeDirectories, directoryStart, and_assoc]

namespace Archive

variable {settings : Settings} {excluded roots : List Text}

/-! ### Packaged descriptors -/

/-- **A packaged descriptor**: the one at the root, or one beneath the directory of descriptors. -/
def IsPackagedDescriptor (name : Text) : Prop :=
  splitOn '/' name = ["pom.xml".toList] ∨ ∃ between,
    splitOn '/' name = ["META-INF".toList, "maven".toList] ++ between ++ ["pom.xml".toList]

theorem splitOn_descriptorName : splitOn '/' descriptorName = ["pom.xml".toList] := by decide

theorem splitOn_descriptorRoot :
    splitOn '/' "META-INF/maven".toList = ["META-INF".toList, "maven".toList] := by decide

/-- Packaged descriptors by their segments. -/
theorem isDescriptor_iff : isDescriptor name = true ↔ IsPackagedDescriptor name := by
  have hroot : descriptorRoot = "META-INF/maven".toList ++ ['/'] := by decide
  rw [isDescriptor, Bool.or_eq_true, Bool.and_eq_true, beq_iff_eq, List.isPrefixOf_iff_prefix,
    List.isSuffixOf_iff_suffix]
  constructor
  · rintro (rfl | ⟨⟨rest, hrest⟩, front, hfront⟩)
    · exact .inl splitOn_descriptorName
    -- the name from its beginning and from its end
    have hbegins : splitOn '/' name = ["META-INF".toList, "maven".toList] ++ splitOn '/' rest := by
      rw [← hrest, hroot, List.append_assoc, List.singleton_append, splitOn_append_cons,
        splitOn_descriptorRoot]
    have hends : splitOn '/' name = splitOn '/' front ++ ["pom.xml".toList] := by
      rw [← hfront, splitOn_append_cons, splitOn_descriptorName]
    obtain ⟨between, last, hlast⟩ := (List.eq_nil_or_concat (splitOn '/' rest)).resolve_left
      splitOn_ne_nil
    rw [hlast, List.concat_eq_append, ← List.append_assoc] at hbegins
    obtain ⟨-, heq⟩ := List.append_inj' (hbegins.symm.trans hends) rfl
    exact .inr ⟨between, by rw [hbegins, heq]⟩
  · rintro (hname | ⟨between, hbetween⟩)
    · exact .inl (splitOn_inj.mp (hname.trans splitOn_descriptorName.symm))
    refine .inr ⟨?_, ?_⟩
    · have hprefix : splitOn '/' "META-INF/maven".toList <+: splitOn '/' name := by
        rw [splitOn_descriptorRoot, hbetween, List.append_assoc]
        exact List.prefix_append _ _
      rcases splitOn_prefix_iff.mp hprefix with rfl | ⟨rest, rfl⟩
      · rw [splitOn_descriptorRoot] at hbetween
        simp at hbetween
      · exact ⟨rest, by simp [hroot]⟩
    · refine ⟨joinWith ['/'] (["META-INF".toList, "maven".toList] ++ between), ?_⟩
      rw [← joinWith_splitOn '/' name, hbetween,
        joinWith_append ['/'] (List.append_ne_nil_of_left_ne_nil (List.cons_ne_nil _ _) between)
          (List.cons_ne_nil _ _), List.append_assoc]
      rfl

/-! ### Excluded names -/

/-- A directory that is named is above a name. -/
def IsExcludedBy (excluded : List Text) (name : Text) : Prop :=
  ∃ directory ∈ excluded, directory ≠ [] ∧ ∃ rest, IsBeneath directory name rest

/-- What is left of a name beneath one of the directories of embedded classes. -/
def IsRest (roots : List Text) (name rest : Text) : Prop :=
  ∃ root ∈ roots, root ≠ [] ∧ IsBeneath root name rest

/-- All directories of embedded classes that a name lies beneath leave the same of it. -/
def HasOneRest (roots : List Text) (name : Text) : Prop :=
  ∀ rest rest', IsRest roots name rest → IsRest roots name rest' → rest = rest'

/-- **An excluded name**: an excluded directory is above it, or above what is left of it beneath a
directory of embedded classes. -/
def IsExcluded (excluded roots : List Text) (name : Text) : Prop :=
  IsExcludedBy excluded name ∨ ∃ rest, IsRest roots name rest ∧ IsExcludedBy excluded rest

theorem isExcluded_iff (h : settings.excludedPrefixes = Settings.normalizeDirectories excluded) :
    isExcluded settings name = true ↔ IsExcludedBy excluded name := by
  rw [isExcluded, h, List.any_eq_true]
  constructor
  · rintro ⟨start, hstart, hprefix⟩
    obtain ⟨directory, hdirectory, hne, rfl⟩ := mem_normalizeDirectories.mp hstart
    obtain ⟨rest, rfl⟩ := List.isPrefixOf_iff_prefix.mp hprefix
    exact ⟨directory, hdirectory, hne, rest, isBeneath_iff.mpr rfl⟩
  · rintro ⟨directory, hdirectory, hne, rest, hbeneath⟩
    refine ⟨_, mem_normalizeDirectories.mpr ⟨directory, hdirectory, hne, rfl⟩, ?_⟩
    rw [isBeneath_iff.mp hbeneath]
    exact List.isPrefixOf_iff_prefix.mpr (List.prefix_append _ _)

/-- What is looked at beneath a directory of embedded classes is left of the name. -/
theorem isRest_of_beneathRoot
    (h : settings.embeddedClassRoots = Settings.normalizeDirectories roots)
    (hrest : beneathRoot settings name = some rest) : IsRest roots name rest := by
  rw [beneathRoot, h] at hrest
  obtain ⟨start, hstart, hdrop⟩ := List.exists_of_findSome?_eq_some hrest
  obtain ⟨root, hroot, hne, rfl⟩ := mem_normalizeDirectories.mp hstart
  exact ⟨root, hroot, hne, isBeneath_iff.mpr (dropPrefix?_eq_some hdrop)⟩

/-- A name that lies beneath a directory of embedded classes is found to do so. -/
theorem beneathRoot_ne_none
    (h : settings.embeddedClassRoots = Settings.normalizeDirectories roots)
    (hrest : IsRest roots name rest) : beneathRoot settings name ≠ none := by
  obtain ⟨root, hroot, hne, hbeneath⟩ := hrest
  rw [beneathRoot, h]
  intro hnone
  have hdrop := List.findSome?_eq_none_iff.mp hnone _
    (mem_normalizeDirectories.mpr ⟨root, hroot, hne, rfl⟩)
  rw [isBeneath_iff.mp hbeneath, dropPrefix?_append] at hdrop
  cases hdrop

theorem isExcludedBy_iff : IsExcludedBy excluded name ↔
    ∃ directory ∈ excluded, directory ≠ [] ∧ directoryStart directory <+: name := by
  simp only [IsExcludedBy, isBeneath_iff, List.IsPrefix, eq_comm (a := name)]

instance : Decidable (IsExcludedBy excluded name) := decidable_of_iff _ isExcludedBy_iff.symm

theorem exists_isRest_iff {p : Text → Prop} : (∃ rest, IsRest roots name rest ∧ p rest) ↔
    ∃ root ∈ roots, root ≠ [] ∧ ∃ rest ∈ dropPrefix? (directoryStart root) name, p rest := by
  constructor
  · rintro ⟨rest, ⟨root, hroot, hne, hbeneath⟩, hp⟩
    refine ⟨root, hroot, hne, rest, ?_, hp⟩
    rw [isBeneath_iff.mp hbeneath, dropPrefix?_append]
    rfl
  · rintro ⟨root, hroot, hne, rest, hdrop, hp⟩
    exact ⟨rest, ⟨root, hroot, hne, isBeneath_iff.mpr (dropPrefix?_eq_some hdrop)⟩, hp⟩

instance : Decidable (IsExcluded excluded roots name) :=
  decidable_of_iff _ (or_congr_right exists_isRest_iff).symm

/-! ### Classification -/

/-- A name that is passed over as excluded: an excluded directory is above it, or above what is left of
it beneath the first directory of embedded classes. -/
def PassesOver (settings : Settings) (excluded : List Text) (name : Text) : Prop :=
  IsExcludedBy excluded name ∨ ∃ rest, beneathRoot settings name = some rest ∧
    IsExcludedBy excluded rest

theorem isExcluded_of_passesOver
    (h : settings.embeddedClassRoots = Settings.normalizeDirectories roots)
    (hname : PassesOver settings excluded name) : IsExcluded excluded roots name := by
  rcases hname with hname | ⟨rest, hrest, hexcluded⟩
  · exact .inl hname
  · exact .inr ⟨rest, isRest_of_beneathRoot h hrest, hexcluded⟩

/-- Where all directories of embedded classes leave the same, the first one is enough. -/
theorem passesOver_of_isExcluded
    (h : settings.embeddedClassRoots = Settings.normalizeDirectories roots)
    (hone : HasOneRest roots name) (hname : IsExcluded excluded roots name) :
    PassesOver settings excluded name := by
  rcases hname with hname | ⟨rest, hrest, hexcluded⟩
  · exact .inl hname
  · obtain ⟨first, hfirst⟩ := Option.ne_none_iff_exists'.mp (beneathRoot_ne_none h hrest)
    obtain rfl := hone _ _ hrest (isRest_of_beneathRoot h hfirst)
    exact .inr ⟨rest, hfirst, hexcluded⟩

/-- What a name that is neither the manifest nor a packaged descriptor is classified as. -/
theorem classify_eq (h : settings.excludedPrefixes = Settings.normalizeDirectories excluded)
    (hmanifest : name ≠ manifestPath) (hdescriptor : isDescriptor name = false)
    [Decidable (PassesOver settings excluded name)] :
    classify settings name =
      if PassesOver settings excluded name then none
      else if classSuffix.isSuffixOf name then
        some ⟨name, .classFile, (beneathRoot settings name).getD name⟩
      else (beneathRoot settings name).map fun rest => ⟨name, .resource, rest⟩ := by
  have hpasses : (isExcluded settings name || ((beneathRoot settings name).isSome &&
      isExcluded settings ((beneathRoot settings name).getD name))) = true ↔
        PassesOver settings excluded name := by
    rw [Bool.or_eq_true, Bool.and_eq_true, PassesOver, isExcluded_iff h, isExcluded_iff h]
    cases beneathRoot settings name <;> simp
  rw [classify, if_neg (by simpa using hmanifest), if_neg (by simp [hdescriptor])]
  dsimp only
  rw [if_congr hpasses rfl rfl]
  cases beneathRoot settings name <;> rfl

open Settings (excludedDirectories classDirectories) in
/-- **What is excluded is passed over, and no other class is**, for all settings and all names but
those of the manifest and of packaged descriptors.  An excluded directory above what is left of the
name counts as long as all directories of embedded classes leave the same of it. -/
theorem classify_of_ofValues {values : Settings.Values} {settings : Settings}
    (h : Settings.ofValues values = .ok settings) {name : Text}
    (hmanifest : name ≠ "META-INF/MANIFEST.MF".toList)
    (hdescriptor : ¬IsPackagedDescriptor name) :
    (∀ entry, classify settings name = some entry →
      (entry.kind = .classFile ∨ entry.kind = .resource) ∧
      ¬IsExcludedBy (excludedDirectories values) name ∧
      (HasOneRest (classDirectories values) name →
        ¬IsExcluded (excludedDirectories values) (classDirectories values) name)) ∧
    (".class".toList <:+ name →
      ¬IsExcluded (excludedDirectories values) (classDirectories values) name →
      ∃ relative, classify settings name = some ⟨name, .classFile, relative⟩) := by
  classical
  obtain ⟨hexcluded, hroots⟩ := Settings.directories_of_ofValues h
  have hclassify := classify_eq hexcluded hmanifest
    (Bool.eq_false_iff.mpr (mt isDescriptor_iff.mp hdescriptor))
  constructor
  · intro entry hentry
    rw [hclassify] at hentry
    split at hentry
    · cases hentry
    next hpasses =>
    refine ⟨?_, fun hname => hpasses (.inl hname),
      fun hone hname => hpasses (passesOver_of_isExcluded hroots hone hname)⟩
    split at hentry
    · cases hentry
      exact .inl rfl
    · obtain ⟨rest, -, rfl⟩ := Option.map_eq_some_iff.mp hentry
      exact .inr rfl
  · intro hclass hname
    have hpasses : ¬PassesOver settings (excludedDirectories values) name :=
      mt (isExcluded_of_passesOver hroots) hname
    have hsuffix : classSuffix.isSuffixOf name = true := List.isSuffixOf_iff_suffix.mpr hclass
    rw [hclassify, if_neg hpasses, if_pos hsuffix]
    exact ⟨_, rfl⟩

/-- Settings that name one directory of embedded classes twice. -/
def repeatedValues : Settings.Values :=
  [("excluded_prefixes".toList, .list [.text "org/spring".toList, .text []]),
    ("embedded_class_roots".toList, .list [.text "app".toList, .text "app/".toList])]

theorem hasOneRest_repeatedValues (name : Text) :
    HasOneRest (Settings.classDirectories repeatedValues) name := by
  have hstart : ∀ root ∈ Settings.classDirectories repeatedValues,
      directoryStart root = "app/".toList := by decide
  rintro rest rest' ⟨root, hroot, -, hrest⟩ ⟨root', hroot', -, hrest'⟩
  have heq := (isBeneath_iff.mp hrest).symm.trans (isBeneath_iff.mp hrest')
  rw [hstart root hroot, hstart root' hroot'] at heq
  exact List.append_cancel_left heq

theorem classify_of_ofValues_sample : ∃ settings, Settings.ofValues repeatedValues = .ok settings ∧
    (∃ relative, classify settings "org/springframework/A.class".toList =
      some ⟨"org/springframework/A.class".toList, .classFile, relative⟩) ∧
    classify settings "app/org/spring/B.class".toList = none := by
  obtain ⟨settings, h⟩ : ∃ settings, Settings.ofValues repeatedValues = .ok settings := ⟨_, rfl⟩
  refine ⟨settings, h, ?_, ?_⟩
  · exact (classify_of_ofValues h (by decide) (mt isDescriptor_iff.mpr (by decide))).2 (by decide)
      (by decide)
  · refine Option.eq_none_iff_forall_ne_some.mpr fun entry hentry => ?_
    obtain ⟨-, -, hexcluded⟩ := (classify_of_ofValues h (by decide)
      (mt isDescriptor_iff.mpr (by decide))).1 entry hentry
    exact hexcluded (hasOneRest_repeatedValues _) (by decide)

/-- Settings that name a directory of embedded classes and one within it. -/
def nestedValues : Settings.Values :=
  [("embedded_class_roots".toList, .list [.text "app/".toList, .text "app/classes/".toList])]

/-- **Of two nested directories of embedded classes the second is overlooked**: a class that is
excluded beneath it is not passed over. -/
theorem classify_differs : ∃ settings, Settings.ofValues nestedValues = .ok settings ∧
    IsExcluded (Settings.excludedDirectories nestedValues) (Settings.classDirectories nestedValues)
      "app/classes/org/springframework/Cfg.class".toList ∧
    classify settings "app/classes/org/springframework/Cfg.class".toList =
      some ⟨"app/classes/org/springframework/Cfg.class".toList, .classFile,
        "classes/org/springframework/Cfg.class".toList⟩ :=
  ⟨_, rfl, by decide, by decide⟩

end Archive

end Unjar
