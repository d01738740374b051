import Mathlib.Data.List.DropRight
import Unjar.Proofs.PackageTable
import Unjar.Proofs.Segments
import Unjar.Proofs.TypeSet
import Unjar.Resolution
import Unjar.Settings

/-!
What a resolver finds.

Whatever it is given, a resolver makes one list of dependencies and keeps the first of each name: the
list of the packaged descriptor, if that has any; else the archives that the class path names, if it
names any, or else what the types referred to stand for, with the baseline behind.  The archives of a
class path are told by their extensions.  Since an extension that is set up as it should be has a dot,
so does every file name that ends in one, and the artifact is what stands before its last dot.

Main definitions:

* `Unjar.Resolver.listedStem?`, `Unjar.Resolver.listed` — the archive that a word of a class path
  names, and the dependency on it;
* `Unjar.Resolver.offered` — **the dependencies offered**, in the order in which they are.

Main results:

* `Unjar.Text.dot_mem_toLower` — lower case neither makes nor removes a dot;
* `Unjar.Resolver.artifactOf_make` — the artifact of a word;
* `Unjar.Resolver.resolve_eq` — a resolver takes the dependencies offered in turn;
* `Unjar.Resolver.toList_resolve` — **what is found are the first offers**;
* `Unjar.Resolver.perm_resolve` — the order of the classes does not matter to a consistent table.
-/

set_option autoImplicit false

namespace Unjar

/-! ### Dots -/

namespace Text

theorem eq_of_ofNat_eq_dot {n : Nat} (h : Char.ofNat n = '.') : n = '.'.toNat := by
  by_cases hn : n.isValidChar
  · have hto : (Char.ofNat n).toNat = n := by
      rw [Char.ofNat, dif_pos hn]
      rfl
    rw [← hto, h]
  · rw [Char.ofNat, dif_neg hn] at h
    exact absurd h (by decide)

theorem lowerChar_ne_dot {c : Char} (h : ¬c.toNat < 0x80) : lowerChar c ≠ '.' := by
  -- all that the table maps to stands behind the dot
  have htarget : ∀ run ∈ lowerRuns, '.'.toNat < run.2.2.2 := by decide +kernel
  unfold lowerChar
  dsimp only
  split
  · next first last step target hrun =>
    have hbelow : '.'.toNat < target := htarget _ (List.mem_of_find?_eq_some hrun)
    intro he
    have hnat := eq_of_ofNat_eq_dot he
    omega
  · rintro rfl
    exact h (by decide)

theorem dot_mem_lowerBetween {before after : Text} {c : Char} :
    '.' ∈ lowerBetween before c after ↔ c = '.' := by
  have hascii : ∀ n < 0x80, '.' = (Char.ofNat n).toLower ↔ Char.ofNat n = '.' := by decide
  unfold lowerBetween
  split
  · next h =>
    rw [List.mem_singleton]
    simpa using hascii c.toNat h
  · next h =>
    have hne : c ≠ '.' := by
      rintro rfl
      exact h (by decide)
    have hlower := lowerChar_ne_dot h
    split
    · simp [hne]
    · split
      · split <;> simp [hne]
      · simp [hne, Ne.symm hlower]

theorem dot_mem_toLowerAfter {before t : Text} : '.' ∈ toLowerAfter before t ↔ '.' ∈ t := by
  induction t generalizing before with
  | nil => rfl
  | cons c r ih =>
      rw [toLowerAfter, List.mem_append, dot_mem_lowerBetween, ih, List.mem_cons, eq_comm]

/-- **Lower case neither makes nor removes a dot.** -/
theorem dot_mem_toLower {t : Text} : '.' ∈ toLower t ↔ '.' ∈ t := dot_mem_toLowerAfter

end Text

/-- An extension that is set up as it should be has a dot. -/
theorem Settings.dot_mem_normalizeExtension (extension : Text) :
    '.' ∈ normalizeExtension extension := by
  unfold normalizeExtension
  split
  · exact Text.dot_mem_toLower.mpr List.mem_cons_self
  · exact List.mem_cons_self

section

variable {α : Type} [BEq α] [LawfulBEq α] {sep : α} {after : List α}

/-- Without what stands behind its last separator a list ends in that separator. -/
theorem rdropWhile_append_cons (before : List α) (h : sep ∉ after) :
    (before ++ sep :: after).rdropWhile (· != sep) = before ++ [sep] := by
  have hafter : ∀ a ∈ after.reverse, (a != sep) = true := by
    intro a ha
    have hne : a ≠ sep := by
      rintro rfl
      exact h (List.mem_reverse.mp ha)
    simpa using hne
  simp [List.rdropWhile, List.dropWhile_append_of_pos hafter]

end

namespace Resolver

/-! ### Class paths -/

/-- **The archive that a word of a class path names**, without its extension: the last component of
the word ends in one of the extensions, whatever the case, and something stands before its last
dot. -/
def listedStem? (extensions : List Text) (word : Text) : Option Text :=
  let name := (Path.ofText word).name
  let stem := (name.rdropWhile (· != '.')).dropLast
  if (∃ extension ∈ extensions, Text.toLower extension <:+ Text.toLower name) ∧ stem ≠ [] then
    some stem
  else none

/-- **The artifact of a word** is the archive that it names, if every extension has a dot. -/
theorem artifactOf_make (table : PackageTable) (baseline : List Coordinate) {extensions : List Text}
    (hdots : ∀ extension ∈ extensions, '.' ∈ extension) (word : Text) :
    (make table baseline extensions).artifactOf word = listedStem? extensions word := by
  have hany : ((make table baseline extensions).archiveExtensions.any fun extension =>
      extension.isSuffixOf (Text.toLower (Path.ofText word).name)) = true ↔
        ∃ extension ∈ extensions,
          Text.toLower extension <:+ Text.toLower (Path.ofText word).name := by
    simp [make]
  unfold artifactOf listedStem?
  generalize (Path.ofText word).name = name at hany ⊢
  by_cases hends : ∃ extension ∈ extensions, Text.toLower extension <:+ Text.toLower name
  · obtain ⟨extension, hmem, hsuffix⟩ := hends
    -- the dot of the extension is one of the name
    have hdot : '.' ∈ name :=
      Text.dot_mem_toLower.mp (hsuffix.subset (Text.dot_mem_toLower.mpr (hdots _ hmem)))
    cases hcut : cutAtLast '.' name with
    | none => exact absurd hdot (cutAtLast_eq_none hcut)
    | some parts =>
        obtain ⟨before, after⟩ := parts
        obtain ⟨rfl, hafter⟩ := cutAtLast_eq_some hcut
        have hends : ∃ extension ∈ extensions,
            Text.toLower extension <:+ Text.toLower (before ++ '.' :: after) :=
          ⟨extension, hmem, hsuffix⟩
        have hstem : ((before ++ '.' :: after).rdropWhile (· != '.')).dropLast = before := by
          rw [rdropWhile_append_cons before hafter, List.dropLast_concat]
        dsimp only
        rw [hany.mpr hends, hcut, hstem]
        by_cases hempty : before = []
        · simp [hempty]
        · have hnamed : (∃ extension ∈ extensions, Text.toLower extension <:+
              Text.toLower (before ++ '.' :: after)) ∧ before ≠ [] := ⟨hends, hempty⟩
          rw [if_pos hnamed]
          simp [hempty]
  · have hnone := mt hany.mp hends
    simp [hnone, hends]

/-! ### The rules -/

/-- **The dependency on an archive that a class path lists**: group and version are unknown, and the
archive names the artifact. -/
def listed (stem : Text) : Coordinate where
  groupId := "unknown".toList
  artifactId := stem
  version := some "unknown".toList
  scope := some "compile".toList
  source := "manifest-classpath".toList
  type := none
  classifier := none
  isOptional := false
  exclusions := []

theorem stub_eq_listed : stub = listed := rfl

/-- **The dependencies offered**, in the order in which they are: those declared, if there are any;
else one for each archive that is listed, if there are any, or else what the types stand for, with the
baseline behind. -/
def offered (table : PackageTable) (baseline : List Coordinate) (types : List Name)
    (stems : List Text) (declared : List Coordinate) : List Coordinate :=
  if declared ≠ [] then declared
  else (if stems ≠ [] then stems.map listed else types.filterMap table.match?) ++ baseline

/-- What a packaged descriptor declares. -/
def declaredBy (embedded : Option EmbeddedDescriptor) : List Coordinate :=
  (embedded.map EmbeddedDescriptor.dependencies).getD []

/-- **A resolver takes the dependencies offered in turn.** -/
theorem resolve_eq (r : Resolver) (corpus : Corpus) (words : List Text)
    (embedded : Option EmbeddedDescriptor) :
    r.resolve corpus words embedded = .ofList (offered r.table r.baseline
      (corpus.flatMap fun entry => entry.2.toList) (words.filterMap r.artifactOf)
      (declaredBy embedded)) := by
  have hlisted : (r.ofManifest words).toList.isEmpty = true ↔ words.filterMap r.artifactOf = [] := by
    rw [List.isEmpty_iff, ofManifest, DependencySet.toList_ofList_eq_nil, List.map_eq_nil_iff]
  have hreferences : r.ofReferences corpus = .ofList
      ((corpus.flatMap fun entry => entry.2.toList).filterMap r.table.match?) := by
    rw [ofReferences, List.filterMap_flatMap]
  unfold resolve offered
  change (if !(declaredBy embedded).isEmpty then _ else _) = _
  by_cases hdeclared : declaredBy embedded = []
  · rw [hdeclared, if_neg (by simp), if_neg (by simp), DependencySet.ofList_append]
    by_cases hstems : words.filterMap r.artifactOf = []
    · dsimp only
      rw [if_pos (hlisted.mpr hstems), if_neg (by simp [hstems]), hreferences]
    · dsimp only
      rw [if_neg (mt hlisted.mp hstems), if_pos hstems, ofManifest, stub_eq_listed]
  · rw [if_pos (by simpa using hdeclared), if_pos hdeclared]
    rfl

/-- **What is found are the first offers.**  Of the dependencies offered, which are told by the
extensions, the types and the descriptor alone, the first of each name is found, in order; unless a
descriptor declares dependencies, each name of the baseline is among them. -/
theorem toList_resolve (table : PackageTable) (baseline : List Coordinate)
    (extensions : List Text) (corpus : List (Name × List Name)) (words : List Text)
    (embedded : Option EmbeddedDescriptor) :
    let extensions := extensions.map Settings.normalizeExtension
    let found := (make table baseline extensions).resolve
      (corpus.map fun (owner, types) => (owner, TypeSet.ofList types)) words embedded
    let offers := offered table baseline (corpus.flatMap fun (_, types) => types.toFinset.sort)
      (words.filterMap (listedStem? extensions)) (declaredBy embedded)
    found.toList = DependencySet.firsts offers ∧ found.keys.Nodup ∧
      (∀ groupId artifactId, found.get? groupId artifactId =
        offers.find? fun c => c.key == (groupId, artifactId)) ∧
      (declaredBy embedded = [] → ∀ c ∈ baseline, c.key ∈ found.keys) := by
  intro extensions found offers
  have hdots : ∀ extension ∈ extensions, '.' ∈ extension := by
    intro extension h
    obtain ⟨raw, -, rfl⟩ := List.mem_map.mp h
    exact Settings.dot_mem_normalizeExtension raw
  have hstems : (make table baseline extensions).artifactOf = listedStem? extensions :=
    funext (artifactOf_make table baseline hdots)
  have htypes : (corpus.map fun (owner, types) => (owner, TypeSet.ofList types)).flatMap
      (fun entry => entry.2.toList) = corpus.flatMap fun (_, types) => types.toFinset.sort := by
    simp only [List.flatMap_map, TypeSet.toList_ofList]
  have hfound : found = .ofList offers := by
    rw [show found = _ from resolve_eq _ _ _ _, hstems, htypes]
    rfl
  rw [hfound]
  refine ⟨DependencySet.toList_ofList offers, DependencySet.nodup_keys_ofList offers,
    DependencySet.get?_ofList offers, fun hnone c hc => ?_⟩
  have hoffer : c ∈ offers := by
    unfold offers offered
    rw [if_neg (by simp [hnone])]
    exact List.mem_append_right _ hc
  obtain ⟨d, hfirst, -, hkey⟩ := DependencySet.exists_first hoffer
  rw [← hkey] at hfirst ⊢
  exact List.mem_map_of_mem (DependencySet.mem_ofList_iff.mpr hfirst)

/-- A class path with an archive, a text and an extension without a stem: the types are not asked. -/
theorem toList_resolve_sample :
    let found := (make .known PackageTable.baseline
        (["JAR".toList].map Settings.normalizeExtension)).resolve
      [(.ofString "a/B", .ofList [.ofString "org/slf4j/Logger"])]
      ["lib/Core-1.2.jar".toList, "notes.txt".toList, ".Jar".toList] none
    found.toList = {
        groupId := "unknown".toList, artifactId := "Core-1.2".toList,
        version := some "unknown".toList, scope := some "compile".toList,
        source := "manifest-classpath".toList, type := none, classifier := none,
        isOptional := false, exclusions := [] } :: PackageTable.baseline ∧
      ∀ c ∈ PackageTable.baseline, c.key ∈ found.keys := by
  have h := toList_resolve .known PackageTable.baseline ["JAR".toList]
    [(.ofString "a/B", [.ofString "org/slf4j/Logger"])]
    ["lib/Core-1.2.jar".toList, "notes.txt".toList, ".Jar".toList] none
  exact ⟨by decide +kernel, h.2.2.2 rfl⟩

/-! ### The order of the classes -/

/-- **The order of the classes does not matter to a consistent table**: the same dependencies are
found. -/
theorem perm_resolve {r : Resolver} {corpus corpus' : Corpus} (htable : r.table.IsConsistent)
    (h : corpus.Perm corpus') (words : List Text) (embedded : Option EmbeddedDescriptor) :
    (r.resolve corpus words embedded).toList.Perm (r.resolve corpus' words embedded).toList := by
  rw [resolve_eq, resolve_eq]
  refine DependencySet.perm_ofList fun key => ?_
  unfold offered
  split
  · rfl
  · split
    · rfl
    · have hperm : ((corpus.flatMap fun entry => entry.2.toList).filterMap r.table.match?).Perm
          ((corpus'.flatMap fun entry => entry.2.toList).filterMap r.table.match?) :=
        (h.flatMap_right _).filterMap _
      rw [List.find?_append, List.find?_append, DependencySet.find?_eq_of_perm hperm]
      intro c hc d hd hkey
      obtain ⟨type, -, htype⟩ := List.mem_filterMap.mp hc
      obtain ⟨other, -, hother⟩ := List.mem_filterMap.mp hd
      exact PackageTable.eq_of_match? htable htype hother hkey

end Resolver

end Unjar
