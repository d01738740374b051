import Unjar.Proofs.Pom.Expanding
import Unjar.Proofs.Pom.Namespace
import Unjar.Proofs.Rebuild.Describing

/-!
Items that have names.

An item of a packaged descriptor that lacks a name is passed over, or it gets the name that stands
for an unknown one.  For all names but one this is decided when all else is done.  The artifact of a
dependency is looked at first and its placeholders are replaced then, so that a dependency loses its
artifact if nothing but placeholders was written for it and the properties that they name are empty.
Where no artifact vanishes like this, every item has its names, and so has every dependency of the
descriptor that is written for the project.

Main definitions:

* `Unjar.Properties.Vanishes` — **the texts that vanish**: placeholders of empty properties;
* `Unjar.PomElement.artifacts` — the artifacts that a descriptor writes for its dependencies;
* `Unjar.EmbeddedDescriptor.IsAccepted` — what is told of a text or of bytes.

Main results:

* `Unjar.Properties.substitute_eq_nil_iff` — which texts vanish;
* `Unjar.PomElement.artifactIds_dependencies` — the artifacts of dependencies, one by one;
* `Unjar.Resolver.named_of_mem_resolve` — dependencies found elsewhere have names;
* `Unjar.EmbeddedDescriptor.named_of_isAccepted` — **every item has its names**, except for
  dependencies whose artifacts vanish.
-/

set_option autoImplicit false

namespace Unjar

open Xml

/-! ### Texts that vanish -/

namespace Properties

/-- **A text that vanishes**: placeholders in a row, and the properties that they name are empty. -/
inductive Vanishes (p : Properties) : Text → Prop where
  | nil : Vanishes p []
  | placeholder {name t : Text} (hname : name ≠ []) (hclosed : '\x7d' ∉ name)
      (hvalue : p.get? name = some []) (h : Vanishes p t) : Vanishes p (placeholder name ++ t)

section

variable {p q : Properties} {t : Text}

theorem Vanishes.congr (hempty : ∀ name, p.get? name = some [] ↔ q.get? name = some []) :
    p.Vanishes t ↔ q.Vanishes t := by
  constructor
  · intro h
    induction h with
    | nil => exact .nil
    | placeholder hname hclosed hvalue _ ih =>
        exact .placeholder hname hclosed ((hempty _).mp hvalue) ih
  · intro h
    induction h with
    | nil => exact .nil
    | placeholder hname hclosed hvalue _ ih =>
        exact .placeholder hname hclosed ((hempty _).mpr hvalue) ih

/-- **Which texts vanish** when their placeholders are replaced. -/
theorem substitute_eq_nil_iff : p.substitute t = [] ↔ p.Vanishes t := by
  constructor
  · intro h
    fun_induction namesIn t with
    | case1 => exact .nil
    | case2 r hcut =>
        rw [substitute_of_cut_none hcut] at h
        cases h
    | case3 r name rest hcut hempty _ =>
        obtain rfl : name = [] := List.isEmpty_iff.mp hempty
        rw [substitute_of_cut_nil hcut] at h
        cases h
    | case4 r name rest hcut hempty ih =>
        have hname : name ≠ [] := by simpa using hempty
        rw [substitute_of_cut hcut hname, List.append_eq_nil_iff] at h
        have hvalue : p.get? name = some [] := by
          cases hget : p.get? name with
          | none =>
              rw [hget] at h
              cases h.1
          | some value =>
              rw [hget] at h
              exact congrArg some h.1
        have htext : '$' :: '\x7b' :: r = placeholder name ++ rest := by
          rw [cutAtFirst_eq_some hcut]
          simp [placeholder]
        rw [htext]
        exact .placeholder hname (not_mem_of_cutAtFirst hcut) hvalue (ih h.2)
    | case5 c r hne _ =>
        rw [substitute_cons_of_ne fun r' hc hr => hne r' hc hr] at h
        cases h
  · intro h
    induction h with
    | nil => exact substitute_nil p
    | placeholder hname hclosed hvalue _ ih =>
        rw [substitute_placeholder hname hclosed, hvalue, ih]
        rfl

end

end Properties

/-! ### The items of a descriptor -/

namespace PomElement

section

variable {e : PomElement} {n : String} {t : Text}

theorem ne_nil_of_filled? (h : e.filled? n = some t) : t ≠ [] := by
  have hfilled := (Option.filter_eq_some_iff.mp h).2
  simpa using hfilled

theorem ne_nil_of_exclusion? {x : Text × Text} (h : e.exclusion? = some x) :
    x.1 ≠ [] ∧ x.2 ≠ [] := by
  obtain ⟨groupId, hgroup, h⟩ := Option.bind_eq_some_iff.mp h
  obtain ⟨artifactId, hartifact, h⟩ := Option.bind_eq_some_iff.mp h
  cases h
  exact ⟨ne_nil_of_filled? hgroup, ne_nil_of_filled? hartifact⟩

theorem ne_nil_of_repository? {r : Repository} (h : e.repository? = some r) :
    r.id ≠ [] ∧ r.url ≠ [] := by
  obtain ⟨id, hid, h⟩ := Option.bind_eq_some_iff.mp h
  obtain ⟨url, hurl, h⟩ := Option.bind_eq_some_iff.mp h
  cases h
  exact ⟨ne_nil_of_filled? hid, ne_nil_of_filled? hurl⟩

theorem getD_ne_nil {value : Option Text} {other : Text} (h : ∀ t, value = some t → t ≠ [])
    (hother : other ≠ []) : value.getD other ≠ [] := by
  cases value with
  | none => exact hother
  | some t => exact h t rfl

theorem ne_nil_of_plugin? {p : Plugin} (h : e.plugin? = some p) :
    p.groupId ≠ [] ∧ p.artifactId ≠ [] := by
  obtain ⟨artifactId, hartifact, h⟩ := Option.bind_eq_some_iff.mp h
  cases h
  exact ⟨getD_ne_nil (fun _ => ne_nil_of_filled?) (by decide), ne_nil_of_filled? hartifact⟩

/-- The group of a dependency is looked at when its placeholders are replaced. -/
theorem ne_nil_of_dependency? {known : Properties} {c : Coordinate}
    (h : e.dependency? known = some c) :
    c.groupId ≠ [] ∧ ∀ x ∈ c.exclusions, x.1 ≠ [] ∧ x.2 ≠ [] := by
  obtain ⟨artifactId, -, h⟩ := Option.bind_eq_some_iff.mp h
  cases h
  refine ⟨getD_ne_nil (fun t ht => ?_) (by decide), fun x hx => ?_⟩
  · simpa using (Option.filter_eq_some_iff.mp ht).2
  · obtain ⟨part, -, hx⟩ := List.mem_filterMap.mp hx
    exact ne_nil_of_exclusion? hx

/-- **The artifacts that a descriptor writes** for its dependencies, in order. -/
def artifacts (e : PomElement) : List Text :=
  ((e.part? "dependencies").elim [] (·.parts "dependency")).filterMap (·.filled? "artifactId")

/-- **The artifacts of dependencies** are those that are written, with their placeholders
replaced. -/
theorem artifactIds_dependencies (e : PomElement) (known : Properties) :
    (e.dependencies known).map Coordinate.artifactId = e.artifacts.map known.substitute := by
  have hpart (part : PomElement) : (part.dependency? known).map Coordinate.artifactId =
      (part.filled? "artifactId").map known.substitute := by
    unfold dependency?
    cases part.filled? "artifactId" <;> rfl
  unfold dependencies artifacts
  cases e.part? "dependencies" with
  | none => rfl
  | some list =>
      rw [List.map_filterMap, Option.elim_some, List.map_filterMap]
      exact List.filterMap_congr fun part _ => hpart part

end

end PomElement

/-! ### Dependencies found elsewhere -/

namespace Resolver

/-- **Dependencies from the class path, the built-in table or the baseline** have names. -/
theorem named_of_mem_resolve {extensions : List Text} {corpus : Corpus} {words : List Text}
    {embedded : Option EmbeddedDescriptor} (hembedded : ∀ e, embedded = some e →
      ∀ c ∈ e.dependencies, c.groupId ≠ [] ∧ c.artifactId ≠ []) :
    ∀ c ∈ ((make .known PackageTable.baseline extensions).resolve corpus words embedded).toList,
      c.groupId ≠ [] ∧ c.artifactId ≠ [] := by
  refine of_mem_resolve hembedded (fun type c hmatch => ?_) (fun artifactId hne => ?_) ?_
  · have hnamed : ∀ row ∈ PackageTable.known, row.groupId ≠ [] ∧ row.artifactId ≠ [] := by
      decide +kernel
    obtain ⟨row, hrow, rfl⟩ := PackageTable.exists_row_of_match? hmatch
    exact hnamed row hrow
  · exact ⟨show Coordinate.unknown ≠ [] by decide, hne⟩
  · show ∀ c ∈ PackageTable.baseline, _
    decide +kernel

end Resolver

/-! ### The names in the descriptor of a project -/

theorem Text.unifyLineEnds_ne_nil {t : Text} (h : t ≠ []) : Text.unifyLineEnds t ≠ [] := by
  unfold Text.unifyLineEnds
  split
  · exact absurd rfl h
  · exact List.cons_ne_nil _ _
  · exact List.cons_ne_nil _ _

namespace ProjectDescriptor

/-- A part of a document whose text is there. -/
def IsNamed (names : Option Text × Option Text) : Prop :=
  (∃ groupId, names.1 = some groupId ∧ groupId ≠ []) ∧
    ∃ artifactId, names.2 = some artifactId ∧ artifactId ≠ []

/-- **The dependencies of the descriptor that is written** have the names of those it is written
for. -/
theorem isNamed_of_render {identity : ProjectIdentity} {dependencies : DependencySet}
    {embedded : Option EmbeddedDescriptor} {settings : Settings} {pom : Text} {root : XmlNode}
    (hdependencies : ∀ c ∈ dependencies.toList, IsContent c.artifactId → c.IsWritable)
    (hembedded : ∀ e, embedded = some e → e.IsWritable)
    (hnamed : ∀ c ∈ dependencies.toList, c.groupId ≠ [] ∧ c.artifactId ≠ [])
    (hpom : (assemble identity dependencies embedded settings).render = .ok pom)
    (hroot : readBytes? (Utf8.encode pom) = .ok (some root)) :
    ∀ names ∈ (PomElement.ofRoot root).dependencyNames, IsNamed names := by
  have hroot : readCharacters? pom = some root := by
    obtain ⟨managed, plugins, -, -, rfl⟩ :=
      elementOf_of_render (isName_of_mem_assemble hembedded) hpom
    rw [readBytes?_textOf] at hroot
    exact Except.ok.inj hroot
  have hproject := isExpressible_of_read hdependencies hembedded hpom hroot
  obtain ⟨managed, plugins, found, -, hfound, hread⟩ :=
    read_assemble hproject hdependencies hembedded hpom
  obtain rfl : found = root := Option.some.inj (hfound.symm.trans hroot)
  rw [dependencyNames_of_isRead hread, namesAsRead, DependencySet.keys, List.map_map]
  refine List.forall_mem_map.mpr fun c hc => ?_
  exact ⟨⟨_, rfl, Text.unifyLineEnds_ne_nil (hnamed c hc).1⟩,
    ⟨_, rfl, Text.unifyLineEnds_ne_nil (hnamed c hc).2⟩⟩

end ProjectDescriptor

/-! ### What is told of a text or of bytes -/

namespace EmbeddedDescriptor

theorem get?_addDefault_eq_nil {p : Properties} {n : String} {value : Option Text} {name : Text} :
    (addDefault p n value).get? name = some [] ↔ p.get? name = some [] := by
  unfold addDefault
  split
  · exact Iff.rfl
  · exact Iff.rfl
  · next t hne =>
    cases hget : p.get? name with
    | some found => rw [OrderedMap.get?_putNew_of_some hget]
    | none =>
        refine iff_of_false (fun h => ?_) (Option.some_ne_none _).symm
        by_cases hname : name = n.toList
        · subst hname
          rw [OrderedMap.get?_putNew_of_none hget] at h
          exact hne (Option.some.inj h)
        · rw [OrderedMap.get?_putNew_of_ne hname, hget] at h
          cases h

/-- The identity of a descriptor is not empty where it may be named. -/
theorem vanishes_knownProperties {p : Properties} {groupId artifactId version : Option Text}
    {t : Text} : (knownProperties p groupId artifactId version).Vanishes t ↔ p.Vanishes t :=
  Properties.Vanishes.congr fun _ =>
    get?_addDefault_eq_nil.trans (get?_addDefault_eq_nil.trans get?_addDefault_eq_nil)

/-- **What is told of a text or of bytes** that are a document with a root. -/
inductive IsAccepted (sourcePath : Text) (root : XmlNode) (d : EmbeddedDescriptor) : Prop where
  | text {t : Text} (hroot : readText? t = some root) (h : ofText? sourcePath t = some d)
  | bytes {bytes : Bytes} (hroot : readBytes? bytes = .ok (some root))
      (h : ofBytes? sourcePath bytes = .ok (some d))

section

variable {sourcePath : Text} {root : XmlNode} {d : EmbeddedDescriptor}

theorem IsAccepted.eq_ofRoot (h : IsAccepted sourcePath root d) : d = ofRoot sourcePath root := by
  cases h with
  | text hroot h =>
      rw [ofText?, hroot] at h
      exact (Option.some.inj h).symm
  | bytes hroot h =>
      obtain ⟨root', hroot', rfl⟩ := ofBytes?_eq_ok_some.mp h
      cases hroot.symm.trans hroot'
      rfl

theorem IsAccepted.isWritable (h : IsAccepted sourcePath root d) : d.IsWritable := by
  rw [h.eq_ofRoot]
  cases h with
  | text hroot _ => exact isWritable_ofRoot (wellFormed_of_readText? hroot) sourcePath
  | bytes hroot _ => exact isWritable_ofRoot (wellFormed_of_readBytes? hroot) sourcePath

/-- Which dependencies of a descriptor have an artifact. -/
theorem artifacts_ofRoot :
    (∀ c ∈ (ofRoot sourcePath root).dependencies, c.artifactId ≠ []) ↔
      ∀ t ∈ (PomElement.ofRoot root).artifacts,
        ¬Properties.Vanishes (ofRoot sourcePath root).properties t := by
  have hmap : (∀ c ∈ (ofRoot sourcePath root).dependencies, c.artifactId ≠ []) ↔
      ∀ t ∈ (ofRoot sourcePath root).dependencies.map Coordinate.artifactId, t ≠ [] := by
    rw [List.forall_mem_map]
  have hartifacts : (ofRoot sourcePath root).dependencies.map Coordinate.artifactId =
      (PomElement.ofRoot root).artifacts.map (knownProperties (ofRoot sourcePath root).properties
        (ofRoot sourcePath root).groupId (ofRoot sourcePath root).artifactId
        (ofRoot sourcePath root).version).substitute :=
    (PomElement.ofRoot root).artifactIds_dependencies _
  rw [hmap, hartifacts, List.forall_mem_map]
  simp only [ne_eq, Properties.substitute_eq_nil_iff, vanishes_knownProperties]

/-- The items that are decided when all else is done. -/
theorem items_ofRoot (sourcePath : Text) (root : XmlNode) :
    (∀ c ∈ (ofRoot sourcePath root).dependencies,
        c.groupId ≠ [] ∧ ∀ x ∈ c.exclusions, x.1 ≠ [] ∧ x.2 ≠ []) ∧
      (∀ r ∈ (ofRoot sourcePath root).repositories, r.id ≠ [] ∧ r.url ≠ []) ∧
      ∀ p ∈ (ofRoot sourcePath root).managedPlugins, p.groupId ≠ [] ∧ p.artifactId ≠ [] := by
  refine ⟨fun c hc => ?_, fun r hr => ?_, fun p hp => ?_⟩
  · change c ∈ PomElement.dependencies _ _ at hc
    unfold PomElement.dependencies at hc
    split at hc
    · cases hc
    · obtain ⟨part, -, hc⟩ := List.mem_filterMap.mp hc
      exact PomElement.ne_nil_of_dependency? hc
  · change r ∈ PomElement.repositories _ at hr
    unfold PomElement.repositories at hr
    split at hr
    · cases hr
    · obtain ⟨part, -, hr⟩ := List.mem_filterMap.mp hr
      exact PomElement.ne_nil_of_repository? hr
  · obtain ⟨part, -, hp⟩ := List.mem_filterMap.mp hp
    exact PomElement.ne_nil_of_plugin? hp

/-- **Every item of a packaged descriptor has its names**, whatever the text or the bytes that it is
read from, apart from the artifacts of dependencies.  These are there exactly if none of those that
are written vanishes; and then no dependency without a group or an artifact stands in the descriptor
that is written for the project. -/
theorem named_of_isAccepted (h : IsAccepted sourcePath root d) :
    (∀ c ∈ d.dependencies, c.groupId ≠ [] ∧ ∀ x ∈ c.exclusions, x.1 ≠ [] ∧ x.2 ≠ []) ∧
      (∀ r ∈ d.repositories, r.id ≠ [] ∧ r.url ≠ []) ∧
      (∀ p ∈ d.managedPlugins, p.groupId ≠ [] ∧ p.artifactId ≠ []) ∧
      ((∀ c ∈ d.dependencies, c.artifactId ≠ []) ↔
        ∀ t ∈ (PomElement.ofRoot root).artifacts, ¬Properties.Vanishes d.properties t) ∧
      ((∀ t ∈ (PomElement.ofRoot root).artifacts, ¬Properties.Vanishes d.properties t) →
        ∀ (extensions : List Text) (corpus : Corpus) (words : List Text)
          (identity : ProjectIdentity) (settings : Settings) (pom : Text) (written : XmlNode),
          (ProjectDescriptor.assemble identity
            ((Resolver.make .known PackageTable.baseline extensions).resolve corpus words (some d))
            (some d) settings).render = .ok pom →
          readBytes? (Utf8.encode pom) = .ok (some written) →
          ∀ names ∈ (PomElement.ofRoot written).dependencyNames,
            ProjectDescriptor.IsNamed names) := by
  have hembedded : ∀ e, some d = some e → e.IsWritable := by
    rintro _ ⟨⟩
    exact h.isWritable
  obtain rfl := h.eq_ofRoot
  obtain ⟨hdependencies, hrepositories, hplugins⟩ := items_ofRoot sourcePath root
  refine ⟨hdependencies, hrepositories, hplugins, artifacts_ofRoot, ?_⟩
  intro hpresent extensions corpus words identity settings pom written hpom hread
  refine ProjectDescriptor.isNamed_of_render (fun c hc hcontent => ?_) hembedded ?_ hpom hread
  · exact Resolver.isWritable_of_mem_resolve (Resolver.isWritable_make extensions) hembedded hc
      hcontent
  · refine Resolver.named_of_mem_resolve ?_
    rintro _ ⟨⟩ c hc
    exact ⟨(hdependencies c hc).1, artifacts_ofRoot.mpr hpresent c hc⟩

end

/-- A tree in no namespace is accepted as it is read back. -/
theorem isAccepted_readBack {root : XmlNode} (h : root.Presentable) (hplain : root.IsPlain)
    (hroot : root.name? ≠ none) : IsAccepted [] (readBack none root.unified)
      (ofRoot [] (readBack none root.unified)) := by
  have hway : Declaring.absent.IsAllowed := trivial
  obtain ⟨table, outer, declared, node, htext, htable, hdeclared, hspelt, hname, hfound⟩ :=
    exists_text_eq h hplain hway
  have hnode : node.name? ≠ none := fun hnone => hroot (hname.mp hnone)
  refine .text (t := Declaring.absent.text root) ?_ (read_of_declaring h hplain hroot [] hway).1
  rw [htext, readText?_writeNode htable hdeclared hspelt hnode, hfound]
  rfl

/-- A descriptor with one property and one dependency. -/
def dependent (value artifactId : String) : XmlNode :=
  PomNode.branch "project" [
    PomNode.branch "properties" [PomNode.leaf "e" value.toList],
    PomNode.branch "dependencies" [PomNode.branch "dependency" [
      PomNode.leaf "groupId" "g".toList, PomNode.leaf "artifactId" artifactId.toList]]]

open PomNode in
theorem presentable_dependent (value artifactId : String) (hvalue : IsContent value.toList)
    (hartifact : IsContent artifactId.toList) : (dependent value artifactId).Presentable := by
  -- one leaf or branch after the other, down to the ends of the lists
  repeat' first
    | exact presentable_leaf (by decide) hvalue
    | exact presentable_leaf (by decide) hartifact
    | exact presentable_leaf (by decide) (by decide)
    | refine presentable_branch (by decide) ?_
    | refine List.forall_mem_cons.mpr ⟨?_, ?_⟩
    | exact fun _ hnode => absurd hnode List.not_mem_nil

/-- What is told of it. -/
def ofDependent (value artifactId : String) : EmbeddedDescriptor :=
  ofRoot [] (readBack none (dependent value artifactId).unified)

theorem named_of_isAccepted_dependent :
    IsAccepted [] (readBack none (dependent " 1 " "a$\x7be\x7d").unified)
        (ofDependent " 1 " "a$\x7be\x7d") ∧
      (ofDependent " 1 " "a$\x7be\x7d").dependencies.map Coordinate.key =
        [("g".toList, "a1".toList)] ∧
      ∀ c ∈ (ofDependent " 1 " "a$\x7be\x7d").dependencies, c.artifactId ≠ [] := by
  have hpresentable := presentable_dependent " 1 " "a$\x7be\x7d" (by decide) (by decide)
  have haccepted := isAccepted_readBack hpresentable (by decide) (Option.some_ne_none _)
  have hartifacts : (PomElement.ofRoot
      (readBack none (dependent " 1 " "a$\x7be\x7d").unified)).artifacts =
        ["a$\x7be\x7d".toList] := by
    decide +kernel
  obtain ⟨-, -, -, hpresent, -⟩ := named_of_isAccepted haccepted
  refine ⟨haccepted, by decide +kernel, hpresent.mpr ?_⟩
  rw [hartifacts, List.forall_mem_singleton, ← Properties.substitute_eq_nil_iff]
  decide +kernel

/-- An artifact that vanishes: the property is blank. -/
theorem artifactId_vanishes :
    IsAccepted [] (readBack none (dependent " " "$\x7be\x7d").unified)
        (ofDependent " " "$\x7be\x7d") ∧
      (ofDependent " " "$\x7be\x7d").dependencies.map Coordinate.key = [("g".toList, [])] :=
  ⟨isAccepted_readBack (presentable_dependent " " "$\x7be\x7d" (by decide) (by decide))
    (by decide) (Option.some_ne_none _), by decide +kernel⟩

end EmbeddedDescriptor

end Unjar
