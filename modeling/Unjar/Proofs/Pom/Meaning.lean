import Unjar.Proofs.Pom.Assembling
import Unjar.Proofs.Pom.Expanding

/-!
What a rebuilt project keeps of the meaning of a packaged descriptor.

A dependency of a packaged descriptor may hold placeholders.  They are replaced once when it is read,
and what is left of them stands in the descriptor of the rebuilt project, which has properties and an
identity of its own.  A dependency means the same in both descriptors if every name that is left
after the first round, and every name that is met in expanding it further, is either a property that
was taken over word for word or a name that neither of the two defines.  The identity of the packaged
descriptor is not taken over: a name that stands for it keeps its meaning only in the first round.

Main definitions:

* `Unjar.PomElement.meanings` — **what names stand for** in a descriptor;
* `Unjar.PomElement.Keeps`, `Unjar.PomElement.Carries` — names and texts that keep their meaning;
* `Unjar.ProjectDescriptor.rebuilt` — the project around a packaged descriptor.

Main results:

* `Unjar.PomElement.get?_meanings_of_keeps` — names that keep their meaning;
* `Unjar.PomElement.value?_of_dependency?` — what stands in the rebuilt descriptor;
* `Unjar.ProjectDescriptor.exists_part_of_render` — where a dependency that is kept has its place;
* `Unjar.ProjectDescriptor.expands_of_render` — **what a dependency means is kept**;
* `Unjar.ProjectDescriptor.get?_meanings_version`, `Unjar.ProjectDescriptor.loses_version` — the
  version of the packaged descriptor is not.
-/

set_option autoImplicit false

namespace Unjar

open Xml

/-! ### Names -/

/-- The names that every rebuilt project defines. -/
def ProjectDescriptor.definedNames : List Text :=
  ["project.build.sourceEncoding".toList, sourceLevel, targetLevel, "project.groupId".toList,
    "project.version".toList, "project.artifactId".toList]

namespace PomElement

/-- The properties that are known when the dependencies of a descriptor are read. -/
def known (e : PomElement) : Properties :=
  EmbeddedDescriptor.knownProperties e.properties (e.inherited? "groupId") (e.value? "artifactId")
    (e.inherited? "version")

/-- **What names stand for** in a descriptor: its properties, and what it or its parent is called
where they do not say otherwise. -/
def meanings (e : PomElement) : Properties :=
  EmbeddedDescriptor.knownProperties e.properties (e.inherited? "groupId")
    (e.inherited? "artifactId") (e.inherited? "version")

/-- The dependencies of a descriptor. -/
def dependencyParts (e : PomElement) : List PomElement :=
  ((e.part? "dependencies").map fun list => list.parts "dependency").getD []

/-- **A name keeps its meaning** if it is a property that is read as it was written, or if neither
the descriptor nor a project defines it. -/
def Keeps (e : PomElement) (name : Text) : Prop :=
  (∃ value, e.properties.get? name = some value ∧ asRead value = some value) ∨
    e.properties.get? name = none ∧ name ∉ ProjectDescriptor.definedNames

/-- **A text keeps its meaning** if it is read as it is written once its placeholders are replaced,
and if the names that are then met keep theirs. -/
structure Carries (e : PomElement) (t : Text) : Prop where
  /-- The artifact of a parent is not known when dependencies are read. -/
  artifact : e.filled? "artifactId" = none → "project.artifactId".toList ∉ Properties.namesIn t
  value : asRead (e.meanings.substitute t) = some (e.meanings.substitute t)
  names : ∀ k, ∀ name ∈ Properties.namesIn (e.meanings.substitute^[k] (e.meanings.substitute t)),
    e.Keeps name

end PomElement

namespace EmbeddedDescriptor

theorem get?_addDefault_of_some {properties : Properties} {n : String} {value : Option Text}
    {name found : Text} (h : properties.get? name = some found) :
    (addDefault properties n value).get? name = some found := by
  unfold addDefault
  split
  · exact h
  · exact h
  · exact OrderedMap.get?_putNew_of_some h

theorem get?_addDefault_of_ne {properties : Properties} {n : String} {value : Option Text}
    {name : Text} (h : name ≠ n.toList) :
    (addDefault properties n value).get? name = properties.get? name := by
  unfold addDefault
  split
  · rfl
  · rfl
  · exact OrderedMap.get?_putNew_of_ne h

variable {properties : Properties} {groupId artifactId artifactId' version : Option Text}
  {name found : Text}

/-- Properties of a descriptor come before its identity. -/
theorem get?_knownProperties_of_some (h : properties.get? name = some found) :
    (knownProperties properties groupId artifactId version).get? name = some found :=
  get?_addDefault_of_some (get?_addDefault_of_some (get?_addDefault_of_some h))

/-- Other names than those of the identity are properties. -/
theorem get?_knownProperties_of_ne (hgroup : name ≠ "project.groupId".toList)
    (hversion : name ≠ "project.version".toList) (hartifact : name ≠ "project.artifactId".toList) :
    (knownProperties properties groupId artifactId version).get? name = properties.get? name := by
  unfold knownProperties
  dsimp only
  rw [get?_addDefault_of_ne hartifact, get?_addDefault_of_ne hversion,
    get?_addDefault_of_ne hgroup]

/-- The artifact matters to its own name only. -/
theorem get?_knownProperties_congr (hartifact : name ≠ "project.artifactId".toList) :
    (knownProperties properties groupId artifactId version).get? name =
      (knownProperties properties groupId artifactId' version).get? name := by
  unfold knownProperties
  dsimp only
  rw [get?_addDefault_of_ne hartifact, get?_addDefault_of_ne hartifact]

end EmbeddedDescriptor

/-! ### The project around a descriptor -/

namespace ProjectDescriptor

/-- **The project that is rebuilt around a packaged descriptor**, called after its archive. -/
def rebuilt (resolver : Resolver) (corpus : Corpus) (words : List Text) (settings : Settings)
    (stem extension : Text) (embedded : EmbeddedDescriptor) : ProjectDescriptor :=
  .assemble (.ofArchive stem extension settings) (resolver.resolve corpus words (some embedded))
    (some embedded) settings

end ProjectDescriptor

namespace PomElement

open EmbeddedDescriptor ProjectDescriptor

section

variable {e : PomElement} {name t : Text}

/-- A descriptor that names its artifact gives the same meanings when its dependencies are read. -/
theorem substitute_known (h : e.filled? "artifactId" = none →
      "project.artifactId".toList ∉ Properties.namesIn t) :
    e.known.substitute t = e.meanings.substitute t := by
  refine Properties.substitute_congr fun name hname => ?_
  cases hfilled : e.filled? "artifactId" with
  | none =>
      refine get?_knownProperties_congr ?_
      rintro rfl
      exact h hfilled hname
  | some artifactId =>
      have hvalue : e.value? "artifactId" = some artifactId :=
        Option.eq_some_of_filter_eq_some hfilled
      have hinherited : e.inherited? "artifactId" = some artifactId := by
        rw [inherited?, hfilled]
        rfl
      rw [known, meanings, hvalue, hinherited]

/-- What a name that keeps its meaning stands for. -/
theorem get?_properties_of_keeps (h : e.Keeps name) :
    e.meanings.get? name = e.properties.get? name := by
  rcases h with ⟨value, hvalue, -⟩ | ⟨-, hother⟩
  · rw [hvalue]
    exact get?_knownProperties_of_some hvalue
  · -- the names of the identity are among those that a project defines
    refine get?_knownProperties_of_ne ?_ ?_ ?_
    · rintro rfl
      exact hother (by decide)
    · rintro rfl
      exact hother (by decide)
    · rintro rfl
      exact hother (by decide)

variable {identity : ProjectIdentity} {dependencies : DependencySet}
  {embedded : EmbeddedDescriptor} {settings : Settings} {managed plugins : List XmlNode}
  {e' : PomElement}

/-- The properties of a rebuilt project, as they are read. -/
theorem get?_properties_of_isRead (name : Text) (hembedded : embedded.properties = e.properties)
    (h : IsRead (bareRoot
      ((assemble identity dependencies (some embedded) settings).partsOf managed plugins)) e') :
    e'.properties.get? name =
      ((e.properties.get? name).or ((basicProperties settings).get? name)).bind asRead := by
  have hbasic : ((basicProperties settings).map Prod.fst).Nodup :=
    show ["project.build.sourceEncoding".toList, sourceLevel, targetLevel].Nodup by decide
  have hown : (e.properties.map Prod.fst).Nodup := by
    unfold properties
    split
    · exact List.nodup_nil
    · exact OrderedMap.nodup_ofList _
  have hproperties : (assemble identity dependencies (some embedded) settings).properties =
      (basicProperties settings).putAll e.properties := by
    rw [← hembedded]
    rfl
  have hall : (((basicProperties settings).putAll e.properties).map Prod.fst).Nodup :=
    OrderedMap.nodup_putAll hbasic
  have hread := hall.sublist (OrderedMap.map_fst_filterMap_sublist _ asRead)
  rw [properties_of_isRead h, hproperties, OrderedMap.ofList_of_nodup hread,
    OrderedMap.get?_filterMap hall, OrderedMap.get?_putAll hown]

/-- **Names that keep their meaning** stand for the same in a rebuilt project. -/
theorem get?_meanings_of_keeps (hembedded : embedded.properties = e.properties)
    (h : IsRead (bareRoot
      ((assemble identity dependencies (some embedded) settings).partsOf managed plugins)) e')
    (hname : e.Keeps name) : e'.meanings.get? name = e.meanings.get? name := by
  have hread := get?_properties_of_isRead name hembedded h
  rw [get?_properties_of_keeps hname]
  rcases hname with ⟨value, hvalue, hasRead⟩ | ⟨hnone, hother⟩
  · rw [hvalue, Option.some_or, Option.bind_some, hasRead] at hread
    rw [hvalue]
    exact get?_knownProperties_of_some hread
  · have hbasic : (basicProperties settings).get? name = none := by
      rw [OrderedMap.get?_eq_none]
      intro hmem
      exact hother (List.mem_append_left
        ["project.groupId".toList, "project.version".toList, "project.artifactId".toList] hmem)
    rw [hnone, hbasic, Option.or_none, Option.bind_none] at hread
    have hkeeps : e'.Keeps name := .inr ⟨hread, hother⟩
    rw [get?_properties_of_keeps hkeeps, hread, hnone]

/-! ### Texts -/

/-- **What stands in the rebuilt descriptor** is what was left when the packaged one was read. -/
theorem value?_of_dependency? {part part' : PomElement} {known : Properties} {c : Coordinate}
    (hc : dependency? known part = some c) (htells : part'.Tells c) {n : String}
    (hn : n ∈ ["groupId", "artifactId", "version"]) (ht : part.value? n = some t)
    (hvalue : asRead (known.substitute t) = some (known.substitute t)) :
    part'.value? n = some (known.substitute t) := by
  have hfilled : ¬(known.substitute t).isEmpty := by
    intro hempty
    rw [List.isEmpty_iff.mp hempty] at hvalue
    cases hvalue
  obtain ⟨artifactId, hartifact, hc⟩ := Option.bind_eq_some_iff.mp hc
  cases hc
  simp only [List.mem_cons, List.not_mem_nil, or_false] at hn
  rcases hn with rfl | rfl | rfl
  · rw [htells.groupId, ht]
    simp [hfilled, hvalue, Option.filter]
  · obtain rfl : t = artifactId :=
      Option.some.inj (ht.symm.trans (Option.eq_some_of_filter_eq_some hartifact))
    rw [htells.artifactId]
    exact hvalue
  · rw [htells.version, ht]
    exact hvalue

end

end PomElement

/-! ### What is kept -/

namespace ProjectDescriptor

open PomElement

section

variable {resolver : Resolver} {corpus : Corpus} {words : List Text} {settings : Settings}
  {stem extension sourcePath pom : Text} {root : XmlNode} {d : ProjectDescriptor}
  {part : PomElement} {c : Coordinate} {i : Nat}

/-- A descriptor with a dependency is believed. -/
theorem dependencies_rebuilt (hpart : part ∈ (PomElement.ofRoot root).dependencyParts)
    (hc : dependency? (PomElement.ofRoot root).known part = some c) :
    (rebuilt resolver corpus words settings stem extension (.ofRoot sourcePath root)).dependencies =
      .ofList (EmbeddedDescriptor.ofRoot sourcePath root).dependencies := by
  have hmem : c ∈ (EmbeddedDescriptor.ofRoot sourcePath root).dependencies := by
    change c ∈ (PomElement.ofRoot root).dependencies (PomElement.ofRoot root).known
    unfold dependencyParts at hpart
    unfold PomElement.dependencies
    cases hlist : (PomElement.ofRoot root).part? "dependencies" with
    | none =>
        rw [hlist] at hpart
        cases hpart
    | some list =>
        rw [hlist] at hpart
        exact List.mem_filterMap.mpr ⟨part, hpart, hc⟩
  change Resolver.resolve .. = _
  unfold Resolver.resolve
  have hne : (EmbeddedDescriptor.ofRoot sourcePath root).dependencies.isEmpty = false := by
    rw [List.isEmpty_eq_false_iff]
    exact List.ne_nil_of_mem hmem
  simp only [Option.map_some, Option.getD_some, hne, Bool.not_false, if_true]

/-- **A dependency that is kept has its place** in the descriptor of the rebuilt project. -/
theorem exists_part_of_render (hroot : root.WellFormed)
    (hd : d = rebuilt resolver corpus words settings stem extension (.ofRoot sourcePath root))
    (hproject : d.IsExpressible) (hpom : d.render = .ok pom)
    (hpart : part ∈ (PomElement.ofRoot root).dependencyParts)
    (hc : dependency? (PomElement.ofRoot root).known part = some c)
    (hkept : d.dependencies.toList[i]? = some c) :
    ∃ managed plugins root' part', readText? pom = some root' ∧
      IsRead (bareRoot (d.partsOf managed plugins)) (.ofRoot root') ∧
      (PomElement.ofRoot root').dependencyParts[i]? = some part' ∧ part'.Tells c := by
  have hembedded := EmbeddedDescriptor.isWritable_ofRoot hroot sourcePath
  have hwritable : ∀ c ∈ d.dependencies.toList, IsContent c.artifactId → c.IsWritable := by
    rw [hd, dependencies_rebuilt hpart hc]
    exact fun c hc _ => hembedded.dependencies c (DependencySet.mem_ofList hc)
  subst hd
  obtain ⟨managed, plugins, root', rfl, hfound, hread⟩ := read_assemble hproject hwritable
    (by rintro e ⟨⟩; exact hembedded) hpom
  obtain ⟨hparts, -⟩ := dependencies_of_isRead hread
  rw [← hread.parts_of_part? (hasPlainParts_partsOf _ managed plugins) named_dependencies
    "dependency"] at hparts
  obtain ⟨part', hpart', hreadPart⟩ := exists_getElem?_of_forall₂ hparts hkept
  exact ⟨managed, plugins, root', part', readText?_textOf.trans hfound, hread, hpart',
    tells_of_isRead hreadPart⟩

/-- **What a dependency means is kept.**  Where the project around a packaged descriptor can be
expressed and is rendered, its descriptor is a document in which each dependency that is kept has its
place; and a group, an artifact or a version that keeps its meaning expands there to what it expands
to in the packaged descriptor.  If the names of that refer to one another without cycles, then there
is such an expansion. -/
theorem expands_of_render (hroot : root.WellFormed)
    (hd : d = rebuilt resolver corpus words settings stem extension (.ofRoot sourcePath root))
    (hproject : d.IsExpressible) (hpom : d.render = .ok pom)
    (hpart : part ∈ (PomElement.ofRoot root).dependencyParts)
    (hc : dependency? (PomElement.ofRoot root).known part = some c)
    (hkept : d.dependencies.toList[i]? = some c) :
    ∃ root' part', readText? pom = some root' ∧
      (PomElement.ofRoot root').dependencyParts[i]? = some part' ∧
      ∀ n ∈ ["groupId", "artifactId", "version"], ∀ t, part.value? n = some t →
        (PomElement.ofRoot root).Carries t → ∃ t', part'.value? n = some t' ∧
          (∀ expanded, (PomElement.ofRoot root').meanings.Expands t' expanded ↔
            (PomElement.ofRoot root).meanings.Expands t expanded) ∧
          ((PomElement.ofRoot root).meanings.IsAcyclic →
            (∀ entry ∈ (PomElement.ofRoot root).meanings, Properties.IsTemplate entry.2) →
            Properties.IsTemplate t →
            ∃ expanded, (PomElement.ofRoot root).meanings.Expands t expanded ∧
              (PomElement.ofRoot root').meanings.Expands t' expanded) := by
  obtain ⟨managed, plugins, root', part', hroot', hread, hpart', htells⟩ :=
    exists_part_of_render hroot hd hproject hpom hpart hc hkept
  subst hd
  refine ⟨root', part', hroot', hpart', fun n hn t ht hcarries => ?_⟩
  -- what was left when the descriptor was read stands in the rebuilt one
  have hfirst := substitute_known hcarries.artifact
  have hvalue := value?_of_dependency? hc htells hn ht (by rw [hfirst]; exact hcarries.value)
  rw [hfirst] at hvalue
  have hexpands : ∀ expanded, (PomElement.ofRoot root').meanings.Expands
      ((PomElement.ofRoot root).meanings.substitute t) expanded ↔
        (PomElement.ofRoot root).meanings.Expands t expanded := by
    intro expanded
    rw [Properties.expands_congr fun k name hname =>
      get?_meanings_of_keeps rfl hread (hcarries.names k name hname)]
    exact Properties.expands_substitute
  refine ⟨_, hvalue, hexpands, fun hacyclic htemplates ht => ?_⟩
  obtain ⟨expanded, hexpanded⟩ := Properties.exists_expands hacyclic htemplates ht
  exact ⟨expanded, hexpanded, (hexpands expanded).mpr hexpanded⟩

/-- **The identity of the packaged descriptor is lost**: the version that is named in a rebuilt
project is that of the project, unless there is a property of that name. -/
theorem get?_meanings_version {managed plugins : List XmlNode} {e : PomElement}
    (h : IsRead (bareRoot (d.partsOf managed plugins)) e) (hversion : IsValue d.identity.version)
    (hnone : e.properties.get? "project.version".toList = none) :
    e.meanings.get? "project.version".toList = some d.identity.version := by
  obtain ⟨-, -, hversion', -⟩ := identity_of_isRead h
  have hinherited : e.inherited? "version" = some d.identity.version := by
    rw [inherited?, filled?, hversion', hversion.asRead, Option.filter_some,
      if_pos (by simp [hversion.filled])]
    rfl
  obtain ⟨first, more, hcons⟩ := List.exists_cons_of_ne_nil hversion.filled
  rw [meanings, EmbeddedDescriptor.knownProperties, hinherited, hcons,
    EmbeddedDescriptor.get?_addDefault_of_ne (by decide)]
  refine OrderedMap.get?_putNew_of_none ?_
  rw [EmbeddedDescriptor.get?_addDefault_of_ne (by decide), hnone]

end

/-! ### A dependency whose version is named in two steps -/

open PomNode in
/-- The root of a descriptor with one dependency, whose version is that of a property. -/
def versionedRoot (version : Text) : XmlNode :=
  branch "project"
    [leaf "groupId" "g".toList, leaf "artifactId" "a".toList, leaf "version" "1".toList,
      branch "properties" [leaf "x" version, leaf "y" "2".toList],
      branch "dependencies" [branch "dependency"
        [leaf "groupId" "$\x7bproject.groupId\x7d".toList, leaf "artifactId" "lib".toList,
          leaf "version" "$\x7bx\x7d".toList]]]

theorem wellFormed_leaf {n : String} {t : Text} (hn : isName n.toList = true) (ht : IsContent t) :
    (PomNode.leaf n t).WellFormed :=
  .element (.plain hn) ⟨by simp, by simp, List.nodup_nil⟩ ht isContent_nil (by simp)

theorem wellFormed_branch {n : String} {nodes : List XmlNode} (hn : isName n.toList = true)
    (hnodes : ∀ node ∈ nodes, node.WellFormed) : (PomNode.branch n nodes).WellFormed :=
  .element (.plain hn) ⟨by simp, by simp, List.nodup_nil⟩ isContent_nil isContent_nil hnodes

theorem wellFormed_versionedRoot {version : Text} (hversion : IsContent version) :
    (versionedRoot version).WellFormed := by
  unfold versionedRoot
  refine wellFormed_branch (by decide) ?_
  simp only [List.forall_mem_cons]
  refine ⟨wellFormed_leaf (by decide) (by decide), wellFormed_leaf (by decide) (by decide),
    wellFormed_leaf (by decide) (by decide), wellFormed_branch (by decide) ?_,
    wellFormed_branch (by decide) ?_, by simp⟩
  · simp only [List.forall_mem_cons]
    exact ⟨wellFormed_leaf (by decide) hversion, wellFormed_leaf (by decide) (by decide), by simp⟩
  · rw [List.forall_mem_singleton]
    refine wellFormed_branch (by decide) ?_
    simp only [List.forall_mem_cons]
    exact ⟨wellFormed_leaf (by decide) (by decide), wellFormed_leaf (by decide) (by decide),
      wellFormed_leaf (by decide) (by decide), by simp⟩

/-- The project around it. -/
def versionedProject (version : Text) : ProjectDescriptor :=
  rebuilt .default [] [] .default "app".toList ".jar".toList
    (.ofRoot "pom.xml".toList (versionedRoot version))

/-- Its dependency, as it is read. -/
def versionedDependency (version : Text) : Coordinate :=
  ⟨"g".toList, "lib".toList, some version, some Coordinate.compileScope, dependencySource, none,
    none, false, []⟩

theorem expands_of_render_sample :
    ∃ pom root' part' version, (versionedProject "$\x7by\x7d".toList).render = .ok pom ∧
      readText? pom = some root' ∧ (PomElement.ofRoot root').dependencyParts[0]? = some part' ∧
      part'.value? "version" = some version ∧
      (PomElement.ofRoot root').meanings.Expands version "2".toList := by
  have hfirst : (PomElement.ofRoot (versionedRoot "$\x7by\x7d".toList)).meanings.substitute
      "$\x7bx\x7d".toList = "$\x7by\x7d".toList := by decide +kernel
  have hsecond : (PomElement.ofRoot (versionedRoot "$\x7by\x7d".toList)).meanings.substitute
      "$\x7by\x7d".toList = "2".toList := by decide +kernel
  have hlast : (PomElement.ofRoot (versionedRoot "$\x7by\x7d".toList)).meanings.substitute
      "2".toList = "2".toList := by decide +kernel
  have hcarries : (PomElement.ofRoot (versionedRoot "$\x7by\x7d".toList)).Carries
      "$\x7bx\x7d".toList := by
    refine ⟨fun hnone => absurd hnone (by decide), by rw [hfirst]; decide, fun k name hname => ?_⟩
    rw [hfirst] at hname
    -- the second round meets a property that was taken over, and the third nothing
    cases k with
    | zero =>
        have hnames : Properties.namesIn "$\x7by\x7d".toList = ["y".toList] := by decide +kernel
        change name ∈ Properties.namesIn "$\x7by\x7d".toList at hname
        rw [hnames] at hname
        obtain rfl := List.mem_singleton.mp hname
        exact .inl ⟨"2".toList, by decide, by decide⟩
    | succ k =>
        have hnames : Properties.namesIn "2".toList = [] := by decide +kernel
        rw [Function.iterate_succ_apply, hsecond, Function.iterate_fixed hlast, hnames] at hname
        cases hname
  obtain ⟨pom, hpom⟩ : ∃ pom, (versionedProject "$\x7by\x7d".toList).render = .ok pom :=
    exists_eq_ok_of_isSome (by decide +kernel)
  obtain ⟨root', part', hroot', hpart', hfields⟩ := expands_of_render
    (c := versionedDependency "$\x7by\x7d".toList) (i := 0)
    (wellFormed_versionedRoot (by decide)) rfl
    ⟨by decide +kernel, fun p hp => by cases hp⟩ hpom (List.mem_singleton_self _)
    (by decide +kernel) (by decide +kernel)
  obtain ⟨version, hversion, hexpands, -⟩ :=
    hfields "version" (by simp) "$\x7bx\x7d".toList rfl hcarries
  refine ⟨pom, root', part', version, hpom, hroot', hpart', hversion, (hexpands _).mpr ?_⟩
  refine ⟨⟨2, ?_⟩, hlast⟩
  rw [Function.iterate_succ_apply, hfirst, Function.iterate_one, hsecond]

/-- **A version that is named in two steps is lost** if the second names the version of the packaged
descriptor: in the rebuilt project it is that of the project. -/
theorem loses_version :
    (PomElement.ofRoot (versionedRoot "$\x7bproject.version\x7d".toList)).meanings.Expands
        "$\x7bx\x7d".toList "1".toList ∧
      ∃ pom root' part' version,
        (versionedProject "$\x7bproject.version\x7d".toList).render = .ok pom ∧
        readText? pom = some root' ∧ (PomElement.ofRoot root').dependencyParts[0]? = some part' ∧
        part'.value? "version" = some version ∧
        (PomElement.ofRoot root').meanings.Expands version "1.0-SNAPSHOT".toList := by
  refine ⟨⟨⟨2, by decide +kernel⟩, by decide +kernel⟩, ?_⟩
  obtain ⟨pom, hpom⟩ : ∃ pom,
      (versionedProject "$\x7bproject.version\x7d".toList).render = .ok pom :=
    exists_eq_ok_of_isSome (by decide +kernel)
  obtain ⟨managed, plugins, root', part', hroot', hread, hpart', htells⟩ := exists_part_of_render
    (c := versionedDependency "$\x7bproject.version\x7d".toList) (i := 0)
    (wellFormed_versionedRoot (by decide)) rfl
    ⟨by decide +kernel, fun p hp => by cases hp⟩ hpom (List.mem_singleton_self _)
    (by decide +kernel) (by decide +kernel)
  refine ⟨pom, root', part', "$\x7bproject.version\x7d".toList, hpom, hroot', hpart', ?_, ?_⟩
  · rw [htells.version]
    decide
  · have hproperty : (PomElement.ofRoot root').properties.get? "project.version".toList = none := by
      rw [get?_properties_of_isRead (e := .ofRoot (versionedRoot
        "$\x7bproject.version\x7d".toList)) _ rfl hread]
      decide
    have hvalue := get?_meanings_version hread (by decide) hproperty
    -- so the name that was left over is replaced by another version
    have hstep : (PomElement.ofRoot root').meanings.substitute
        "$\x7bproject.version\x7d".toList = "1.0-SNAPSHOT".toList := by
      have hname : "project.version".toList ≠ [] := by decide
      have happend := Properties.substitute_placeholder (p := (PomElement.ofRoot root').meanings)
        hname (by decide) []
      rw [hvalue, Properties.substitute_nil] at happend
      exact happend
    refine ⟨⟨1, hstep⟩, Properties.substitute_of_not_infix (by decide +kernel)⟩

end ProjectDescriptor

end Unjar
