import Unjar.Pom.Assembly
import Unjar.Pom.Embedded
import Unjar.Pom.Rendering
import Unjar.Proofs.OrderedMap
import Unjar.Proofs.Returning
import Unjar.Proofs.Xml.Moving

/-!
What can be rendered.

The properties of a packaged descriptor are named after its elements, so they can be written as
elements again.  A plugin that it manages is written, kept as a text, and read back when the project
is rendered; that succeeds unless one of its attributes has no name.  Nothing else can keep a
project from being rendered.

Main definition: `Unjar.ProjectDescriptor.HasNames` — the keys of a descriptor are names.

Main results:

* `Unjar.PomElement.readText?_of_plugin?` — **a managed plugin is read back**;
* `Unjar.ProjectDescriptor.render_eq_error` — the faults of rendering;
* `Unjar.ProjectDescriptor.render_assemble_eq_error` — **what keeps a project from being rendered**.
-/

set_option autoImplicit false

namespace Unjar

/-! ### Names of elements -/

theorem XmlName.ofText?_of_isName {t : Text} (h : Xml.isName t = true) :
    ofText? t = some (plain t) := by
  have hbrace : '\x7b' ∉ t := Xml.not_mem_of_isName h (by decide)
  unfold ofText?
  split
  · exact absurd List.mem_cons_self hbrace
  · rfl

namespace PomNode

theorem entries_ne_error {m : OrderedMap Text Text} (h : ∀ entry ∈ m, Xml.isName entry.1 = true)
    {fault : RenderFault} : entries m ≠ .error fault := by
  intro herror
  obtain ⟨entry, hentry, herror⟩ := exists_of_mapM_eq_error herror
  dsimp only at herror
  rw [XmlName.ofText?_of_isName (h entry hentry)] at herror
  cases herror

variable {p : Plugin} {fault : RenderFault}

theorem takenOver_eq_error (h : takenOver p = .error fault) :
    ∃ t, p.raw = some t ∧ Xml.readText? t = none ∧ fault = .malformedPlugin (Xml.faultOf t) := by
  unfold takenOver at h
  split at h
  · cases h
  · next t ht =>
    split at h
    · cases h
    · next hread =>
      cases h
      exact ⟨t, ht, hread, rfl⟩

theorem takenOver_eq_ok {found : Plugin × Option XmlNode} (h : takenOver p = .ok found) :
    found.1 = p := by
  unfold takenOver at h
  split at h
  · cases h
    rfl
  · split at h
    · cases h
      rfl
    · cases h

theorem ofPlugin_ne_error {found : Plugin × Option XmlNode}
    (h : ∀ entry ∈ found.1.configuration, Xml.isName entry.1 = true) :
    ofPlugin found ≠ .error fault := by
  intro herror
  obtain ⟨p, _ | node⟩ := found
  · rcases bind_eq_error herror with herror | ⟨_, _, herror⟩
    · exact entries_ne_error h herror
    · cases herror
  · cases herror

end PomNode

/-! ### Faults of rendering -/

namespace ProjectDescriptor

/-- **The keys of a descriptor are names**, those of its properties and of the settings of its
plugins. -/
structure HasNames (d : ProjectDescriptor) : Prop where
  properties : ∀ entry ∈ d.properties, Xml.isName entry.1 = true
  plugins : ∀ p ∈ d.managedPlugins ++ d.plugins, ∀ entry ∈ p.configuration,
    Xml.isName entry.1 = true

variable {d : ProjectDescriptor} {fault : RenderFault}

/-- **The faults of rendering**: only a plugin can be at fault whose text is no element. -/
theorem render_eq_error (hd : d.HasNames) (h : d.render = .error fault) :
    ∃ p ∈ d.managedPlugins ++ d.plugins, ∃ t, p.raw = some t ∧ Xml.readText? t = none ∧
      fault = .malformedPlugin (Xml.faultOf t) := by
  have hxml : d.toXml = .error fault := by
    unfold render at h
    cases hxml : d.toXml with
    | error cause =>
        rw [hxml] at h
        cases h
        rfl
    | ok root =>
        rw [hxml] at h
        cases h
  have hplugin : ∀ {plugins : List Plugin} {found},
      (∀ p ∈ plugins, ∀ entry ∈ p.configuration, Xml.isName entry.1 = true) →
      plugins.mapM PomNode.takenOver = .ok found → found.mapM PomNode.ofPlugin ≠ .error fault := by
    intro plugins found hnames hfound herror
    obtain ⟨q, hq, herror⟩ := exists_of_mapM_eq_error herror
    obtain ⟨p, hp, htaken⟩ := exists_of_mapM_eq_ok hfound hq
    exact PomNode.ofPlugin_ne_error (PomNode.takenOver_eq_ok htaken ▸ hnames p hp) herror
  have hnames := List.forall_mem_append.mp hd.plugins
  rcases bind_eq_error hxml with herror | ⟨managed, hmanaged, hxml⟩
  · obtain ⟨p, hp, herror⟩ := exists_of_mapM_eq_error herror
    exact ⟨p, List.mem_append_left _ hp, PomNode.takenOver_eq_error herror⟩
  rcases bind_eq_error hxml with herror | ⟨plugins, hplugins, hxml⟩
  · obtain ⟨p, hp, herror⟩ := exists_of_mapM_eq_error herror
    exact ⟨p, List.mem_append_right _ hp, PomNode.takenOver_eq_error herror⟩
  rcases bind_eq_error hxml with herror | ⟨properties, -, hxml⟩
  · exact absurd herror (PomNode.entries_ne_error hd.properties)
  rcases bind_eq_error hxml with herror | ⟨_, -, hxml⟩
  · exact absurd herror (hplugin hnames.1 hmanaged)
  rcases bind_eq_error hxml with herror | ⟨_, -, hxml⟩
  · exact absurd herror (hplugin hnames.2 hplugins)
  · cases hxml

end ProjectDescriptor

/-! ### Packaged descriptors -/

namespace PomElement

variable {e : PomElement}

/-- **A managed plugin is read back** from the text that is kept of it. -/
theorem readText?_of_plugin? (hnode : e.node.WellFormed) (hnames : e.node.NamesAttributes)
    {p : Plugin} (h : e.plugin? = some p) : ∃ t, p.raw = some t ∧ Xml.readText? t ≠ none := by
  obtain ⟨artifactId, -, h⟩ := Option.bind_eq_some_iff.mp h
  cases h
  refine ⟨_, rfl, ?_⟩
  have hnames' : e.node.withoutNamespaces.NamesAttributes := by
    rwa [XmlNode.NamesAttributes, hnode.attributeNames_withoutNamespaces]
  rw [Xml.readText?_toText hnode.withoutNamespaces hnames']
  exact Option.some_ne_none _

theorem configuration_of_plugin? {p : Plugin} (h : e.plugin? = some p) : p.configuration = [] := by
  obtain ⟨artifactId, -, h⟩ := Option.bind_eq_some_iff.mp h
  cases h
  rfl

/-- Properties are named after elements. -/
theorem isName_of_property? {node : XmlNode} (hnode : node.WellFormed) {entry : Text × Text}
    (h : property? node = some entry) : Xml.isName entry.1 = true := by
  cases hnode with
  | element hname _ _ _ _ =>
      unfold property? at h
      dsimp only [XmlNode.name?] at h
      split at h
      · cases h
      · cases h
        exact hname.isName

theorem isName_of_mem_properties (hnode : e.node.WellFormed) {entry : Text × Text}
    (h : entry ∈ e.properties) : Xml.isName entry.1 = true := by
  unfold properties at h
  split at h
  · cases h
  · next list hlist =>
    obtain ⟨node, hfound, rfl⟩ := Option.map_eq_some_iff.mp hlist
    have hlistNode : node.WellFormed := hnode.of_mem_children (List.mem_of_find?_eq_some hfound)
    rcases OrderedMap.mem_putAll h with h | h
    · cases h
    · obtain ⟨child, hchild, h⟩ := List.mem_filterMap.mp h
      exact isName_of_property? (hlistNode.of_mem_children hchild) h

end PomElement

namespace ProjectDescriptor

section

variable {identity : ProjectIdentity} {dependencies : DependencySet} {settings : Settings}
  {sourcePath : Text} {root : XmlNode} {fault : RenderFault}

theorem isName_of_mem_basicProperties {entry : Text × Text}
    (h : entry ∈ basicProperties settings) : Xml.isName entry.1 = true := by
  have hall : ∀ key ∈ ["project.build.sourceEncoding".toList, sourceLevel, targetLevel],
      Xml.isName key = true := by decide
  exact hall entry.1 (List.mem_map_of_mem (f := Prod.fst) h)

theorem of_mem_buildPlugins {p : Plugin} (h : p ∈ buildPlugins) :
    p.raw = none ∧ ∀ entry ∈ p.configuration, Xml.isName entry.1 = true := by
  revert p
  decide

/-- **What keeps a project from being rendered**: a managed plugin with an attribute that has no
name. -/
theorem render_assemble_eq_error (hroot : root.WellFormed)
    (h : (assemble identity dependencies (some (.ofRoot sourcePath root)) settings).render =
      .error fault) :
    ∃ part ∈ (PomElement.ofRoot root).partsAlong
        ["build", "pluginManagement", "plugins", "plugin"],
      ¬ part.node.NamesAttributes ∧ ∃ p t, part.plugin? = some p ∧ p.raw = some t ∧
        Xml.readText? t = none ∧ fault = .malformedPlugin (Xml.faultOf t) := by
  have hmanaged : ∀ p ∈ (PomElement.ofRoot root).managedPlugins,
      ∃ part ∈ (PomElement.ofRoot root).partsAlong
          ["build", "pluginManagement", "plugins", "plugin"],
        part.plugin? = some p := fun p hp => List.mem_filterMap.mp hp
  have hnames : (assemble identity dependencies (some (.ofRoot sourcePath root))
      settings).HasNames := by
    constructor
    · intro entry hentry
      rcases OrderedMap.mem_putAll hentry with hentry | hentry
      · exact isName_of_mem_basicProperties hentry
      · exact PomElement.isName_of_mem_properties (e := .ofRoot root) hroot hentry
    · rw [List.forall_mem_append]
      refine ⟨fun p hp => ?_, fun p hp => (of_mem_buildPlugins hp).2⟩
      obtain ⟨part, -, hpart⟩ := hmanaged p hp
      rw [PomElement.configuration_of_plugin? hpart]
      exact fun _ hentry => absurd hentry List.not_mem_nil
  obtain ⟨p, hp, t, ht, hread, hfault⟩ := render_eq_error hnames h
  rcases List.mem_append.mp hp with hp | hp
  · obtain ⟨part, hmem, hpart⟩ := hmanaged p hp
    refine ⟨part, hmem, fun hall => ?_, p, t, hpart, ht, hread, hfault⟩
    obtain ⟨node, hnode, rfl⟩ := List.mem_map.mp hmem
    have hwellFormed : node.WellFormed := hroot.of_mem_along hnode
    obtain ⟨t', ht', hread'⟩ := PomElement.readText?_of_plugin? hwellFormed hall hpart
    rw [ht] at ht'
    cases ht'
    exact hread' hread
  · rw [(of_mem_buildPlugins hp).1] at ht
    cases ht

end

end ProjectDescriptor

end Unjar
