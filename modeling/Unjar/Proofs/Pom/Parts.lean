import Mathlib.Data.List.Chain
import Unjar.Proofs.Pom.Reading
import Unjar.Proofs.Pom.Rendering

/-!
The parts of a descriptor.

The tree of a descriptor is put together from leaves with a text and branches with parts, most of
them left out where there is nothing to tell.  So it is known where a part of a name stands, that all
parts are in no namespace, and that the tree can be written if its texts can stand in a document.

Main definitions:

* `Unjar.ProjectDescriptor.partsOf` — the parts of a descriptor, given the elements of its plugins;
* `Unjar.ProjectDescriptor.texts` — **the texts of a descriptor**, apart from its plugins;
* `Unjar.PomNode.elementOf` — the element of a plugin;
* `Unjar.Plugin.IsWritable` — **plugins that can stand in a descriptor**.

Main results:

* `Unjar.ProjectDescriptor.toXml_eq_ok` — the tree of a descriptor;
* `Unjar.ProjectDescriptor.presentable_partsOf` — its parts can be written;
* `Unjar.ProjectDescriptor.hasLeaf_of_mem_givenTexts` — what they hold in any case;
* `Unjar.ProjectDescriptor.read_partsOf` — **a rendered descriptor is read as its parts**.
-/

set_option autoImplicit false

namespace Unjar

/-! ### Leaves and branches -/

namespace PomNode

section

variable {m n : String} {t : Text} {nodes nodes' : List XmlNode}

@[simp] theorem name_inj : name m = name n ↔ m = n := by
  simp [name, XmlName.plain, String.toList_inj]

@[simp] theorem name?_leaf : (leaf m t).name? = some (name m) := rfl

@[simp] theorem name?_branch : (branch m nodes).name? = some (name m) := rfl

/-- The first node of a name. -/
def first? (n : String) (nodes : List XmlNode) : Option XmlNode :=
  nodes.find? fun node => node.name? == some (name n)

theorem child?_branch : (branch m nodes).child? (name n) = first? n nodes := rfl

@[simp] theorem first?_nil : first? n [] = none := rfl

@[simp] theorem first?_append :
    first? n (nodes ++ nodes') = (first? n nodes).or (first? n nodes') := List.find?_append

@[simp] theorem first?_leaf_cons :
    first? n (leaf m t :: nodes) = if m = n then some (leaf m t) else first? n nodes := by
  by_cases h : m = n
  · simp [first?, h]
  · simp [first?, h]

@[simp] theorem first?_leafIfFilled (t : Option Text) : first? n (leafIfFilled m t) =
    if m = n then (t.filter fun t => !t.isEmpty).map (leaf m) else none := by
  rcases t with _ | _ | ⟨c, t⟩
  · simp [leafIfFilled]
  · simp [leafIfFilled, Option.filter]
  · simp [leafIfFilled, Option.filter]

@[simp] theorem branchIfAny_nil : branchIfAny n [] = [] := rfl

@[simp] theorem first?_branchIfAny : first? n (branchIfAny m nodes) =
    if m = n ∧ nodes ≠ [] then some (branch m nodes) else none := by
  cases nodes with
  | nil => simp [branchIfAny]
  | cons node nodes =>
      by_cases h : m = n
      · simp [branchIfAny, first?, h]
      · simp [branchIfAny, first?, h]

/-- All nodes of a name. -/
def named (n : String) (nodes : List XmlNode) : List XmlNode :=
  nodes.filter fun node => node.name? == some (name n)

theorem childrenNamed_branch : (branch m nodes).childrenNamed (name n) = named n nodes := rfl

@[simp] theorem named_nil : named n [] = [] := rfl

@[simp] theorem named_append : named n (nodes ++ nodes') = named n nodes ++ named n nodes' :=
  List.filter_append ..

@[simp] theorem named_leaf_cons :
    named n (leaf m t :: nodes) = if m = n then leaf m t :: named n nodes else named n nodes := by
  by_cases h : m = n
  · simp [named, h]
  · simp [named, h]

@[simp] theorem named_leafIfFilled (t : Option Text) :
    named n (leafIfFilled m t) = if m = n then leafIfFilled m t else [] := by
  rcases t with _ | _ | ⟨c, t⟩
  · simp [leafIfFilled]
  · simp [leafIfFilled]
  · simp [leafIfFilled]

@[simp] theorem named_branchIfAny :
    named n (branchIfAny m nodes) = if m = n then branchIfAny m nodes else [] := by
  cases nodes with
  | nil => simp [branchIfAny]
  | cons node nodes =>
      by_cases h : m = n
      · simp [branchIfAny, named, h]
      · simp [branchIfAny, named, h]

theorem named_map_branch {α : Type} (l : List α) (f : α → List XmlNode) :
    named n (l.map fun a => branch n (f a)) = l.map fun a => branch n (f a) := by
  rw [named, List.filter_eq_self, List.forall_mem_map]
  exact fun a _ => by simp

/-! ### Names in no namespace -/

/-- The names of nodes are in no namespace. -/
def ArePlain (nodes : List XmlNode) : Prop :=
  ∀ node ∈ nodes, ∀ name, node.name? = some name → name.uri = none

theorem hasPlainParts_branch : (branch m nodes).HasPlainParts ↔ ArePlain nodes := Iff.rfl

@[simp] theorem arePlain_nil : ArePlain [] := fun _ h => absurd h List.not_mem_nil

@[simp] theorem arePlain_append :
    ArePlain (nodes ++ nodes') ↔ ArePlain nodes ∧ ArePlain nodes' := List.forall_mem_append

@[simp] theorem arePlain_leaf_cons : ArePlain (leaf m t :: nodes) ↔ ArePlain nodes := by
  simp [ArePlain, name, XmlName.plain]

@[simp] theorem arePlain_leafIfFilled (t : Option Text) : ArePlain (leafIfFilled m t) := by
  unfold leafIfFilled
  split <;> simp

@[simp] theorem arePlain_branchIfAny : ArePlain (branchIfAny m nodes) := by
  unfold branchIfAny
  split
  · simp
  · simp [ArePlain, name, XmlName.plain]

theorem arePlain_map_branch {α : Type} (l : List α) (f : α → List XmlNode) :
    ArePlain (l.map fun a => branch n (f a)) := by
  rw [ArePlain, List.forall_mem_map]
  intro a _ given hgiven
  cases hgiven
  rfl

end

/-! ### What can be written -/

section

variable {n : String} {t : Text} {nodes : List XmlNode}

theorem presentable_xmlLeaf {name : XmlName} (hname : Xml.IsElementName name)
    (ht : Xml.IsContent t) : (XmlNode.leaf name t).Presentable :=
  .element hname ⟨by simp, by simp, List.nodup_nil⟩ (by simp) ht Xml.isContent_nil
    fun _ h => absurd h List.not_mem_nil

theorem presentable_leaf (hn : Xml.isName n.toList = true) (ht : Xml.IsContent t) :
    (leaf n t).Presentable := presentable_xmlLeaf (.plain hn) ht

theorem presentable_branch (hn : Xml.isName n.toList = true)
    (hnodes : ∀ node ∈ nodes, node.Presentable) : (branch n nodes).Presentable :=
  .element (.plain hn) ⟨by simp, by simp, List.nodup_nil⟩ (by simp) Xml.isContent_nil
    Xml.isContent_nil hnodes

theorem presentable_of_mem_leafIfFilled (hn : Xml.isName n.toList = true) {t : Option Text}
    (ht : ∀ text ∈ t, Xml.IsContent text) : ∀ node ∈ leafIfFilled n t, node.Presentable := by
  unfold leafIfFilled
  split
  · simp
  · simp
  · next text _ =>
    intro node hnode
    rw [List.mem_singleton.mp hnode]
    exact presentable_leaf hn (ht text rfl)

theorem presentable_of_mem_branchIfAny (hn : Xml.isName n.toList = true)
    (hnodes : ∀ node ∈ nodes, node.Presentable) :
    ∀ node ∈ branchIfAny n nodes, node.Presentable := by
  unfold branchIfAny
  split
  · simp
  · intro node hnode
    rw [List.mem_singleton.mp hnode]
    exact presentable_branch hn hnodes

end

end PomNode

/-! ### Texts -/

/-- The texts of a dependency. -/
def Coordinate.texts (c : Coordinate) : List Text :=
  [c.groupId, c.artifactId, c.source] ++ c.version.toList ++ c.scope.toList ++ c.type.toList ++
    c.classifier.toList ++ c.exclusions.flatMap fun e => [e.1, e.2]

def Repository.texts (r : Repository) : List Text := [r.id, r.url] ++ r.name.toList

def ProjectIdentity.texts (i : ProjectIdentity) : List Text :=
  [i.groupId, i.artifactId, i.version, i.packaging]

/-- **The texts of a descriptor**, apart from the version of its format, the keys of its properties
and its plugins. -/
def ProjectDescriptor.texts (d : ProjectDescriptor) : List Text :=
  d.identity.texts ++ d.properties.map Prod.snd ++ d.repositories.flatMap Repository.texts ++
    d.dependencies.toList.flatMap Coordinate.texts

namespace PomNode

open Xml

theorem presentable_ofRepository {r : Repository} (h : ∀ t ∈ r.texts, IsContent t) :
    (ofRepository r).Presentable := by
  obtain ⟨hid, hurl, hname⟩ : IsContent r.id ∧ IsContent r.url ∧ ∀ t ∈ r.name, IsContent t := by
    simpa [Repository.texts] using h
  refine presentable_branch (by decide) ?_
  simp only [List.forall_mem_append, List.forall_mem_singleton]
  exact ⟨⟨presentable_leaf (by decide) hid,
    presentable_of_mem_leafIfFilled (by decide) hname⟩, presentable_leaf (by decide) hurl⟩

/-- The remark in front of a dependency can stand as a comment if the source can. -/
theorem isRemark_review {source : Text} (hcontent : IsContent source) (hreturn : '\r' ∉ source)
    (hhyphens : ¬"--".toList <:+: source) :
    IsRemark (" inferred from ".toList ++ source ++ ": refine groupId/version ".toList) := by
  refine ⟨?_, ?_, ?_⟩
  · simp only [isContent_append]
    exact ⟨⟨by decide, hcontent⟩, by decide⟩
  · exact List.not_mem_append (List.not_mem_append (by decide) hreturn) (by decide)
  · -- two hyphens in a row would stand in the source, which has no hyphen at its sides
    have hchain : ∀ {t : Text}, t.IsChain (fun a b => ¬(a = '-' ∧ b = '-')) ↔
        ¬"--".toList <:+: t := by
      intro t
      rw [List.isChain_iff_forall_rel_of_append_cons_cons]
      constructor
      · rintro h ⟨before, after, rfl⟩
        have hpair : before ++ "--".toList ++ after = before ++ '-' :: '-' :: after := by simp
        exact h hpair ⟨rfl, rfl⟩
      · rintro h a b before after rfl ⟨rfl, rfl⟩
        exact h ⟨before, after, by simp⟩
    rw [← hchain] at hhyphens ⊢
    rw [List.append_assoc, List.append_assoc, List.isChain_append, List.isChain_append]
    refine ⟨by decide, ⟨hhyphens, by decide, ?_⟩, ?_⟩
    · rintro a - b hb ⟨-, rfl⟩
      revert hb
      decide
    · rintro a ha b - ⟨rfl, -⟩
      revert ha
      decide

theorem presentable_ofExclusion {e : Text × Text} (hgroup : IsContent e.1)
    (hartifact : IsContent e.2) : (ofExclusion e).Presentable := by
  refine presentable_branch (by decide) ?_
  simp only [List.forall_mem_cons]
  exact ⟨presentable_leaf (by decide) hgroup, presentable_leaf (by decide) hartifact, by simp⟩

theorem presentable_ofCoordinate {c : Coordinate} (h : ∀ t ∈ c.texts, IsContent t) :
    (ofCoordinate c).Presentable := by
  simp only [Coordinate.texts, List.forall_mem_append, List.forall_mem_cons, List.mem_flatMap,
    Option.mem_toList] at h
  obtain ⟨⟨⟨⟨⟨⟨hgroup, hartifact, -⟩, hversion⟩, hscope⟩, htype⟩, hclassifier⟩, hexclusions⟩ := h
  refine presentable_branch (by decide) ?_
  simp only [List.forall_mem_append, List.forall_mem_cons]
  refine ⟨⟨⟨⟨⟨⟨⟨presentable_leaf (by decide) hgroup, presentable_leaf (by decide) hartifact,
    by simp⟩, ?_⟩, ?_⟩, ?_⟩, ?_⟩, ?_⟩, ?_⟩
  · exact presentable_of_mem_leafIfFilled (by decide) hversion
  · exact presentable_of_mem_leafIfFilled (by decide) htype
  · exact presentable_of_mem_leafIfFilled (by decide) hclassifier
  · split
    · simp
    · exact presentable_of_mem_leafIfFilled (by decide) hscope
  · refine presentable_of_mem_branchIfAny (by decide) ?_
    rw [List.forall_mem_map]
    intro e he
    exact presentable_ofExclusion (hexclusions e.1 ⟨e, he, by simp⟩)
      (hexclusions e.2 ⟨e, he, by simp⟩)
  · split
    · rw [List.forall_mem_singleton]
      exact presentable_leaf (by decide) (by decide)
    · simp

theorem presentable_ofDependency {c : Coordinate} (h : ∀ t ∈ c.texts, IsContent t)
    (hreturn : '\r' ∉ c.source) (hhyphens : ¬"--".toList <:+: c.source) :
    ∀ node ∈ ofDependency c, node.Presentable := by
  have hsource : IsContent c.source := h c.source (by simp [Coordinate.texts])
  unfold ofDependency
  rw [List.forall_mem_append, List.forall_mem_singleton]
  refine ⟨?_, presentable_ofCoordinate h⟩
  split
  · rw [List.forall_mem_singleton]
    exact .comment (isRemark_review hsource hreturn hhyphens) isContent_nil
  · simp

/-! ### The tree -/

/-- The element of a plugin. -/
def elementOf (p : Plugin) : Except RenderFault XmlNode := takenOver p >>= ofPlugin

/-- The element of a plugin that was taken over is read from its text. -/
theorem elementOf_of_raw {p : Plugin} {t : Text} {node : XmlNode} (hraw : p.raw = some t) :
    elementOf p = .ok node ↔ readText? t = some node := by
  rw [elementOf, takenOver, hraw]
  dsimp only
  cases readText? t with
  | none =>
      constructor
      · rintro ⟨⟩
      · rintro ⟨⟩
  | some found =>
      constructor
      · rintro ⟨⟩
        rfl
      · rintro ⟨⟩
        rfl

/-- Properties are written under their keys, which are names. -/
theorem entries_eq_ok {m : OrderedMap Text Text} (h : ∀ entry ∈ m, isName entry.1 = true) :
    entries m = .ok (m.map fun entry => .leaf (.plain entry.1) entry.2) := by
  induction m with
  | nil => rfl
  | cons entry m ih =>
      rw [List.forall_mem_cons] at h
      obtain ⟨key, value⟩ := entry
      have hkey : XmlName.ofText? key = some (.plain key) := XmlName.ofText?_of_isName h.1
      unfold entries at ih ⊢
      rw [List.mapM_cons, ih h.2]
      simp only [hkey]
      rfl

end PomNode

namespace ProjectDescriptor

open PomNode Xml

/-- **The parts of a descriptor**, given the elements of its managed and its own plugins. -/
def partsOf (d : ProjectDescriptor) (managed plugins : List XmlNode) : List XmlNode :=
  identityNodes d.modelVersion d.identity ++
    branchIfAny "properties" (d.properties.map fun entry => .leaf (.plain entry.1) entry.2) ++
    branchIfAny "repositories" (d.repositories.map ofRepository) ++
    branchIfAny "dependencies" (d.dependencies.toList.flatMap ofDependency) ++
    branchIfAny "build" (branchIfAny "pluginManagement" (branchIfAny "plugins" managed) ++
      branchIfAny "plugins" plugins)

section

variable {d : ProjectDescriptor} {managed plugins : List XmlNode}

/-- The elements of plugins are found in two steps. -/
theorem mapM_elementOf {ps : List Plugin} {nodes : List XmlNode}
    (h : List.Forall₂ (fun p node => elementOf p = .ok node) ps nodes) :
    ∃ taken, ps.mapM takenOver = .ok taken ∧ taken.mapM ofPlugin = .ok nodes := by
  induction h with
  | nil => exact ⟨[], rfl, rfl⟩
  | @cons p node ps nodes hp _ ih =>
      obtain ⟨taken, htaken, hnodes⟩ := ih
      obtain ⟨first, hfirst, hnode⟩ := bind_eq_ok.mp hp
      refine ⟨first :: taken, ?_, ?_⟩
      · rw [List.mapM_cons, hfirst, htaken]
        rfl
      · rw [List.mapM_cons, hnode, hnodes]
        rfl

/-- And what is found in two steps is found. -/
theorem forall₂_elementOf {ps : List Plugin} {taken : List (Plugin × Option XmlNode)}
    {nodes : List XmlNode} (htaken : ps.mapM takenOver = .ok taken)
    (hnodes : taken.mapM ofPlugin = .ok nodes) :
    List.Forall₂ (fun p node => elementOf p = .ok node) ps nodes := by
  induction ps generalizing taken nodes with
  | nil =>
      cases htaken
      cases hnodes
      exact .nil
  | cons p ps ih =>
      rw [List.mapM_cons] at htaken
      obtain ⟨first, hfirst, htaken⟩ := bind_eq_ok.mp htaken
      obtain ⟨others, hothers, htaken⟩ := bind_eq_ok.mp htaken
      cases htaken
      rw [List.mapM_cons] at hnodes
      obtain ⟨node, hnode, hnodes⟩ := bind_eq_ok.mp hnodes
      obtain ⟨more, hmore, hnodes⟩ := bind_eq_ok.mp hnodes
      cases hnodes
      exact .cons (bind_eq_ok.mpr ⟨first, hfirst, hnode⟩) (ih hothers hmore)

/-- **The tree of a descriptor** whose properties have names, if its plugins have elements. -/
theorem toXml_eq_ok (hnames : ∀ entry ∈ d.properties, isName entry.1 = true)
    (hmanaged : List.Forall₂ (fun p node => elementOf p = .ok node) d.managedPlugins managed)
    (hplugins : List.Forall₂ (fun p node => elementOf p = .ok node) d.plugins plugins) :
    d.toXml = .ok (rootOf (d.partsOf managed plugins)) := by
  obtain ⟨taken, htaken, hnodes⟩ := mapM_elementOf hmanaged
  obtain ⟨taken', htaken', hnodes'⟩ := mapM_elementOf hplugins
  unfold toXml
  rw [htaken, htaken', entries_eq_ok hnames]
  simp only [bind, Except.bind]
  rw [hnodes, hnodes']
  rfl

/-- A descriptor that is rendered has elements for its plugins. -/
theorem elementOf_of_render {pom : Text} (hnames : ∀ entry ∈ d.properties, isName entry.1 = true)
    (h : d.render = .ok pom) :
    ∃ managed plugins, List.Forall₂ (fun p node => elementOf p = .ok node) d.managedPlugins managed ∧
      List.Forall₂ (fun p node => elementOf p = .ok node) d.plugins plugins ∧
      pom = textOf (d.partsOf managed plugins) := by
  unfold render at h
  cases hxml : d.toXml with
  | error fault =>
      rw [hxml] at h
      cases h
  | ok root =>
      have hroot := hxml
      unfold toXml at hxml
      obtain ⟨taken, htaken, hxml⟩ := bind_eq_ok.mp hxml
      obtain ⟨taken', htaken', hxml⟩ := bind_eq_ok.mp hxml
      obtain ⟨properties, -, hxml⟩ := bind_eq_ok.mp hxml
      obtain ⟨managed, hmanaged, hxml⟩ := bind_eq_ok.mp hxml
      obtain ⟨plugins, hplugins, -⟩ := bind_eq_ok.mp hxml
      have helements := forall₂_elementOf htaken hmanaged
      have helements' := forall₂_elementOf htaken' hplugins
      rw [toXml_eq_ok hnames helements helements'] at hroot
      cases hroot
      rw [toXml_eq_ok hnames helements helements'] at h
      cases h
      exact ⟨managed, plugins, helements, helements', rfl⟩

/-! ### What is written of it -/

/-- Leaves name no namespace, and branches those of their parts. -/
theorem nodeUris_leaf (n : String) (t : Text) : nodeUris (leaf n t) = [] := rfl

theorem nodeUris_branch (n : String) (nodes : List XmlNode) :
    nodeUris (branch n nodes) = allUris nodes := rfl

theorem allUris_append (nodes nodes' : List XmlNode) :
    allUris (nodes ++ nodes') = allUris nodes ++ allUris nodes' := by
  simp [allUris_eq_flatMap]

theorem allUris_eq_nil {nodes : List XmlNode} (h : ∀ node ∈ nodes, nodeUris node = []) :
    allUris nodes = [] := by
  rw [allUris_eq_flatMap]
  exact List.flatMap_eq_nil_iff.mpr h

theorem allUris_leafIfFilled (n : String) (t : Option Text) : allUris (leafIfFilled n t) = [] := by
  unfold leafIfFilled
  split <;> rfl

theorem allUris_branchIfAny (n : String) (nodes : List XmlNode) :
    allUris (branchIfAny n nodes) = allUris nodes := by
  unfold branchIfAny
  split
  · next hnil =>
    rw [List.isEmpty_iff.mp hnil]
  · rw [allUris, allUris, nodeUris_branch, List.append_nil]

theorem nodeUris_ofCoordinate (c : Coordinate) : nodeUris (ofCoordinate c) = [] := by
  have hexclusions : allUris (c.exclusions.map ofExclusion) = [] :=
    allUris_eq_nil (List.forall_mem_map.mpr fun _ _ => rfl)
  rw [ofCoordinate, nodeUris_branch]
  simp only [allUris_append, allUris_leafIfFilled, allUris_branchIfAny, hexclusions]
  split <;> split <;> simp [allUris, nodeUris_leaf, allUris_leafIfFilled]

/-- **Only plugins name namespaces** in a descriptor. -/
theorem allUris_partsOf (d : ProjectDescriptor) (managed plugins : List XmlNode) :
    allUris (d.partsOf managed plugins) = allUris (managed ++ plugins) := by
  have hproperties : allUris (d.properties.map fun entry =>
      XmlNode.leaf (.plain entry.1) entry.2) = [] :=
    allUris_eq_nil (List.forall_mem_map.mpr fun _ _ => rfl)
  have hrepositories : allUris (d.repositories.map ofRepository) = [] := by
    refine allUris_eq_nil (List.forall_mem_map.mpr fun r _ => ?_)
    rw [ofRepository, nodeUris_branch]
    simp [allUris_append, allUris_leafIfFilled, allUris, nodeUris_leaf]
  have hdependencies : allUris (d.dependencies.toList.flatMap ofDependency) = [] := by
    refine allUris_eq_nil fun node hnode => ?_
    obtain ⟨c, -, hnode⟩ := List.mem_flatMap.mp hnode
    rcases List.mem_append.mp hnode with hnode | hnode
    · split at hnode
      · rw [List.mem_singleton.mp hnode]
        rfl
      · cases hnode
    · rw [List.mem_singleton.mp hnode, nodeUris_ofCoordinate]
  rw [partsOf]
  simp only [allUris_append, allUris_branchIfAny, hproperties, hrepositories, hdependencies,
    List.append_nil]
  rfl

/-- The texts that stand in every descriptor as they were given: what the project is called, the
values of its properties and the artifacts that it depends on. -/
def givenTexts (d : ProjectDescriptor) : List Text :=
  d.identity.texts ++ d.properties.map Prod.snd ++ d.dependencies.toList.map Coordinate.artifactId

theorem hasLeaf_of_mem_branchIfAny {n : String} {nodes : List XmlNode} {node : XmlNode} {t : Text}
    (hnode : node ∈ nodes) (h : node.HasLeaf t) :
    ∃ part ∈ branchIfAny n nodes, part.HasLeaf t := by
  have hne : nodes.isEmpty = false := by
    cases nodes with
    | nil => exact absurd hnode List.not_mem_nil
    | cons first more => rfl
  rw [branchIfAny, hne]
  exact ⟨_, List.mem_singleton_self _, .within hnode h⟩

/-- **Texts that were given** stand in leaves. -/
theorem hasLeaf_of_mem_givenTexts {t : Text} (h : t ∈ d.givenTexts) :
    ∃ part ∈ d.partsOf managed plugins, part.HasLeaf t := by
  simp only [givenTexts, List.mem_append, List.mem_map] at h
  simp only [partsOf, List.mem_append]
  rcases h with (h | ⟨entry, hentry, rfl⟩) | ⟨c, hc, rfl⟩
  · simp only [ProjectIdentity.texts, List.mem_cons, List.not_mem_nil, or_false] at h
    -- each of the texts has a leaf of its own
    rcases h with rfl | rfl | rfl | rfl
    · exact ⟨leaf "groupId" _, .inl (.inl (.inl (.inl (by simp [identityNodes])))), .leaf⟩
    · exact ⟨leaf "artifactId" _, .inl (.inl (.inl (.inl (by simp [identityNodes])))), .leaf⟩
    · exact ⟨leaf "version" _, .inl (.inl (.inl (.inl (by simp [identityNodes])))), .leaf⟩
    · exact ⟨leaf "packaging" _, .inl (.inl (.inl (.inl (by simp [identityNodes])))), .leaf⟩
  · obtain ⟨part, hpart, hleaf⟩ := hasLeaf_of_mem_branchIfAny (n := "properties")
      (List.mem_map_of_mem (f := fun entry => XmlNode.leaf (.plain entry.1) entry.2) hentry) .leaf
    exact ⟨part, .inl (.inl (.inl (.inr hpart))), hleaf⟩
  · have hleaf : (leaf "artifactId" c.artifactId).HasLeaf c.artifactId := .leaf
    have hown : (ofCoordinate c).HasLeaf c.artifactId := .within (by simp) hleaf
    have hmem : ofCoordinate c ∈ d.dependencies.toList.flatMap ofDependency :=
      List.mem_flatMap.mpr ⟨c, hc, List.mem_append_right _ (List.mem_singleton_self _)⟩
    obtain ⟨part, hpart, hleaf⟩ := hasLeaf_of_mem_branchIfAny (n := "dependencies") hmem hown
    exact ⟨part, .inl (.inr hpart), hleaf⟩

/-- **The parts of a descriptor can be written** if its texts and the version of its format can stand
in a document, its properties have names, its sources can stand in comments and the elements of its
plugins can be written. -/
theorem presentable_partsOf (hmodel : IsContent d.modelVersion)
    (htexts : ∀ t ∈ d.texts, IsContent t)
    (hnames : ∀ entry ∈ d.properties, isName entry.1 = true)
    (hsources : ∀ c ∈ d.dependencies.toList, '\r' ∉ c.source ∧ ¬"--".toList <:+: c.source)
    (hplugins : ∀ node ∈ managed ++ plugins, node.Presentable) :
    ∀ part ∈ d.partsOf managed plugins, part.Presentable := by
  simp only [texts, List.forall_mem_append, List.forall_mem_map, List.mem_flatMap] at htexts
  obtain ⟨⟨⟨hidentity, hvalues⟩, hrepositories⟩, hdependencies⟩ := htexts
  rw [List.forall_mem_append] at hplugins
  simp only [partsOf, List.forall_mem_append]
  refine ⟨⟨⟨⟨?_, ?_⟩, ?_⟩, ?_⟩, ?_⟩
  · simp only [ProjectIdentity.texts, List.forall_mem_cons] at hidentity
    obtain ⟨hgroup, hartifact, hversion, hpackaging, -⟩ := hidentity
    simp only [identityNodes, List.forall_mem_cons]
    exact ⟨presentable_leaf (by decide) hmodel, presentable_leaf (by decide) hgroup,
      presentable_leaf (by decide) hartifact, presentable_leaf (by decide) hversion,
      presentable_leaf (by decide) hpackaging, by simp⟩
  · refine presentable_of_mem_branchIfAny (by decide) (List.forall_mem_map.mpr fun entry he => ?_)
    exact presentable_xmlLeaf (.plain (hnames entry he)) (hvalues entry he)
  · refine presentable_of_mem_branchIfAny (by decide) (List.forall_mem_map.mpr fun r hr => ?_)
    exact presentable_ofRepository fun t ht => hrepositories t ⟨r, hr, ht⟩
  · refine presentable_of_mem_branchIfAny (by decide) fun node hnode => ?_
    obtain ⟨c, hc, hnode⟩ := List.mem_flatMap.mp hnode
    exact presentable_ofDependency (fun t ht => hdependencies t ⟨c, hc, ht⟩) (hsources c hc).1
      (hsources c hc).2 node hnode
  · refine presentable_of_mem_branchIfAny (by decide) (List.forall_mem_append.mpr ⟨?_, ?_⟩)
    · refine presentable_of_mem_branchIfAny (by decide) ?_
      exact presentable_of_mem_branchIfAny (by decide) hplugins.1
    · exact presentable_of_mem_branchIfAny (by decide) hplugins.2

end

end ProjectDescriptor

/-! ### Plugins -/

/-- The texts of a plugin that is not taken over. -/
def Plugin.texts (p : Plugin) : List Text :=
  [p.groupId, p.artifactId] ++ p.version.toList ++ p.configuration.map Prod.snd

/-- **A plugin whose element can stand in a descriptor**: it can be written, and it does not name the
namespace of schemas, which has a prefix there. -/
def Plugin.IsWritable (p : Plugin) : Prop :=
  ∃ node, PomNode.elementOf p = .ok node ∧ node.Presentable ∧
    ProjectDescriptor.schemaInstanceUri ∉ Xml.nodeUris node

/-- Its element is the one that can stand there: a plugin has only one. -/
theorem Plugin.IsWritable.of_elementOf {p : Plugin} {node : XmlNode} (h : p.IsWritable)
    (hnode : PomNode.elementOf p = .ok node) :
    node.Presentable ∧ ProjectDescriptor.schemaInstanceUri ∉ Xml.nodeUris node := by
  obtain ⟨node', hnode', hpresentable, huris⟩ := h
  rw [hnode] at hnode'
  cases hnode'
  exact ⟨hpresentable, huris⟩

open PomNode Xml in
/-- A plugin that is not taken over can be written if its texts can stand in a document and its
settings have names. -/
theorem Plugin.isWritable_of_raw_none {p : Plugin} (hraw : p.raw = none)
    (htexts : ∀ t ∈ p.texts, IsContent t)
    (hnames : ∀ entry ∈ p.configuration, isName entry.1 = true) : p.IsWritable := by
  simp only [texts, List.forall_mem_append, List.forall_mem_cons, List.forall_mem_map,
    Option.mem_toList] at htexts
  obtain ⟨⟨⟨hgroup, hartifact, -⟩, hversion⟩, hvalues⟩ := htexts
  refine ⟨branch "plugin" ([leaf "groupId" p.groupId, leaf "artifactId" p.artifactId] ++
    leafIfFilled "version" p.version ++ branchIfAny "configuration"
      (p.configuration.map fun entry => .leaf (.plain entry.1) entry.2)), ?_, ?_, ?_⟩
  · rw [elementOf, takenOver, hraw]
    simp only [bind, Except.bind, ofPlugin, entries_eq_ok hnames]
    rfl
  · refine presentable_branch (by decide) ?_
    simp only [List.forall_mem_append, List.forall_mem_cons]
    refine ⟨⟨⟨presentable_leaf (by decide) hgroup, presentable_leaf (by decide) hartifact,
      by simp⟩, presentable_of_mem_leafIfFilled (by decide) hversion⟩, ?_⟩
    refine presentable_of_mem_branchIfAny (by decide) (List.forall_mem_map.mpr fun entry he => ?_)
    exact presentable_xmlLeaf (.plain (hnames entry he)) (hvalues entry he)
  · have hconfiguration : allUris (p.configuration.map fun entry =>
        XmlNode.leaf (.plain entry.1) entry.2) = [] :=
      ProjectDescriptor.allUris_eq_nil (List.forall_mem_map.mpr fun _ _ => rfl)
    rw [ProjectDescriptor.nodeUris_branch]
    simp [ProjectDescriptor.allUris_append, ProjectDescriptor.allUris_leafIfFilled,
      ProjectDescriptor.allUris_branchIfAny, hconfiguration, allUris,
      ProjectDescriptor.nodeUris_leaf]

namespace ProjectDescriptor

open PomNode Xml

/-- **What is read of a descriptor** with some parts: a root in the namespace of descriptors. -/
theorem read_partsOf {d : ProjectDescriptor} {managed plugins : List XmlNode}
    (hparts : ∀ part ∈ d.partsOf managed plugins, part.Presentable)
    (hxsi : schemaInstanceUri ∉ allUris (managed ++ plugins)) :
    ∃ found, readCharacters? (textOf (d.partsOf managed plugins)) = some found ∧
      PomElement.IsRead (bareRoot (d.partsOf managed plugins)) (.ofRoot found) ∧
      (PomElement.ofRoot found).node = found := by
  rw [← allUris_partsOf d] at hxsi
  obtain ⟨found, hfound, hread⟩ := read_textOf (by simp [partsOf, identityNodes]) hparts hxsi
  have hname := PomElement.name?_of_readAs hread
  refine ⟨found, hfound, ⟨?_, hread⟩, rfl⟩
  rw [PomElement.ofRoot, hname]
  rfl

end ProjectDescriptor

end Unjar
