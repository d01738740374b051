import Unjar.Proofs.Pom.Parts
import Unjar.Proofs.Xml.Moving

/-!
Descriptors and the namespace that they declare.

A packaged descriptor may leave out the namespace of descriptors, declare it for elements without a
prefix, or declare a prefix for it and give that to every element.  Each part of a descriptor is
looked for under a name in the namespace of the root, names of properties are local names, and
plugins are kept without namespaces; so a descriptor that is moved into the namespace tells what it
told before, and so do the documents that declare it in one way or another.

Main definitions:

* `Unjar.PomElement.inside`, `Unjar.PomElement.IsPlain` — an element moved into the namespace;
* `Unjar.EmbeddedDescriptor.Declaring` — **how a descriptor declares its namespace**.

Main results:

* `Unjar.PomElement.IsPlain.dependencies_inside` and its like — what the parts of a descriptor tell;
* `Unjar.EmbeddedDescriptor.ofRoot_inside` — what a root tells;
* `Unjar.EmbeddedDescriptor.read_of_declaring` — **what the documents tell**.
-/

set_option autoImplicit false

namespace Unjar

namespace PomElement

/-- An element of a descriptor, moved into a namespace. -/
def inside (outer : Option Text) (e : PomElement) : PomElement := ⟨e.node.inside outer, outer⟩

/-- **An element of a descriptor in no namespace**, with all that it holds. -/
structure IsPlain (e : PomElement) : Prop where
  uri : e.uri = none
  node : e.node.IsPlain

section

variable {outer : Option Text} {e part : PomElement} {localName : String}

/-! ### Parts -/

theorem IsPlain.name (h : e.IsPlain) (localName : String) :
    e.name localName = .plain localName.toList := by
  rw [PomElement.name, h.uri]
  rfl

theorem name_inside (localName : String) :
    (e.inside outer).name localName = ⟨outer, localName.toList⟩ := rfl

theorem IsPlain.parts_inside (h : e.IsPlain) (localName : String) :
    (e.inside outer).parts localName = (e.parts localName).map (PomElement.inside outer) := by
  rw [parts, name_inside, inside, h.node.childrenNamed_inside, parts, h.name, List.map_map,
    List.map_map]
  rfl

theorem IsPlain.part?_inside (h : e.IsPlain) (localName : String) :
    (e.inside outer).part? localName = (e.part? localName).map (PomElement.inside outer) := by
  rw [part?, name_inside, inside, h.node.child?_inside, part?, h.name, Option.map_map,
    Option.map_map]
  rfl

theorem IsPlain.partsAlong_inside (h : e.IsPlain) (localNames : List String) :
    (e.inside outer).partsAlong localNames =
      (e.partsAlong localNames).map (PomElement.inside outer) := by
  have hmoved : localNames.map (e.inside outer).name =
      (localNames.map String.toList).map fun t => ⟨outer, t⟩ := by
    rw [List.map_map]
    rfl
  have hplain : localNames.map e.name = (localNames.map String.toList).map .plain := by
    rw [List.map_map]
    exact List.map_congr_left fun localName _ => h.name localName
  rw [partsAlong, hmoved, inside, h.node.along_inside, partsAlong, hplain]
  simp only [List.map_map]
  rfl

theorem IsPlain.of_mem_parts (h : e.IsPlain) (hpart : part ∈ e.parts localName) :
    part.IsPlain := by
  obtain ⟨child, hchild, rfl⟩ := List.mem_map.mp hpart
  exact ⟨h.uri, h.node.children child (XmlNode.mem_of_mem_childrenNamed hchild)⟩

theorem IsPlain.of_part? (h : e.IsPlain) (hpart : e.part? localName = some part) :
    part.IsPlain := by
  obtain ⟨child, hchild, rfl⟩ := Option.map_eq_some_iff.mp hpart
  exact ⟨h.uri, h.node.children child (List.mem_of_find?_eq_some hchild)⟩

theorem IsPlain.of_mem_partsAlong {localNames : List String} (h : e.IsPlain)
    (hpart : part ∈ e.partsAlong localNames) : part.IsPlain := by
  obtain ⟨found, hfound, rfl⟩ := List.mem_map.mp hpart
  exact ⟨h.uri, h.node.of_mem_along hfound⟩

/-! ### Values -/

@[simp] theorem text?_inside : (e.inside outer).text? = e.text? := by
  rw [text?, inside, XmlNode.text_inside]
  rfl

theorem IsPlain.value?_inside (h : e.IsPlain) (localName : String) :
    (e.inside outer).value? localName = e.value? localName := by
  rw [value?, value?, h.part?_inside, Option.bind_map]
  exact congrArg _ (funext fun _ => text?_inside)

theorem IsPlain.filled?_inside (h : e.IsPlain) (localName : String) :
    (e.inside outer).filled? localName = e.filled? localName := by
  rw [filled?, filled?, h.value?_inside]

theorem IsPlain.inherited?_inside (h : e.IsPlain) (localName : String) :
    (e.inside outer).inherited? localName = e.inherited? localName := by
  rw [inherited?, inherited?, h.filled?_inside, h.part?_inside, Option.bind_map]
  cases hparent : e.part? "parent" with
  | none => rfl
  | some parent => exact congrArg _ ((h.of_part? hparent).value?_inside localName)

/-! ### Lists of parts -/

/-- What parts tell one by one they tell once they were moved. -/
theorem filterMap_inside {α : Type} {f : PomElement → Option α} {parts : List PomElement}
    (hparts : ∀ part ∈ parts, part.IsPlain)
    (hf : ∀ part : PomElement, part.IsPlain → f (part.inside outer) = f part) :
    (parts.map (PomElement.inside outer)).filterMap f = parts.filterMap f := by
  rw [List.filterMap_map]
  exact List.filterMap_congr fun part hpart => hf part (hparts part hpart)

theorem property?_inside (node : XmlNode) : property? (node.inside outer) = property? node := by
  cases node <;> rfl

theorem IsPlain.properties_inside (h : e.IsPlain) :
    (e.inside outer).properties = e.properties := by
  rw [properties, properties, h.part?_inside]
  cases e.part? "properties" with
  | none => rfl
  | some list =>
      change OrderedMap.ofList ((list.node.inside outer).children.filterMap property?) = _
      rw [XmlNode.children_inside, List.filterMap_map]
      exact congrArg _ (List.filterMap_congr fun node _ => property?_inside node)

theorem IsPlain.exclusion?_inside (h : e.IsPlain) :
    (e.inside outer).exclusion? = e.exclusion? := by
  rw [exclusion?, exclusion?, h.filled?_inside, h.filled?_inside]

theorem IsPlain.dependency?_inside (h : e.IsPlain) (known : Properties) :
    dependency? known (e.inside outer) = dependency? known e := by
  have hexclusions : ((e.inside outer).partsAlong ["exclusions", "exclusion"]).filterMap
      exclusion? = (e.partsAlong ["exclusions", "exclusion"]).filterMap exclusion? := by
    rw [h.partsAlong_inside]
    exact filterMap_inside (fun _ hpart => h.of_mem_partsAlong hpart)
      fun _ hpart => hpart.exclusion?_inside
  simp only [dependency?, hexclusions, h.filled?_inside, h.value?_inside]

/-- A list among the parts of an element, read item by item. -/
theorem IsPlain.list_inside {α : Type} (h : e.IsPlain) {f : PomElement → Option α}
    (hf : ∀ part : PomElement, part.IsPlain → f (part.inside outer) = f part)
    (listName itemName : String) :
    (match (e.inside outer).part? listName with
      | none => []
      | some list => (list.parts itemName).filterMap f) =
      match e.part? listName with
      | none => []
      | some list => (list.parts itemName).filterMap f := by
  rw [h.part?_inside]
  cases hlist : e.part? listName with
  | none => rfl
  | some list =>
      have hplain := h.of_part? hlist
      rw [Option.map_some]
      dsimp only
      rw [hplain.parts_inside]
      exact filterMap_inside (fun _ hpart => hplain.of_mem_parts hpart) hf

theorem IsPlain.dependencies_inside (h : e.IsPlain) (known : Properties) :
    (e.inside outer).dependencies known = e.dependencies known :=
  h.list_inside (fun _ hpart => hpart.dependency?_inside known) "dependencies" "dependency"

theorem IsPlain.repository?_inside (h : e.IsPlain) :
    (e.inside outer).repository? = e.repository? := by
  simp only [repository?, h.filled?_inside, h.value?_inside]

theorem IsPlain.repositories_inside (h : e.IsPlain) :
    (e.inside outer).repositories = e.repositories :=
  h.list_inside (fun _ hpart => hpart.repository?_inside) "repositories" "repository"

/-- A plugin is kept without namespaces, so that its element is the same. -/
theorem IsPlain.plugin?_inside (h : e.IsPlain) : (e.inside outer).plugin? = e.plugin? := by
  have hraw : (e.inside outer).node.withoutNamespaces = e.node.withoutNamespaces :=
    XmlNode.withoutNamespaces_inside
  simp only [plugin?, hraw, h.filled?_inside, h.value?_inside]

theorem IsPlain.managedPlugins_inside (h : e.IsPlain) :
    (e.inside outer).managedPlugins = e.managedPlugins := by
  rw [managedPlugins, managedPlugins, h.partsAlong_inside]
  exact filterMap_inside (fun _ hpart => h.of_mem_partsAlong hpart)
    fun _ hpart => hpart.plugin?_inside

/-! ### Roots -/

theorem isPlain_ofRoot {root : XmlNode} (h : root.IsPlain) : (ofRoot root).IsPlain := by
  refine ⟨?_, h⟩
  have huri : root.name?.bind XmlName.uri = none := by
    cases root with
    | comment => rfl
    | element => exact (XmlNode.isPlain_element.mp h).1
  rw [ofRoot, huri]
  rfl

theorem ofRoot_inside {root : XmlNode} (h : root.IsPlain) (hroot : root.name? ≠ none) :
    ofRoot (root.inside (some pomUri)) = (ofRoot root).inside (some pomUri) := by
  have huri : (root.inside (some pomUri)).name?.bind XmlName.uri = some pomUri := by
    cases root with
    | comment => exact absurd rfl hroot
    | element name =>
        change name.uri.or (some pomUri) = some pomUri
        rw [(XmlNode.isPlain_element.mp h).1]
        rfl
  rw [ofRoot, huri]
  rfl

end

end PomElement

namespace EmbeddedDescriptor

open Xml

section

variable {root : XmlNode}

/-- **A root tells the same** once it was moved into the namespace of descriptors. -/
theorem ofRoot_inside (h : root.IsPlain) (hroot : root.name? ≠ none) (sourcePath : Text) :
    ofRoot sourcePath (root.inside (some pomUri)) = ofRoot sourcePath root := by
  have he := PomElement.isPlain_ofRoot h
  simp only [ofRoot, PomElement.ofRoot_inside h hroot, he.inherited?_inside, he.value?_inside,
    he.properties_inside, he.dependencies_inside, he.repositories_inside,
    he.managedPlugins_inside]

/-! ### Documents -/

/-- **How a descriptor declares its namespace**: not at all, for elements without a prefix, or for a
prefix that every element has. -/
inductive Declaring where
  | absent
  | unprefixed
  | prefixed (label : Text)

namespace Declaring

/-- The document of a descriptor that is given in no namespace. -/
def text (root : XmlNode) : Declaring → Text
  | absent => root.toText
  | unprefixed => writeNode [] (writeAll [("xmlns".toList, pomUri)]) root
  | prefixed label =>
    writeNode [(pomUri, label)] (writeAll [("xmlns:".toList ++ label, pomUri)])
      (root.inside (some pomUri))

/-- A prefix is a name other than the two that XML keeps to itself. -/
def IsAllowed : Declaring → Prop
  | absent | unprefixed => True
  | prefixed label =>
    isName label = true ∧ label ≠ "xml".toList ∧ label ≠ "xmlns".toList

instance : (way : Declaring) → Decidable way.IsAllowed
  | absent | unprefixed => inferInstanceAs (Decidable True)
  | prefixed _ => inferInstanceAs (Decidable (_ ∧ _ ∧ _))

end Declaring

theorem isNamespace_pomUri : IsNamespace pomUri := ⟨by decide, by decide, by decide, by decide⟩

/-- The table of one prefix for the namespace of descriptors. -/
theorem isSound_prefixed {label : Text} (h : (Declaring.prefixed label).IsAllowed) :
    Prefixes.IsSound [(pomUri, label)] := by
  obtain ⟨hname, hxml, hxmlns⟩ := h
  refine ⟨List.nodup_singleton _, List.nodup_singleton _, fun uri label' hentry => ?_,
    fun hentry => ?_⟩
  · cases List.mem_singleton.mp hentry
    exact ⟨isNamespace_pomUri, by decide⟩
  · cases List.mem_singleton.mp hentry
    exact ⟨hname, hxml, hxmlns⟩

/-- A tree in no namespace needs no prefix. -/
theorem spelt_of_isPlain (h : root.Presentable) (hplain : root.IsPlain) : Spelt [] root :=
  spelt_of_names h fun _ huri => absurd (hplain ▸ huri) List.not_mem_nil

/-- The tree that the document is read as, whose texts have the line ends of documents. -/
def Declaring.found (root : XmlNode) : Declaring → XmlNode
  | absent => readBack none root.unified
  | unprefixed | prefixed _ => (readBack none root.unified).inside (some pomUri)

/-- **A document is written of a tree** with declarations in the tag of its root. -/
theorem exists_text_eq (h : root.Presentable) (hplain : root.IsPlain) {way : Declaring}
    (hway : way.IsAllowed) :
    ∃ (table : Prefixes) (outer : Option Text) (declared : WrittenAttributes) (node : XmlNode),
      way.text root = writeNode table (writeAll declared) node ∧ table.IsSound ∧
        Declares table outer declared ∧ Spelt table node ∧ (node.name? = none ↔ root.name? = none) ∧
        readBack outer node.unified = way.found root := by
  have hnil : Prefixes.IsSound [] := Prefixes.isNumbered_nil.toIsSound
  have hspelt := spelt_of_isPlain h hplain
  have hnone : Prefixes.declared [] = [] := by
    rw [Prefixes.declared, Prefixes.sorted, List.mergeSort_nil]
    rfl
  cases way with
  | absent =>
      have htable : Prefixes.ofNode root = [] := by
        rw [Prefixes.ofNode, show nodeUris root = [] from hplain]
        rfl
      refine ⟨[], none, Prefixes.declared [], root, ?_, hnil, hnil.declares, hspelt, .rfl, rfl⟩
      rw [Declaring.text, XmlNode.toText, Prefixes.declarations_eq, htable]
  | unprefixed =>
      refine ⟨[], some pomUri, _, root, rfl, hnil, ?_, hspelt, .rfl, inside_readBack⟩
      have hconcat := Declares.concat hnil isNamespace_pomUri (by decide)
      rwa [hnone] at hconcat
  | prefixed label =>
      have htable := isSound_prefixed hway
      have hone : Prefixes.declared [(pomUri, label)] = [("xmlns:".toList ++ label, pomUri)] := by
        rw [Prefixes.declared, Prefixes.sorted, List.mergeSort_singleton]
        rfl
      refine ⟨[(pomUri, label)], none, _, root.inside (some pomUri), rfl, htable, ?_, ?_, ?_, ?_⟩
      · have hdeclares := htable.declares
        rwa [hone] at hdeclares
      · refine spelt_of_names (h.inside isNamespace_pomUri) fun uri huri => ?_
        cases hplain.of_mem_nodeUris_inside huri
        exact .inr List.mem_cons_self
      · simp
      · rw [XmlNode.unified_inside, readBack_inside, inside_readBack]
        rfl

/-- What is read of a document tells the same however the namespace is declared. -/
theorem ofRoot_found (hplain : root.IsPlain) (hroot : root.name? ≠ none) (way : Declaring)
    (sourcePath : Text) :
    ofRoot sourcePath (way.found root) = ofRoot sourcePath (readBack none root.unified) := by
  have hname : (readBack none root.unified).name? ≠ none := by
    cases root with
    | comment => exact absurd rfl hroot
    | element => exact Option.some_ne_none _
  have hmoved := ofRoot_inside (isPlain_readBack hplain.unified) hname sourcePath
  cases way with
  | absent => rfl
  | unprefixed | prefixed => exact hmoved

/-- **Reading does not depend on how the namespace is declared**: the documents of a tree in no
namespace tell what the tree tells once it has the line ends of documents and no comments, from
their texts as from their bytes. -/
theorem read_of_declaring (h : root.Presentable) (hplain : root.IsPlain) (hroot : root.name? ≠ none)
    (sourcePath : Text) {way : Declaring} (hway : way.IsAllowed) :
    ofText? sourcePath (way.text root) =
        some (ofRoot sourcePath (readBack none root.unified)) ∧
      ofBytes? sourcePath (Utf8.encode (way.text root)) =
        .ok (some (ofRoot sourcePath (readBack none root.unified))) := by
  obtain ⟨table, outer, declared, node, htext, htable, hdeclared, hspelt, hname, hfound⟩ :=
    exists_text_eq h hplain hway
  have hnode : node.name? ≠ none := fun hnone => hroot (hname.mp hnone)
  have htold := ofRoot_found hplain hroot way sourcePath
  rw [htext, ofText?, ofBytes?, readText?_writeNode htable hdeclared hspelt hnode,
    readBytes?_writeNode htable hdeclared hspelt hnode, hfound, ← htold]
  exact ⟨rfl, rfl⟩

end

/-- A descriptor with a property, a dependency in whose version it stands, and a managed plugin. -/
def sample : XmlNode :=
  PomNode.branch "project" [
    PomNode.leaf "artifactId" "app".toList,
    PomNode.branch "properties" [PomNode.leaf "v" " 1 ".toList],
    PomNode.branch "dependencies" [PomNode.branch "dependency" [
      PomNode.leaf "artifactId" "lib".toList, PomNode.leaf "version" "$\x7bv\x7d".toList]],
    PomNode.branch "build" [PomNode.branch "pluginManagement" [PomNode.branch "plugins" [
      PomNode.branch "plugin" [PomNode.leaf "artifactId" "compiler".toList]]]]]

open PomNode in
theorem presentable_sample : sample.Presentable := by
  -- one leaf or branch after the other, down to the ends of the lists
  repeat' first
    | exact presentable_leaf (by decide) (by decide)
    | refine presentable_branch (by decide) ?_
    | refine List.forall_mem_cons.mpr ⟨?_, ?_⟩
    | exact fun _ hnode => absurd hnode List.not_mem_nil

theorem read_of_declaring_sample :
    ∃ embedded, embedded.dependencies.map Coordinate.version = [some "1".toList] ∧
      embedded.managedPlugins.length = 1 ∧
      ofText? [] (Declaring.absent.text sample) = some embedded ∧
      ofText? [] (Declaring.unprefixed.text sample) = some embedded ∧
      ofText? [] ((Declaring.prefixed "mvn".toList).text sample) = some embedded := by
  have hplain : sample.IsPlain := by decide
  have hroot : sample.name? ≠ none := Option.some_ne_none _
  refine ⟨_, ?_, ?_, (read_of_declaring presentable_sample hplain hroot [] ?_).1,
    (read_of_declaring presentable_sample hplain hroot [] ?_).1,
    (read_of_declaring presentable_sample hplain hroot [] ?_).1⟩
  · decide +kernel
  · decide +kernel
  · trivial
  · trivial
  · decide

end EmbeddedDescriptor

end Unjar
