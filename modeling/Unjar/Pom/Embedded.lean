import Unjar.Pom.Placeholder
import Unjar.Project
import Unjar.Xml.Document

/-!
Reading packaged descriptors.

An archive may hold the descriptor that it was built from.  Its elements are in the namespace of
the descriptor format or in none, as its root is.  Items without the parts that make them usable
are passed over, and placeholders in the names and versions of dependencies are replaced.

Main definitions:

* `Unjar.PomElement` — an element and the namespace in which its parts are looked for;
* `Unjar.EmbeddedDescriptor.ofRoot` — what the root of a descriptor tells;
* `Unjar.EmbeddedDescriptor.ofText?`, `Unjar.EmbeddedDescriptor.ofBytes?` — what a document tells.
-/

set_option autoImplicit false

namespace Unjar

/-- **An element** and the namespace of the descriptor that it belongs to. -/
structure PomElement where
  node : XmlNode
  /-- The namespace, if there is one. -/
  uri : Option Text

namespace PomElement

/-- The root of a descriptor, which is in its namespace or in none. -/
def ofRoot (root : XmlNode) : PomElement :=
  let uri := root.name?.bind XmlName.uri
  ⟨root, if uri = some pomUri then uri else none⟩

/-- A name in the namespace of the descriptor. -/
def name (e : PomElement) (localName : String) : XmlName := ⟨e.uri, localName.toList⟩

/-- The first part of a name. -/
def part? (e : PomElement) (localName : String) : Option PomElement :=
  (e.node.child? (e.name localName)).map fun node => ⟨node, e.uri⟩

def parts (e : PomElement) (localName : String) : List PomElement :=
  (e.node.childrenNamed (e.name localName)).map fun node => ⟨node, e.uri⟩

/-- The parts at the end of all ways of the given names. -/
def partsAlong (e : PomElement) (localNames : List String) : List PomElement :=
  (e.node.along (localNames.map e.name)).map fun node => ⟨node, e.uri⟩

/-- The text of an element without the blanks at its ends; an element without text has none. -/
def text? (e : PomElement) : Option Text :=
  if e.node.text.isEmpty then none else some (Text.strip e.node.text)

/-- The text of the first part of a name. -/
def value? (e : PomElement) (localName : String) : Option Text :=
  (e.part? localName).bind text?

/-- The text of the first part of a name, if it is not empty. -/
def filled? (e : PomElement) (localName : String) : Option Text :=
  (e.value? localName).filter fun t => !t.isEmpty

/-! ### Parts of a descriptor -/

/-- A value of the project, or else of its parent. -/
def inherited? (e : PomElement) (localName : String) : Option Text :=
  (e.filled? localName).or ((e.part? "parent").bind fun parent => parent.value? localName)

/-- The property that a part of the list of properties defines. -/
def property? (node : XmlNode) : Option (Text × Text) :=
  match node.name? with
  | none => none
  | some name =>
    if node.text.isEmpty then none else some (name.localName, Text.strip node.text)

def properties (e : PomElement) : Properties :=
  match e.part? "properties" with
  | none => []
  | some list => .ofList (list.node.children.filterMap property?)

/-- What a dependency must not bring along. -/
def exclusion? (e : PomElement) : Option (Text × Text) := do
  let groupId ← e.filled? "groupId"
  let artifactId ← e.filled? "artifactId"
  pure (groupId, artifactId)

/-- Where dependencies of a descriptor are found. -/
def dependencySource : Text := "embedded-pom".toList

/-- A dependency, its placeholders being replaced; without an artifact there is none. -/
def dependency? (known : Properties) (e : PomElement) : Option Coordinate := do
  let artifactId ← e.filled? "artifactId"
  let groupId := ((e.value? "groupId").map known.substitute).filter fun t => !t.isEmpty
  pure {
    groupId := groupId.getD Coordinate.unknown
    artifactId := known.substitute artifactId
    version := (e.value? "version").map known.substitute
    scope := some ((e.filled? "scope").getD Coordinate.compileScope)
    source := dependencySource
    type := e.value? "type"
    classifier := e.value? "classifier"
    isOptional := e.value? "optional" == some "true".toList
    exclusions := (e.partsAlong ["exclusions", "exclusion"]).filterMap exclusion? }

/-- The dependencies of the project itself. -/
def dependencies (e : PomElement) (known : Properties) : List Coordinate :=
  match e.part? "dependencies" with
  | none => []
  | some list => (list.parts "dependency").filterMap (dependency? known)

/-- A repository, which has an identifier and an address. -/
def repository? (e : PomElement) : Option Repository := do
  let id ← e.filled? "id"
  let url ← e.filled? "url"
  pure ⟨id, url, e.value? "name"⟩

def repositories (e : PomElement) : List Repository :=
  match e.part? "repositories" with
  | none => []
  | some list => (list.parts "repository").filterMap repository?

/-- A plugin together with its element, the element being written without namespaces. -/
def plugin? (e : PomElement) : Option Plugin := do
  let artifactId ← e.filled? "artifactId"
  pure {
    groupId := (e.filled? "groupId").getD Plugin.defaultGroup
    artifactId
    version := e.value? "version"
    configuration := []
    raw := some e.node.withoutNamespaces.toText }

/-- The plugins whose versions are managed. -/
def managedPlugins (e : PomElement) : List Plugin :=
  (e.partsAlong ["build", "pluginManagement", "plugins", "plugin"]).filterMap plugin?

end PomElement

namespace EmbeddedDescriptor

/-- A property that is defined unless it is defined already or its value is empty. -/
def addDefault (properties : Properties) (name : String) (value : Option Text) : Properties :=
  match value with
  | none | some [] => properties
  | some value => properties.putNew name.toList value

/-- The properties that placeholders may name: those of the descriptor and its own identity. -/
def knownProperties (properties : Properties) (groupId artifactId version : Option Text) :
    Properties :=
  let known := addDefault properties "project.groupId" groupId
  let known := addDefault known "project.version" version
  addDefault known "project.artifactId" artifactId

/-- **What the root of a descriptor tells.** -/
def ofRoot (sourcePath : Text) (root : XmlNode) : EmbeddedDescriptor :=
  let e := PomElement.ofRoot root
  let groupId := e.inherited? "groupId"
  let artifactId := e.value? "artifactId"
  let version := e.inherited? "version"
  let properties := e.properties
  { sourcePath
    groupId
    artifactId
    version
    dependencies := e.dependencies (knownProperties properties groupId artifactId version)
    properties
    repositories := e.repositories
    managedPlugins := e.managedPlugins }

/-- **What a text tells**, if it is a document. -/
def ofText? (sourcePath t : Text) : Option EmbeddedDescriptor :=
  (Xml.readText? t).map (ofRoot sourcePath)

/-- **What bytes tell**, if they are a document. -/
def ofBytes? (sourcePath : Text) (bytes : Bytes) :
    Except Xml.EncodingFault (Option EmbeddedDescriptor) :=
  (Xml.readBytes? bytes).map fun root? => root?.map (ofRoot sourcePath)

theorem ofBytes?_eq_ok_some {sourcePath : Text} {bytes : Bytes} {d : EmbeddedDescriptor} :
    ofBytes? sourcePath bytes = .ok (some d) ↔
      ∃ root, Xml.readBytes? bytes = .ok (some root) ∧ ofRoot sourcePath root = d := by
  unfold ofBytes?
  rcases Xml.readBytes? bytes with fault | root?
  · simp [Except.map]
  · simp [Except.map]

end EmbeddedDescriptor

end Unjar
