import Unjar.Project
import Unjar.Xml.Fault

/-!
Rendering descriptors.

A descriptor becomes a tree, which is laid out in lines and written behind a declaration.  Plugins
that were taken over from a packaged descriptor are read back from their text.

Main definitions:

* `Unjar.RenderFault` — what can be wrong with a descriptor;
* `Unjar.ProjectDescriptor.toXml` — the tree of a descriptor;
* `Unjar.ProjectDescriptor.render` — its text.
-/

set_option autoImplicit false

namespace Unjar

/-- What can be wrong with a descriptor. -/
inductive RenderFault where
  /-- The text of a plugin is no element. -/
  | malformedPlugin (fault : Xml.Fault)
  /-- A name opens a namespace and does not close it. -/
  | malformedName
deriving DecidableEq, Repr

/-- A fault in words. -/
def RenderFault.message : RenderFault → Text
  | malformedPlugin fault => fault.message
  | malformedName => "not enough values to unpack (expected 2, got 1)".toList

namespace PomNode

/-! ### Elements -/

/-- A name in no namespace. -/
def name (localName : String) : XmlName := .plain localName.toList

/-- An element that holds a text. -/
def leaf (localName : String) (text : Text) : XmlNode := .leaf (name localName) text

/-- An element that holds others. -/
def branch (localName : String) (children : List XmlNode) : XmlNode :=
  .branch (name localName) children

/-- An element that holds others, unless there are none. -/
def branchIfAny (localName : String) (children : List XmlNode) : List XmlNode :=
  if children.isEmpty then [] else [branch localName children]

/-- An element that holds a text, unless that is missing or empty. -/
def leafIfFilled (localName : String) : Option Text → List XmlNode
  | none | some [] => []
  | some text => [leaf localName text]

/-- Elements for the entries of a map, named by their keys. -/
def entries (m : OrderedMap Text Text) : Except RenderFault (List XmlNode) :=
  m.mapM fun (key, value) =>
    match XmlName.ofText? key with
    | some name => .ok (.leaf name value)
    | none => .error .malformedName

/-! ### Parts of a descriptor -/

def ofRepository (r : Repository) : XmlNode :=
  branch "repository" ([leaf "id" r.id] ++ leafIfFilled "name" r.name ++ [leaf "url" r.url])

/-- What a dependency must not bring along. -/
def ofExclusion (e : Text × Text) : XmlNode :=
  branch "exclusion" [leaf "groupId" e.1, leaf "artifactId" e.2]

/-- A dependency; the usual scope is not written. -/
def ofCoordinate (c : Coordinate) : XmlNode :=
  branch "dependency" <|
    [leaf "groupId" c.groupId, leaf "artifactId" c.artifactId] ++
      leafIfFilled "version" c.version ++ leafIfFilled "type" c.type ++
      leafIfFilled "classifier" c.classifier ++
      (if c.scope == some Coordinate.compileScope then [] else leafIfFilled "scope" c.scope) ++
      branchIfAny "exclusions" (c.exclusions.map ofExclusion) ++
      (if c.isOptional then [leaf "optional" "true".toList] else [])

/-- The remark in front of a dependency that could not be inferred in full. -/
def reviewRemark (c : Coordinate) : XmlNode :=
  .comment (" inferred from ".toList ++ c.source ++ ": refine groupId/version ".toList) []

/-- A dependency, with a remark in front of it if it needs review. -/
def ofDependency (c : Coordinate) : List XmlNode :=
  (if c.needsReview then [reviewRemark c] else []) ++ [ofCoordinate c]

/-- The element of a plugin that was taken over. -/
def takenOver (p : Plugin) : Except RenderFault (Plugin × Option XmlNode) :=
  match p.raw with
  | none => .ok (p, none)
  | some t =>
    match Xml.readText? t with
    | some node => .ok (p, some node)
    | none => .error (.malformedPlugin (Xml.faultOf t))

/-- The element of a plugin. -/
def ofPlugin (p : Plugin × Option XmlNode) : Except RenderFault XmlNode :=
  match p with
  | (_, some node) => .ok node
  | (p, none) => do
    let configuration ← entries p.configuration
    pure <| branch "plugin" <|
      [leaf "groupId" p.groupId, leaf "artifactId" p.artifactId] ++
        leafIfFilled "version" p.version ++ branchIfAny "configuration" configuration

end PomNode

namespace ProjectDescriptor

open PomNode

/-- The namespace of the attributes that say where a schema is found. -/
def schemaInstanceUri : Text := "http://www.w3.org/2001/XMLSchema-instance".toList

def rootAttributes : XmlAttributes :=
  [(name "xmlns", pomUri), (name "xmlns:xsi", schemaInstanceUri),
    (name "xsi:schemaLocation",
      pomUri ++ " https://maven.apache.org/xsd/maven-4.0.0.xsd".toList)]

/-- The version of the format, and what the project is called. -/
def identityNodes (modelVersion : Text) (i : ProjectIdentity) : List XmlNode :=
  [leaf "modelVersion" modelVersion, leaf "groupId" i.groupId, leaf "artifactId" i.artifactId,
    leaf "version" i.version, leaf "packaging" i.packaging]

/-- **The tree of a descriptor.**  A plugin that is no element is a fault before any name is. -/
def toXml (d : ProjectDescriptor) : Except RenderFault XmlNode := do
  let managed ← d.managedPlugins.mapM takenOver
  let plugins ← d.plugins.mapM takenOver
  let properties ← entries d.properties
  let managed ← managed.mapM ofPlugin
  let plugins ← plugins.mapM ofPlugin
  let management := branchIfAny "pluginManagement" (branchIfAny "plugins" managed)
  let children :=
    identityNodes d.modelVersion d.identity ++ branchIfAny "properties" properties ++
      branchIfAny "repositories" (d.repositories.map ofRepository) ++
      branchIfAny "dependencies" (d.dependencies.toList.flatMap ofDependency) ++
      branchIfAny "build" (management ++ branchIfAny "plugins" plugins)
  pure (.element (name "project") rootAttributes [] children [])

/-- What is written in front of the tree. -/
def heading : Text := "<?xml version=\"1.0\" encoding=\"UTF-8\"?>\n".toList

/-- **The text of a descriptor.** -/
def render (d : ProjectDescriptor) : Except RenderFault Text :=
  d.toXml.map fun root => heading ++ root.indented.toText ++ ['\n']

end ProjectDescriptor

end Unjar
