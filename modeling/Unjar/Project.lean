import Unjar.Coordinate

/-!
Project descriptors.

A project is described by its identity, its properties, its dependencies, the plugins of its build
and the repositories that it draws on.  An archive may carry the descriptor that it was built from;
what is recovered from that is an `EmbeddedDescriptor`.
-/

set_option autoImplicit false

namespace Unjar

/-- The namespace of descriptors. -/
def pomUri : Text := "http://maven.apache.org/POM/4.0.0".toList

/-- What a project is called and packaged as. -/
structure ProjectIdentity where
  groupId : Text
  artifactId : Text
  version : Text
  packaging : Text
deriving DecidableEq, Repr

/-- A plugin of the build. -/
structure Plugin where
  groupId : Text
  artifactId : Text
  version : Option Text
  /-- The settings of the plugin. -/
  configuration : OrderedMap Text Text
  /-- The element of a packaged descriptor that describes the plugin, word for word. -/
  raw : Option Text
deriving DecidableEq, Repr

/-- The group of the plugins that belong to the build tool. -/
def Plugin.defaultGroup : Text := "org.apache.maven.plugins".toList

structure Repository where
  /-- The identifier. -/
  id : Text
  /-- The address. -/
  url : Text
  name : Option Text
deriving DecidableEq, Repr

/-- **What is recovered from a packaged descriptor.** -/
structure EmbeddedDescriptor where
  /-- Where the descriptor was found. -/
  sourcePath : Text
  /-- The group, its own or that of its parent. -/
  groupId : Option Text
  artifactId : Option Text
  /-- The version, its own or that of its parent. -/
  version : Option Text
  /-- The direct dependencies. -/
  dependencies : List Coordinate
  properties : OrderedMap Text Text
  repositories : List Repository
  /-- The plugins whose versions the descriptor manages. -/
  managedPlugins : List Plugin
deriving DecidableEq, Repr

/-- **The descriptor of a project.** -/
structure ProjectDescriptor where
  identity : ProjectIdentity
  properties : OrderedMap Text Text
  dependencies : DependencySet
  /-- The plugins of the build. -/
  plugins : List Plugin
  repositories : List Repository
  /-- The plugins whose versions are managed. -/
  managedPlugins : List Plugin
  /-- The version of the descriptor format. -/
  modelVersion : Text := "4.0.0".toList
deriving DecidableEq, Repr

end Unjar
