import Unjar.Pom.Placeholder
import Unjar.Project
import Unjar.Settings
import Unjar.Text.LowerCase

/-!
Assembling descriptors.

The descriptor of a rebuilt project follows from its identity, its dependencies, what a packaged
descriptor tells, and the settings.  Properties of a packaged descriptor win over the basic ones;
its repositories and managed plugins are taken over as they are.

Main definitions:

* `Unjar.ProjectIdentity.ofArchive` — what a rebuilt project is called;
* `Unjar.ProjectDescriptor.assemble` — its descriptor.
-/

set_option autoImplicit false

namespace Unjar

/-- The packaging of an archive by its extension. -/
def packagingOf (extension : Text) : Text :=
  if Text.toLower extension == ".war".toList then "war".toList else "jar".toList

/-- **What the project of an archive is called.** -/
def ProjectIdentity.ofArchive (stem extension : Text) (settings : Settings) : ProjectIdentity :=
  ⟨settings.groupId, stem, settings.version, packagingOf extension⟩

namespace ProjectDescriptor

/-- The property that holds the language level of sources. -/
def sourceLevel : Text := "maven.compiler.source".toList

/-- The property that holds the language level of compiled classes. -/
def targetLevel : Text := "maven.compiler.target".toList

/-- The properties of every project. -/
def basicProperties (settings : Settings) : Properties :=
  [("project.build.sourceEncoding".toList, settings.sourceEncoding),
    (sourceLevel, settings.languageLevel), (targetLevel, settings.languageLevel)]

/-- The plugins of every project, with their versions. -/
def pinnedPlugins : List (Text × Text) :=
  [("maven-compiler-plugin", "3.8.1"), ("maven-source-plugin", "3.2.1"),
    ("maven-javadoc-plugin", "3.3.0")].map fun (name, version) => (name.toList, version.toList)

/-- The settings of the compiler, which follows the properties. -/
def compilerConfiguration : OrderedMap Text Text :=
  [("source".toList, Properties.placeholder sourceLevel),
    ("target".toList, Properties.placeholder targetLevel)]

/-- The plugins of every project; the first is the compiler. -/
def buildPlugins : List Plugin :=
  let plugins := pinnedPlugins.map fun (name, version) =>
    (⟨Plugin.defaultGroup, name, some version, [], none⟩ : Plugin)
  plugins.modifyHead fun compiler => { compiler with configuration := compilerConfiguration }

/-- **The descriptor of a rebuilt project.** -/
def assemble (identity : ProjectIdentity) (dependencies : DependencySet)
    (embedded : Option EmbeddedDescriptor) (settings : Settings) : ProjectDescriptor where
  identity := identity
  properties :=
    (basicProperties settings).putAll ((embedded.map EmbeddedDescriptor.properties).getD [])
  dependencies := dependencies
  plugins := buildPlugins
  repositories := (embedded.map EmbeddedDescriptor.repositories).getD []
  managedPlugins := (embedded.map EmbeddedDescriptor.managedPlugins).getD []

end ProjectDescriptor

end Unjar
