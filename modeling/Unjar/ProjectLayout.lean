import Unjar.Placement

/-!
The directories of a rebuilt project.

A project has one directory each for sources and for resources, of the program and of its tests.
They are made anew: what stood under the name of the project before is removed.

Main definitions:

* `Unjar.ProjectLayout.directories` — the four directories;
* `Unjar.ProjectLayout.create` — making them.
-/

set_option autoImplicit false

namespace Unjar.ProjectLayout

/-- The sources of the program. -/
def mainSources : Path := .ofString "src/main/java"

/-- The resources of the program. -/
def mainResources : Path := .ofString "src/main/resources"

def testSources : Path := .ofString "src/test/java"

def testResources : Path := .ofString "src/test/resources"

/-- The directories beneath a project. -/
def directories : List Path := [mainSources, mainResources, testSources, testResources]

/-- Removing what stands at a path and making the directories beneath it. -/
def recreate (project : Path) : FileOperation Unit := do
  if (← get).exists? project then FileTree.removeTree project
  directories.forM fun directory => FileTree.makeDirectories (project.join directory)

/-- **The directories of a project made anew**; a fault names the project. -/
def create (project : Path) (tree : FileTree) : Except WriteFault Unit × FileTree :=
  let (result, tree) := (recreate project).run.run tree
  (result.mapError fun cause => ⟨project, cause⟩, tree)

end Unjar.ProjectLayout
