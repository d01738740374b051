import Unjar.Placement
import Unjar.Pom.Rendering

/-!
Descriptor files.

A descriptor is written to a file as a whole: whoever looks at the file finds what was there before
or the complete descriptor.  A directory stands for the file of the usual name within it.

Main definitions:

* `Unjar.DescriptorFault` — why a descriptor is not written;
* `Unjar.ProjectDescriptor.writeTo` — writing it.
-/

set_option autoImplicit false

namespace Unjar

/-- Why a descriptor is not written. -/
inductive DescriptorFault where
  /-- The descriptor cannot be rendered. -/
  | render (fault : RenderFault)
  /-- The file cannot be written. -/
  | write (fault : WriteFault)
deriving DecidableEq, Repr

namespace ProjectDescriptor

/-- The usual name of a descriptor file. -/
def fileName : Text := "pom.xml".toList

/-- The file that a path stands for. -/
def fileAt (path : Path) (tree : FileTree) : Path :=
  if tree.isDirectory path then path.joinText fileName else path

/-- **Writing a descriptor**; the result is the file. -/
def writeTo (d : ProjectDescriptor) (path : Path) (tree : FileTree) :
    Except DescriptorFault Path × FileTree :=
  let file := fileAt path tree
  match d.render with
  | .error fault => (.error (.render fault), tree)
  | .ok text =>
    match (FileTree.replaceFile file (Utf8.encode text)).run.run tree with
    | (.ok (), tree) => (.ok file, tree)
    | (.error cause, tree) => (.error (.write ⟨file, cause⟩), tree)

end ProjectDescriptor

end Unjar
