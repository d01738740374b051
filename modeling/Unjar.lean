import Unjar.Archive
import Unjar.ClassFile
import Unjar.ClassFile.Builder
import Unjar.ClassFile.ConstantPool
import Unjar.ClassFile.Cursor
import Unjar.ClassFile.Malformed
import Unjar.ClassFile.Name
import Unjar.CommandLine
import Unjar.CommandLine.Arguments
import Unjar.CommandLine.Outcome
import Unjar.CommandLine.Printing
import Unjar.Coordinate
import Unjar.Decimal
import Unjar.Decompiler
import Unjar.FileTree
import Unjar.Findings
import Unjar.Instruction
import Unjar.JavaSource
import Unjar.JsonValue
import Unjar.Main
import Unjar.Manifest
import Unjar.OrderedMap
import Unjar.PackageTable
import Unjar.Path
import Unjar.Placement
import Unjar.Pom.Assembly
import Unjar.Pom.Embedded
import Unjar.Pom.File
import Unjar.Pom.Placeholder
import Unjar.Pom.Rendering
import Unjar.Progress
import Unjar.Project
import Unjar.ProjectLayout
import Unjar.Proofs.ClassFile.PrefixFree
import Unjar.Proofs.Extraction
import Unjar.Proofs.PackageTable
import Unjar.Proofs.Rebuild.Accounting
import Unjar.Proofs.Rebuild.Ending
import Unjar.Proofs.Rebuild.Escaping
import Unjar.Proofs.Rebuild.Reconstruction
import Unjar.Proofs.Rebuild.Untouched
import Unjar.Rebuild
import Unjar.References
import Unjar.Resolution
import Unjar.Settings
import Unjar.StoredArchive
import Unjar.Text
import Unjar.Text.LowerCase
import Unjar.Text.Quoted
import Unjar.Text.Utf8
import Unjar.TypeDescriptor
import Unjar.Xml.Character
import Unjar.Xml.Doctype
import Unjar.Xml.Document
import Unjar.Xml.Encoding
import Unjar.Xml.Entity
import Unjar.Xml.Markup
import Unjar.Xml.Namespace
import Unjar.Xml.Node
import Unjar.Xml.Reference
import Unjar.Xml.Writer
import Unjar.Proofs.Pom.Assembling
import Unjar.Proofs.Pom.RoundTrip
import Unjar.Proofs.Rebuild.Inspecting
import Unjar.Proofs.Pom.Expanding
import Unjar.Proofs.Pom.Meaning
import Unjar.Proofs.Rebuild.Describing
import Unjar.Proofs.Rebuild.Reordering
import Unjar.Proofs.Likeness
import Unjar.Proofs.Rebuild.Padding
import Unjar.Proofs.Filing
import Unjar.Proofs.Manifest
import Unjar.Proofs.Pom.Namespace
import Unjar.Proofs.Pom.Managing
import Unjar.Proofs.JavaSource.Heading
import Unjar.Proofs.ClassFile.NameEncoding
import Unjar.Proofs.DescriptorGrammar
import Unjar.Proofs.Walking
import Unjar.Proofs.Copying
import Unjar.Proofs.PackageMatching
import Unjar.Proofs.Replacing
import Unjar.Proofs.Exclusion
import Unjar.Proofs.JavaSource.SourceUnit
import Unjar.Proofs.ClassFile.Slots
import Unjar.Proofs.ClassFile.Tiling
import Unjar.Proofs.JavaSource.Literal
import Unjar.Proofs.Rebuild.Naming
import Unjar.Proofs.OutputTree
import Unjar.Proofs.Decompiling
