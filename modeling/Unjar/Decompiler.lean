import Unjar.Decimal
import Unjar.FileTree
import Unjar.OrderedMap
import Unjar.Text.Utf8

/-!
Decompilers.

A decompiler turns one class into any number of source texts, each with a hint at its file name,
and may fail on the way.  What it pushes before it fails has been pushed.

Main definitions:

* `Unjar.Decompilation`, `Unjar.Decompiler` — what comes out for one class, and what produces it;
* `Unjar.Obstacle` — what breaks off the work on a class;
* `Unjar.Cfr` — the command-line decompiler, whose process is given as a function, and so is the
  reading of what it writes;
* `Unjar.SketchDecompiler` — a stand-in that writes an empty type for every class.
-/

set_option autoImplicit false

namespace Unjar

/-- Why a decompiler fails on a class. -/
inductive DecompilerFailure where
  /-- The decompiler is not installed where it should be. -/
  | notInstalled (path : Path)
  /-- The decompiler did not end in time. -/
  | timedOut (seconds : Float) (entry : Text)
  /-- The program that runs the decompiler does not exist. -/
  | programNotFound (program : Text)
  /-- The decompiler ended with an error. -/
  | failed (entry : Text) (exitCode : Int) (errors : Text)
  /-- The class is one of those on which the stand-in fails. -/
  | declined (entry : Text)

/-- A failure in words; of a long error output the last thousand characters are shown. -/
def DecompilerFailure.message : DecompilerFailure → Text
  | notInstalled path => "CFR jar not found: ".toList ++ path.toText
  | timedOut seconds entry =>
    "CFR timed out after ".toList ++ Decimal.toText seconds ++ "s on ".toList ++ entry
  | programNotFound program => "java executable not found: ".toList ++ program
  | failed entry exitCode errors =>
    "CFR failed on ".toList ++ entry ++ " (rc=".toList ++ Text.ofInt exitCode ++ "): ".toList ++
      errors.drop (errors.length - 1000)
  | declined entry => "fake failure on ".toList ++ entry

/-- What breaks off the work on a class without being a failure of the decompiler. -/
inductive Obstacle where
  /-- A directory stood where a file was to be read or written. -/
  | directory
  /-- The process wrote what is no text, in the words of the machine. -/
  | illegible (complaint : Text)
  /-- The machine refused to start the process, in its words. -/
  | refused (complaint : Text)
deriving DecidableEq, Repr

/-- An obstacle in words. -/
def Obstacle.message : Obstacle → Text
  | directory => FileFault.isDirectory.message
  | illegible complaint | refused complaint => complaint

/-- How the work on a class ends. -/
inductive DecompilerOutcome where
  /-- All texts were pushed. -/
  | finished
  | failed (failure : DecompilerFailure)
  /-- It broke off. -/
  | obstructed (obstacle : Obstacle)

/-- **What comes out for one class.** -/
structure Decompilation where
  /-- The texts pushed, each with its hint. -/
  pushed : List (Text × Text)
  /-- The commands that were started, each with the class that was handed over. -/
  commands : List (List Text × Bytes)
  /-- How the work ended. -/
  outcome : DecompilerOutcome

/-- The number that is returned for a class: that of the texts pushed, if the work was finished. -/
def Decompilation.returned? (d : Decompilation) : Option Nat :=
  match d.outcome with
  | .finished => some d.pushed.length
  | .failed _ | .obstructed _ => none

/-- **A decompiler.** -/
structure Decompiler where
  /-- What comes out for the bytes of a class and the name of its entry, given the files that exist
  and, since a decompiler may remember them, the classes that it was handed earlier. -/
  work : FileTree → List (Text × Bytes) → Bytes → Text → Decompilation

/-- Used as a function, a decompiler is handed its first class. -/
instance : CoeFun Decompiler fun _ => FileTree → Bytes → Text → Decompilation :=
  ⟨fun d tree => d.work tree []⟩

/-! ### The command-line decompiler -/

/-- How a process ends. -/
inductive ProcessEnd where
  /-- With an exit code, and what it wrote as output and as errors. -/
  | exited (code : Int) (output errors : Bytes)
  | timedOut
  /-- The program does not exist. -/
  | notFound
  /-- It could not be started for another reason, in the words of the machine. -/
  | refused (complaint : Text)

/-- A run of the process: the files that it leaves in its output directory, and its end. -/
structure ProcessRun where
  /-- The files, by their paths from the output directory. -/
  outputs : List (Text × Bytes)
  finish : ProcessEnd

/-- The run that leaves nothing and succeeds. -/
def ProcessRun.quiet : ProcessRun := ⟨[], .exited 0 [] []⟩

/-- **The command-line decompiler** and the machine that it runs on. -/
structure Cfr where
  /-- The file that holds the decompiler. -/
  jar : Path
  /-- The program that runs it. -/
  java : Text
  /-- The number of seconds that it gets for one class. -/
  timeout : Float
  options : OrderedMap Text Text
  /-- The run of the process on the class in a file of the given name. -/
  process : Text → ProcessRun
  /-- How the machine reads what a process wrote: as a text, or what it complains of. -/
  readOutput : Bytes → Except Text Text

namespace Cfr

/-- Reading the output of processes on a machine whose texts are in UTF-8; line ends are unified. -/
def readUtf8 (bytes : Bytes) : Except Text Text :=
  match Utf8.flaw? bytes with
  | some flaw => .error flaw.message
  | none => .ok (Text.unifyLineEnds (Utf8.decodeLossy bytes))

/-- The options that are always set. -/
def defaultOptions : OrderedMap Text Text :=
  [("showversion", "false"), ("decodestringswitch", "true"), ("sugarenums", "true"),
    ("decodelambdas", "true"), ("hidebridgemethods", "true")].map
    fun (key, value) => (key.toList, value.toList)

/-- The directory in which a class is worked on. -/
def workDirectory : Text := "$WORK".toList

/-- The command for the class in a file of the given name. -/
def command (c : Cfr) (fileName : Text) : List Text :=
  let inWork := fun name => workDirectory ++ '/' :: name
  [c.java, "-jar".toList, c.jar.toText, inWork fileName, "--outputdir".toList,
    inWork "out".toList] ++
    c.options.flatMap fun (key, value) => ["--".toList ++ key, value]

/-- A file among the outputs, in the directories above it. -/
def placeOutput (tree : FileTree) (output : Text × Bytes) : FileTree :=
  let file := Path.ofText output.1
  let place : FileOperation Unit := do
    FileTree.makeDirectories file.parent
    FileTree.writeFile file output.2
  (place.run.run tree).2

/-- The output directory after a run. -/
def outputTree (outputs : List (Text × Bytes)) : FileTree :=
  outputs.foldl placeOutput ⟨[], [], []⟩

/-- The end of the name of a source. -/
def sourceSuffix : Text := ".java".toList

/-- What stands in the output directory under the name of a source, ordered by the components of
its path. -/
def sources (tree : FileTree) : List (Location × Node) :=
  (tree.nodes.filter fun (here, _) =>
    sourceSuffix.isSuffixOf (here.getLast?.getD [])).mergeSort fun a b => !(decide (b.1 < a.1))

/-- The text in a file: line ends are unified. -/
def readText (bytes : Bytes) : Text := Text.unifyLineEnds (Utf8.decodeLossy bytes)

/-- The texts up to the first directory, and whether one was met. -/
def collect : List (Location × Node) → List (Text × Text) × Bool
  | [] => ([], false)
  | (here, .file content) :: more =>
    let (texts, met) := collect more
    ((readText content, joinWith ['/'] here) :: texts, met)
  | _ => ([], true)

/-- What a process wrote as output and as errors; both are read, the output first. -/
def readStreams (c : Cfr) (output errors : Bytes) : Except Text (Text × Text) := do
  let output ← c.readOutput output
  let errors ← c.readOutput errors
  pure (output, errors)

/-- **One class**: it is put into a file of its own, and what the process leaves is collected. -/
def decompile (c : Cfr) : Decompiler := .mk fun tree _ bytes entry =>
  if !tree.isFile c.jar then ⟨[], [], .failed (.notInstalled c.jar)⟩
  else
    let fileName := (Path.ofText entry).name
    if fileName.isEmpty || fileName == Path.up then ⟨[], [], .obstructed .directory⟩
    else
      let run := c.process fileName
      let commands := [(c.command fileName, bytes)]
      match run.finish with
      | .timedOut => ⟨[], commands, .failed (.timedOut c.timeout entry)⟩
      | .notFound => ⟨[], commands, .failed (.programNotFound c.java)⟩
      | .refused complaint => ⟨[], commands, .obstructed (.refused complaint)⟩
      | .exited code output errors =>
        match c.readStreams output errors with
        | .error complaint => ⟨[], commands, .obstructed (.illegible complaint)⟩
        | .ok (_, errors) =>
          if code ≠ 0 then ⟨[], commands, .failed (.failed entry code errors)⟩
          else
            let (texts, met) := collect (sources (outputTree run.outputs))
            ⟨texts, commands, if met then .obstructed .directory else .finished⟩

end Cfr

/-! ### A stand-in -/

/-- A decompiler that needs no tool.  For each class it writes the texts that it is told, and
without instructions an empty type named after the entry. -/
structure SketchDecompiler where
  /-- The texts to be written, by entry. -/
  outputs : OrderedMap Text (List Text)
  /-- The entries on which it fails. -/
  failOn : List Text

namespace SketchDecompiler

/-- The directories beneath which an archive holds classes of its own. -/
def classRoots : List (List Text) :=
  [["BOOT-INF", "classes"], ["WEB-INF", "classes"]].map (·.map String.toList)

/-- The components of a directory; a root counts as one. -/
def directoryParts (p : Path) : List Text :=
  (if p.root = 0 then [] else [List.replicate p.root '/']) ++ p.parts

/-- The package of an entry: the directories above it, without those of embedded classes. -/
def packageOf (entry : Path) : List Text :=
  classRoots.foldl (fun parts root => (dropPrefix? root parts).getD parts)
    (directoryParts entry.parent)

/-- An empty type named after an entry. -/
def sketch (entry : Text) : Text :=
  let path := Path.ofText entry
  let type := path.stem.takeWhile (· != '$')
  let package := joinWith ['.'] (packageOf path)
  let header := if package.isEmpty then [] else "package ".toList ++ package ++ ";\n\n".toList
  header ++ "public class ".toList ++ type ++ " \x7b\n\x7d\n".toList

/-- One class. -/
def decompile (d : SketchDecompiler) : Decompiler := .mk fun _ _ _ entry =>
  if d.failOn.contains entry then ⟨[], [], .failed (.declined entry)⟩
  else
    let texts := (d.outputs.get? entry).getD [sketch entry]
    ⟨texts.map fun text => (text, entry), [], .finished⟩

end SketchDecompiler

end Unjar
