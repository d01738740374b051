import Unjar.CommandLine.Outcome

/-!
The command line.

There are three commands: one rebuilds the project of an archive, one lists the dependencies that
were inferred, and one lists the types that each class refers to.  What a command prints, how it
ends and what it leaves on disk are a function of its words and of the machine that it runs on.

Main definitions:

* `Unjar.Machine` — the environment, the files, and the process of the decompiler;
* `Unjar.CommandName` — the commands and their options;
* `Unjar.CommandLine.invoke` — performing a command.
-/

set_option autoImplicit false

namespace Unjar

/-- **The machine that a command runs on.** -/
structure Machine where
  /-- The environment variables, without the part of their names that all share. -/
  environment : Settings.Environment
  tree : FileTree
  /-- The run of the decompiler on the class in a file of the given name. -/
  process : Text → ProcessRun
  /-- How the output of processes is read. -/
  readOutput : Bytes → Except Text Text

/-! ### Names of commands -/

inductive CommandName where
  | rebuild
  | deps
  | refs
deriving DecidableEq, Repr

namespace CommandName

def ofText? (t : Text) : Option CommandName :=
  if t == "rebuild".toList then some rebuild
  else if t == "deps".toList then some deps
  else if t == "refs".toList then some refs
  else none

def options : CommandName → List OptionKey
  | rebuild => [.output, .cfrJar, .java, .noDecompile, .help]
  | deps | refs => [.json, .help]

end CommandName

namespace CommandLine

open CommandOutcome

/-! ### Operands -/

/-- What stands at the path that a text spells.  A text that ends in a slash, or in one and a dot,
leads to directories only, and the empty text to nothing. -/
def nodeAt (tree : FileTree) (t : Text) : Option Node :=
  let wantsDirectory := ['/'].isSuffixOf t || "/.".toList.isSuffixOf t
  if t.isEmpty then none
  else (tree.stat (Path.ofText t)).filter fun node => node.isDirectory || !wantsDirectory

/-- The archive among the operands: the only one, and no directory. -/
def archiveOperand (tree : FileTree) (a : Arguments) : Except UsageFault Text :=
  match a.operands with
  | [] => .error .missingArchive
  | archive :: more =>
    match nodeAt tree archive, more with
    | some .directory, _ => .error (.directory archive)
    | _, extra :: _ => .error (.unexpectedOperand extra)
    | _, [] => .ok archive

/-- The directory for the project: the present one unless another is given, and no file. -/
def outputOption (tree : FileTree) (a : Arguments) : Except UsageFault Text :=
  let output := (a.value? .output).getD ['.']
  match nodeAt tree output with
  | none | some .directory => .ok output
  | some _ => .error (.file output)

/-! ### Commands -/

/-- A job with the rules and settings of the machine. -/
def jobFor (settings : Settings) (archive : Text) (output : Option Text)
    (decompiler : Option Decompiler) : RebuildJob where
  archive := Path.ofText archive
  output := output.map Path.ofText
  settings := settings
  resolver := .make .known PackageTable.baseline settings.archiveExtensions
  decompiler := decompiler

/-- The settings of the machine under the options of a command. -/
def settingsOf (m : Machine) (a : Arguments) : Settings.Checked Settings :=
  let override := fun (field : Settings.Field) key =>
    (a.value? key).toList.map fun t => (field.name, Settings.Value.text t)
  Settings.ofEnvironment m.environment (override .cfrJar .cfrJar ++ override .javaBin .java)

/-- The decompiler that the settings name; an empty name names none. -/
def decompilerOf (m : Machine) (settings : Settings) : Option Decompiler :=
  (settings.cfrJar.filter (!·.isEmpty)).map fun jar =>
    Cfr.decompile ⟨Path.ofText jar, settings.javaBin, settings.decompileTimeout,
      Cfr.defaultOptions, m.process, m.readOutput⟩

def performRebuild (m : Machine) (job : RebuildJob) : CommandOutcome :=
  match (Rebuild.run job).run.run (.start [] m.tree) with
  | (.error fault, s) => endRun s.tree fault
  | (.ok report, s) => succeed s.tree (Text.printedLines (report.toLines ++ s.progress.toLines)) []

/-- Rebuilding the project of an archive. -/
def rebuild (m : Machine) (settings : Settings) (archive output : Text) (noDecompile : Bool) :
    CommandOutcome :=
  if noDecompile then performRebuild m (jobFor settings archive (some output) none)
  else match decompilerOf m settings with
    | none => fail m.tree "--cfr-jar is required unless --no-decompile is given".toList
    | some decompiler => performRebuild m (jobFor settings archive (some output) (some decompiler))

/-- Listing the dependencies of an archive. -/
def deps (m : Machine) (settings : Settings) (archive : Text) (asJson : Bool) : CommandOutcome :=
  match (Rebuild.inspect (jobFor settings archive none none)).run.run (.start [] m.tree) with
  | (.error fault, s) => endRun s.tree fault
  | (.ok dependencies, s) =>
    let output :=
      if asJson then dependencies.toJson.toText.printed
      else Text.printedLines dependencies.toLines
    succeed s.tree output []

/-- Listing the types that the classes of an archive refer to. -/
def refs (m : Machine) (settings : Settings) (archive : Text) (asJson : Bool) : CommandOutcome :=
  match (Rebuild.inspect (jobFor settings archive none none)).run.run (.start [] m.tree) with
  | (.error fault, s) => endRun s.tree fault
  | (.ok _, s) =>
    let corpus := s.findings.corpus
    if asJson then succeed s.tree corpus.toJson.toText.printed []
    else
      let title : Text := Text.ofNat corpus.length ++ " classes in ".toList ++
        (Path.ofText archive).name ++ ['\n']
      let (shown, stopped) := Name.printedLines corpus.toLines
      let malformed := s.findings.malformedClasses.length
      let errors := if malformed = 0 then [] else
        Text.printed ("\nMalformed classes skipped: ".toList ++ Text.ofNat malformed)
      match stopped with
      | some name => breakOff s.tree (title.printed ++ shown) (.unprintable name)
      | none => succeed s.tree (title.printed ++ shown) errors

def perform (m : Machine) (name : CommandName) (a : Arguments) : CommandOutcome :=
  if a.has .help then succeed m.tree synopsis []
  else
    let operands : Except UsageFault (Text × Text) := do
      pure (← archiveOperand m.tree a, ← outputOption m.tree a)
    match operands with
    | .error fault => misuse m.tree fault
    | .ok (archive, output) =>
      match settingsOf m a with
      | .error complaints => rejectSettings m.tree complaints
      | .ok settings =>
        match name with
        | .rebuild => rebuild m settings archive output (a.has .noDecompile)
        | .deps => deps m settings archive (a.has .json)
        | .refs => refs m settings archive (a.has .json)

/-! ### The log -/

def logLevels : List Text :=
  ["CRITICAL", "FATAL", "ERROR", "WARN", "WARNING", "INFO", "DEBUG", "NOTSET"].map String.toList

/-- The capital form of a letter, for the letters whose capital is in ASCII. -/
def capital (c : Char) : Char :=
  if c == 'ı' then 'I' else if c == 'ſ' then 'S' else c.toUpper

/-- The level of the log that the machine asks for. -/
def logLevel (m : Machine) : Text := (m.environment.get? "LOG_LEVEL".toList).getD "INFO".toList

/-! ### Words -/

/-- Whether more is to be reported than the machine asks for. -/
def isVerbose (words : List Text) : Bool :=
  match Arguments.read [.verbose, .help] false words with
  | .ok a => a.has .verbose
  | .error _ => false

/-- The command that some words name, and its arguments. -/
def commandOf? (words : List Text) : Option (CommandName × Arguments) :=
  match Arguments.read [.verbose, .help] false words with
  | .ok ⟨_, word :: rest⟩ => do
    let name ← CommandName.ofText? word
    let a ← (Arguments.read name.options true rest).toOption
    pure (name, a)
  | _ => none

/-- The files that a command reads: the archive and the decompiler. -/
def inputPaths (environment : Settings.Environment) (words : List Text) : List Path :=
  match commandOf? words with
  | none => []
  | some (_, a) =>
    let jar := (a.value? .cfrJar).or (environment.get? Settings.Field.cfrJar.variableName)
    (a.operands ++ jar.toList).map Path.ofText

/-- The directory of the project that a command makes. -/
def projectPaths (words : List Text) : List Path :=
  match commandOf? words with
  | some (.rebuild, a) =>
    let output := Path.ofText ((a.value? .output).getD ['.'])
    a.operands.map fun archive => output.joinText (Path.ofText archive).stem
  | _ => []

/-- **Performing a command** given by its words. -/
def invoke (m : Machine) (words : List Text) : CommandOutcome :=
  match Arguments.read [.verbose, .help] false words with
  | .error fault => misuse m.tree fault
  | .ok common =>
    if common.has .help then succeed m.tree synopsis []
    else match common.operands with
      | [] => misuse m.tree .missingCommand
      | word :: rest =>
        match CommandName.ofText? word with
        | none => misuse m.tree (.unknownCommand word)
        | some name =>
          if !common.has .verbose && !logLevels.contains ((logLevel m).map capital) then
            breakOff m.tree [] (.logLevel (logLevel m))
          else match Arguments.read name.options true rest with
            | .error fault => misuse m.tree fault
            | .ok a => perform m name a

end CommandLine

end Unjar
