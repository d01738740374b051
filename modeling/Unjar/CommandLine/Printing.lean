import Unjar.JsonValue
import Unjar.Rebuild

/-!
What commands print.

Reports, phases, dependencies and references are shown in lines or as JSON.  Printed text may go to a
file, so the control sequences of terminals are taken out of it.

Main definitions:

* `Unjar.Text.printed` — a text as it is printed in a line of its own;
* `Unjar.RebuildReport.toLines`, `Unjar.Progress.toLines` — what is shown of a run;
* `Unjar.DependencySet.toLines`, `Unjar.DependencySet.toJson` — dependencies;
* `Unjar.Corpus.toLines`, `Unjar.Corpus.toJson` — references.
-/

set_option autoImplicit false

namespace Unjar

/-! ### Lines -/

namespace Text

/-- What follows the parameters of a control sequence, if it is the letter that ends one. -/
def afterParameters : Text → Option Text
  | [] => none
  | c :: rest =>
    if c == ';' || c == '?' || c.isDigit then afterParameters rest
    else if c.isAlpha then some rest
    else none

theorem length_of_afterParameters {t rest : Text} (h : afterParameters t = some rest) :
    rest.length < t.length := by
  induction t with
  | nil => simp [afterParameters] at h
  | cons c r ih =>
    unfold afterParameters at h
    split at h
    · have := ih h
      simp only [List.length_cons]
      omega
    · split at h
      · simp only [Option.some.injEq] at h
        subst h
        simp
      · simp at h

/-- A text without the control sequences of terminals. -/
def withoutControls : Text → Text
  | [] => []
  | '\x1b' :: '[' :: rest =>
    match _h : afterParameters rest with
    | some behind => withoutControls behind
    | none => '\x1b' :: withoutControls ('[' :: rest)
  | c :: rest => c :: withoutControls rest
termination_by t => t.length
decreasing_by
  · have := length_of_afterParameters _h
    simp only [List.length_cons]
    omega
  · simp
  · simp

/-- **A text as it is printed** in a line of its own. -/
def printed (t : Text) : Text := withoutControls (t ++ ['\n'])

/-- Texts as they are printed, each in a line of its own. -/
def printedLines (lines : List Text) : Text := lines.flatMap printed

end Text

/-! ### Runs -/

def PhaseStatus.sign : PhaseStatus → Char
  | completed => '+'
  | failed => '!'
  | skipped => '-'
  | running => '~'

def Phase.toLine (p : Phase) : Text :=
  let duration := match p.lasting with
    | some seconds => " (".toList ++ Decimal.toText seconds ++ "s)".toList
    | none => []
  let detail := if p.detail.isEmpty then [] else " - ".toList ++ p.detail
  "  [".toList ++ p.status.sign :: "] ".toList ++ p.name ++ duration ++ detail

/-- The lines of all phases. -/
def Progress.toLines (p : Progress) : List Text :=
  ("\nPipeline summary (total: ".toList ++ p.totalText ++ "s):".toList) ::
    p.phases.map Phase.toLine

namespace RebuildReport

/-- A line that shows a number. -/
def countLine (label : String) (n : Nat) : Text :=
  "  ".toList ++ label.toList ++ ": ".toList ++ Text.ofNat n

/-- A line that shows the number of some items, if there are any. -/
def countLineIfAny {α : Type} (label : String) (items : List α) : List Text :=
  if items.isEmpty then [] else [countLine label items.length]

def toLines (r : RebuildReport) : List Text :=
  [ "\nProject written to ".toList ++ r.project.toText,
    countLine "Classes scanned" r.classesScanned,
    countLine "Sources written" r.sourcesWritten,
    countLine "Resources copied" r.resourcesCopied,
    countLine "Dependencies" r.dependencies.size ] ++
  (r.embeddedSource.toList.map fun source => "  Embedded pom: ".toList ++ source) ++
  countLineIfAny "Malformed classes" r.malformedClasses ++
  countLineIfAny "Decompiler failures" r.decompilerFailures ++
  countLineIfAny "Path collisions (last write kept)" r.collisions ++
  r.collisions.map fun file => "    ".toList ++ file.toText

end RebuildReport

/-! ### Dependencies -/

/-- The line of a dependency; the usual scope is not shown. -/
def Coordinate.toLine (c : Coordinate) : Text :=
  let scope := match c.scope with
    | none | some [] => []
    | some scope =>
      if scope == compileScope then [] else " (".toList ++ scope ++ ")".toList
  let review := if c.needsReview then "  [needs review]".toList else []
  "  ".toList ++ c.toText ++ scope ++ "  <- ".toList ++ c.source ++ review

/-- A dependency as JSON. -/
def Coordinate.toJson (c : Coordinate) : JsonValue :=
  .record <| [
    ("group_id", .ofText c.groupId), ("artifact_id", .ofText c.artifactId),
    ("version", .ofText? c.version), ("scope", .ofText? c.scope), ("type", .ofText? c.type),
    ("classifier", .ofText? c.classifier), ("source", .ofText c.source),
    ("needs_review", .bool c.needsReview)].map fun (key, value) => (Name.ofString key, value)

def DependencySet.toLines (s : DependencySet) : List Text :=
  ("Resolved ".toList ++ Text.ofNat s.size ++ " dependencies\n".toList) ::
    s.toList.map Coordinate.toLine

def DependencySet.toJson (s : DependencySet) : JsonValue := .list (s.toList.map Coordinate.toJson)

/-! ### References -/

namespace Corpus

/-- A corpus in the order of its classes. -/
def sorted (corpus : Corpus) : Corpus := corpus.mergeSort fun a b => Name.le a.1 b.1

/-- The names of the classes and, further in, of the other types that each refers to. -/
def toLines (corpus : Corpus) : List Name :=
  corpus.sorted.flatMap fun (owner, types) =>
    (Name.ofString "  " ++ owner) ::
      (types.toList.filter (· != owner)).map fun type => Name.ofString "    " ++ type

def toJson (corpus : Corpus) : JsonValue :=
  .record (corpus.sorted.map fun (owner, types) =>
    (owner, .list (types.toList.map JsonValue.string)))

end Corpus

/-- Lines as they are printed up to the first that holds a lone surrogate, and that line. -/
def Name.printedLines : List Name → Text × Option Name
  | [] => ([], none)
  | n :: more =>
    match n.toText? with
    | none => ([], some n)
    | some t =>
      let (printed, stopped) := printedLines more
      (t.printed ++ printed, stopped)

end Unjar
