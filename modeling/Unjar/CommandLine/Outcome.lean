import Unjar.CommandLine.Arguments
import Unjar.CommandLine.Printing

/-!
What comes out of a command.

A command succeeds, fails for a reason that it tells, is not understood, or breaks off.

Main definitions:

* `Unjar.CommandEnd` — the four ends and their exit codes;
* `Unjar.CommandOutcome` — an end, what was printed, and the files;
* `Unjar.Breakdown` — why a command breaks off.
-/

set_option autoImplicit false

namespace Unjar

/-- Why a command breaks off. -/
inductive Breakdown where
  /-- The level of the log has no such name. -/
  | logLevel (name : Text)
  /-- A run ended for a reason that is not the user's. -/
  | rebuild (fault : RebuildFault)
  /-- A name cannot be printed. -/
  | unprintable (name : Name)
deriving DecidableEq, Repr

/-- Why a command breaks off, in words. -/
def Breakdown.message : Breakdown → Text
  | logLevel name => "unknown log level: ".toList ++ name
  | rebuild fault => fault.message
  | unprintable _ => "a name holds a lone surrogate".toList

/-- **How a command ends.** -/
inductive CommandEnd where
  /-- It did what it was asked. -/
  | succeeded
  /-- It could not do so and told why. -/
  | failed
  /-- It was not understood. -/
  | misused (fault : UsageFault)
  | brokeOff (cause : Breakdown)
deriving DecidableEq, Repr

def CommandEnd.exitCode : CommandEnd → Nat
  | succeeded => 0
  | failed | brokeOff _ => 1
  | misused _ => 2

/-- **What comes out of a command.** -/
structure CommandOutcome where
  finish : CommandEnd
  /-- What it printed. -/
  output : Text
  /-- What it reported as errors. -/
  errors : Text
  /-- The files after it. -/
  tree : FileTree

namespace CommandOutcome

/-- A command that did what it was asked. -/
def succeed (tree : FileTree) (output errors : Text) : CommandOutcome :=
  ⟨.succeeded, output, errors, tree⟩

/-- A command that tells why it could not. -/
def fail (tree : FileTree) (reason : Text) : CommandOutcome :=
  ⟨.failed, [], Text.printed ("Error: ".toList ++ reason), tree⟩

/-- How commands are written. -/
def synopsis : Text := Text.printedLines <| [
    "Usage: unjar [-v] rebuild ARCHIVE [-o DIRECTORY] [--cfr-jar FILE] [--java PROGRAM]",
    "                          [--no-decompile]",
    "       unjar [-v] deps ARCHIVE [--json]",
    "       unjar [-v] refs ARCHIVE [--json]"].map String.toList

/-- A command that was not understood. -/
def misuse (tree : FileTree) (fault : UsageFault) : CommandOutcome :=
  ⟨.misused fault, [], synopsis ++ Text.printed ("Error: ".toList ++ fault.message), tree⟩

/-- A command that broke off behind what it had printed. -/
def breakOff (tree : FileTree) (output : Text) (cause : Breakdown) : CommandOutcome :=
  ⟨.brokeOff cause, output, [], tree⟩

/-- A run that was ended.  The archive and the disk are the user's business. -/
def endRun (tree : FileTree) (fault : RebuildFault) : CommandOutcome :=
  match fault with
  | .archive fault => fail tree fault.message
  | .write fault => fail tree fault.message
  | other => breakOff tree [] (.rebuild other)

/-- The line of a complaint about the settings. -/
def complaintLine (c : Settings.Complaint) : Text :=
  "  ".toList ++ joinWith ['.'] c.location ++ ": ".toList ++ c.fault.message

/-- Settings that were not accepted. -/
def rejectSettings (tree : FileTree) (complaints : List Settings.Complaint) : CommandOutcome :=
  let lines := "Error: invalid configuration:".toList :: complaints.map complaintLine
  ⟨.failed, [], Text.printedLines lines, tree⟩

end CommandOutcome

end Unjar
