import Unjar.Decimal

/-!
Progress.

A run goes through phases, each of which is timed.  A phase ends completed or failed; one that is
interrupted stays as it is, running.  The readings of the clock are given in advance, so that what
is recorded is a function of them.

Main definitions:

* `Unjar.Phase`, `Unjar.PhaseStatus` — a phase and how far it is;
* `Unjar.Progress` — the phases so far and the readings still to come;
* `Unjar.Progress.enter`, `Unjar.Progress.complete`, `Unjar.Progress.fail`, `Unjar.Progress.skip` —
  the ways in which a record grows;
* `Unjar.Activity`, `Unjar.Progress.perform` — phases within phases.
-/

set_option autoImplicit false

namespace Unjar

/-- How far a phase is. -/
inductive PhaseStatus where
  | running
  | completed
  | failed
  | skipped
deriving DecidableEq, Repr

/-- The word for a status. -/
def PhaseStatus.toText : PhaseStatus → Text
  | running => "running".toList
  | completed => "completed".toList
  | failed => "failed".toList
  | skipped => "skipped".toList

/-- **A phase.** -/
structure Phase where
  name : Text
  /-- How far it is. -/
  status : PhaseStatus
  /-- When it began. -/
  began : Option Float
  /-- When it ended. -/
  ended : Option Float
  /-- What there is to say about it. -/
  detail : Text
  /-- What went wrong. -/
  error : Option Text

namespace Phase

/-- The time between beginning and end, rounded to thousandths. -/
def duration (p : Phase) : Option Float :=
  match p.began, p.ended with
  | some began, some ended => some (Decimal.roundToThousandths (ended - began))
  | _, _ => none

/-- The duration, if it is not zero. -/
def lasting (p : Phase) : Option Float :=
  p.duration.bind fun d => if d == 0.0 then none else some d

end Phase

/-- **The phases so far** and the readings of the clock still to come; behind the last it shows
zero. -/
structure Progress where
  /-- The phases, in the order in which they began. -/
  phases : List Phase
  /-- The readings. -/
  clock : List Float

namespace Progress

/-- The record before the first phase. -/
def start (clock : List Float) : Progress := ⟨[], clock⟩

/-- A reading of the clock. -/
def read (p : Progress) : Float × Progress :=
  match p.clock with
  | [] => (0.0, p)
  | now :: rest => (now, { p with clock := rest })

/-- A phase begins; the result is its place. -/
def enter (p : Progress) (name : Text) : Nat × Progress :=
  let (now, p) := p.read
  (p.phases.length,
    { p with phases := p.phases ++ [⟨name, .running, some now, none, [], none⟩] })

/-- A phase is changed. -/
def change (p : Progress) (place : Nat) (f : Phase → Phase) : Progress :=
  { p with phases := p.phases.modify place f }

/-- What there is to say about a phase. -/
def describe (p : Progress) (place : Nat) (detail : Text) : Progress :=
  p.change place fun phase => { phase with detail }

/-- A phase ends well. -/
def complete (p : Progress) (place : Nat) : Progress :=
  let (now, p) := p.read
  p.change place fun phase => { phase with status := .completed, ended := some now }

/-- A phase ends with an error. -/
def fail (p : Progress) (place : Nat) (error : Text) : Progress :=
  let (now, p) := p.read
  p.change place fun phase =>
    { phase with status := .failed, ended := some now, error := some error }

/-- A phase is left out. -/
def skip (p : Progress) (name reason : Text) : Progress :=
  { p with phases := p.phases ++ [⟨name, .skipped, none, none, reason, none⟩] }

/-- The sum of all durations, rounded again; none if no phase lasted. -/
def total (p : Progress) : Option Float :=
  match p.phases.filterMap Phase.lasting with
  | [] => none
  | first :: more => some (Decimal.roundToThousandths (more.foldl (· + ·) first))

/-- The sum of all durations in text. -/
def totalText (p : Progress) : Text :=
  match p.total with
  | some sum => Decimal.toText sum
  | none => ['0']

end Progress

/-! ### Phases within phases -/

/-- How an activity ends. -/
inductive Ending where
  | returns
  | fails (error : Text)
  | interrupted
deriving DecidableEq, Repr

/-- What is done in a phase. -/
inductive Activity where
  /-- A phase is left out. -/
  | skip (name reason : Text)
  /-- A phase is gone through: its detail is set, its activities are performed, and it ends. -/
  | phase (name detail : Text) (body : List Activity) (ending : Ending)

namespace Progress

/-- A phase ends as its activities did. -/
def leave (p : Progress) (place : Nat) : Ending → Progress
  | .returns => p.complete place
  | .fails error => p.fail place error
  | .interrupted => p

mutual

/-- An activity performed.  An error and an interruption end the phases around them too. -/
def perform (p : Progress) : Activity → Ending × Progress
  | .skip name reason => (.returns, p.skip name reason)
  | .phase name detail body ending =>
    let (place, p) := p.enter name
    let p := p.describe place detail
    let (reached, p) := performAll p body
    let reached := if reached = .returns then ending else reached
    (reached, p.leave place reached)

/-- Activities performed in order, up to the first that does not return. -/
def performAll (p : Progress) : List Activity → Ending × Progress
  | [] => (.returns, p)
  | first :: more =>
    let (reached, p) := perform p first
    if reached = .returns then performAll p more else (reached, p)

end

end Progress

end Unjar
