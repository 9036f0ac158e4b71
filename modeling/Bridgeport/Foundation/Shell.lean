import Mathlib.Data.List.Basic

/-!
# Shell commands

Composed commands of a POSIX shell over programs whose behaviour is arbitrary: `can` says what a
program can do with its arguments, its input and the files. A pipeline ends with the status of its
last command, whatever the first one does (`Runs.pipe`); `&&` and `||` go on or stop by the status
of their left side.

A redirection truncates its file before the program starts, and the file holds what has been written
to it when the program has ended.
-/

namespace Bridgeport.Foundation.Shell

abbrev Files : Type :=
  String → Option String

/-- Where a stream of a program goes. -/
inductive Target
  | out
  | err
  | file (path : String)
  deriving DecidableEq

/-- A program with its arguments and its redirections. -/
structure Simple where
  argv : List String
  (stdout stderr : Target)
  deriving DecidableEq

inductive Script
  | run (command : Simple)
  | pipe (first second : Script)
  | and (first second : Script)
  | or (first second : Script)
  deriving DecidableEq

/-- What a program does: its status, its streams and the files that it leaves. -/
structure Outcome where
  status : ℕ
  (stdout stderr : String)
  files : Files

structure ProgramRun extends Outcome where
  argv : List String

/-- What a command does, and the programs that have run. -/
structure Result extends Outcome where
  runs : List ProgramRun

namespace Simple

variable (command : Simple)

/-- The files with those truncated that a program is redirected to. -/
def opened (files : Files) : Files :=
  let truncate (target : Target) (files : Files) : Files :=
    match target with
    | .file path => Function.update files path (some "")
    | _ => files
  truncate command.stderr (truncate command.stdout files)

def sent (target : Target) (outcome : Outcome) : String :=
  (if command.stdout = target then outcome.stdout else "") ++
    if command.stderr = target then outcome.stderr else ""

def delivered (outcome : Outcome) : Files :=
  let deliver (target : Target) (files : Files) : Files :=
    match target with
    | .file path => Function.update files path (some (command.sent target outcome))
    | _ => files
  deliver command.stderr (deliver command.stdout outcome.files)

def result (outcome : Outcome) : Result :=
  ⟨⟨outcome.status, command.sent .out outcome, command.sent .err outcome, command.delivered outcome⟩,
    [⟨outcome, command.argv⟩]⟩

/-- A program whose output goes to a file leaves it there. -/
theorem delivered_stdout {path : String} (hstdout : command.stdout = .file path)
    (hstderr : command.stderr ≠ .file path) (outcome : Outcome) :
    command.delivered outcome path = some outcome.stdout := by
  have hsent : command.sent (.file path) outcome = outcome.stdout := by
    simp [sent, hstdout, hstderr]
  unfold delivered
  cases herr : command.stderr with
  | out | err => simp [hstdout, hsent]
  | file other =>
    have hne : path ≠ other := fun h ↦ hstderr (h ▸ herr)
    simp [hstdout, hsent, Function.update_of_ne hne]

/-- A program without a redirection to files leaves what it has written. -/
theorem delivered_of_streams (hstdout : ∀ path, command.stdout ≠ .file path)
    (hstderr : ∀ path, command.stderr ≠ .file path) (outcome : Outcome) :
    command.delivered outcome = outcome.files := by
  unfold delivered
  cases hout : command.stdout with
  | file path => exact absurd hout (hstdout path)
  | _ =>
    cases herr : command.stderr with
    | file path => exact absurd herr (hstderr path)
    | _ => rfl

end Simple

/-- What a composed command does: the second part has run behind the first one. -/
def Result.behind (first second : Result) (stdout : String) : Result :=
  ⟨⟨second.status, stdout, first.stderr ++ second.stderr, second.files⟩, first.runs ++ second.runs⟩

variable (can : List String → String → Files → Outcome → Prop)

/-- What a command can do with an input and files. -/
inductive Runs : Script → String → Files → Result → Prop
  | run {command : Simple} {stdin : String} {files : Files} {outcome : Outcome}
      (h : can command.argv stdin (command.opened files) outcome) :
      Runs (.run command) stdin files (command.result outcome)
  | pipe {first second : Script} {stdin : String} {files : Files} {left right : Result}
      (hleft : Runs first stdin files left) (hright : Runs second left.stdout left.files right) :
      Runs (.pipe first second) stdin files (left.behind right right.stdout)
  | andStop {first second : Script} {stdin : String} {files : Files} {left : Result}
      (hleft : Runs first stdin files left) (hfailed : left.status ≠ 0) :
      Runs (.and first second) stdin files left
  | andGo {first second : Script} {stdin : String} {files : Files} {left right : Result}
      (hleft : Runs first stdin files left) (hzero : left.status = 0)
      (hright : Runs second stdin left.files right) :
      Runs (.and first second) stdin files (left.behind right (left.stdout ++ right.stdout))
  | orStop {first second : Script} {stdin : String} {files : Files} {left : Result}
      (hleft : Runs first stdin files left) (hzero : left.status = 0) :
      Runs (.or first second) stdin files left
  | orGo {first second : Script} {stdin : String} {files : Files} {left right : Result}
      (hleft : Runs first stdin files left) (hfailed : left.status ≠ 0)
      (hright : Runs second stdin left.files right) :
      Runs (.or first second) stdin files (left.behind right (left.stdout ++ right.stdout))

variable {can} {stdin : String} {result : Result} {files : Files}

theorem Runs.exists_outcome {command : Simple} (h : Runs can (.run command) stdin files result) :
    ∃ outcome, can command.argv stdin (command.opened files) outcome ∧
      result = command.result outcome := by
  cases h with
  | run h => exact ⟨_, h, rfl⟩

variable {second first : Script}

/-- Both sides of `&&` have succeeded when it has, and the files are those of the right one. -/
theorem Runs.and_zero (h : Runs can (.and first second) stdin files result)
    (hzero : result.status = 0) : ∃ left right, Runs can first stdin files left ∧ left.status = 0 ∧
      Runs can second stdin left.files right ∧ right.status = 0 ∧ result.files = right.files ∧
      right.runs ⊆ result.runs := by
  cases h with
  | andStop hleft hfailed => exact absurd hzero hfailed
  | andGo hleft hleftZero hright =>
    exact ⟨_, _, hleft, hleftZero, hright, hzero, rfl, List.subset_append_right _ _⟩

/-- The left side of `||` has succeeded when it has, if the right one never does. -/
theorem Runs.or_zero (h : Runs can (.or first second) stdin files result)
    (hzero : result.status = 0)
    (hsecond : ∀ middle right, Runs can second stdin middle right → right.status ≠ 0) :
    Runs can first stdin files result := by
  cases h with
  | orStop hleft _ => exact hleft
  | orGo _ _ hright =>
    have hfailed := hsecond _ _ hright
    exact absurd hzero hfailed

/-- What every program keeps of the files, a command without redirections to files keeps. -/
theorem Runs.or_keeps {first second : Simple}
    (h : Runs can (.or (.run first) (.run second)) stdin files result)
    (hfirst : ∀ files outcome, can first.argv stdin (first.opened files) outcome →
      first.delivered outcome = files)
    (hsecond : ∀ files outcome, can second.argv stdin (second.opened files) outcome →
      second.delivered outcome = files) : result.files = files := by
  cases h with
  | orStop hleft _ =>
    obtain ⟨outcome, hcan, rfl⟩ := hleft.exists_outcome
    exact hfirst files outcome hcan
  | orGo hleft _ hright =>
    obtain ⟨outcome, hcan, rfl⟩ := hleft.exists_outcome
    obtain ⟨second, hsecondCan, rfl⟩ := hright.exists_outcome
    exact (hsecond _ second hsecondCan).trans (hfirst files outcome hcan)

end Bridgeport.Foundation.Shell
