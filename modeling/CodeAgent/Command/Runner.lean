import CodeAgent.Command.Result
import CodeAgent.Config
import CodeAgent.Disk.Access

namespace CodeAgent

/-- What a shell leaves; without an exit code it was still running when its time was up. -/
structure ShellOutcome where
  disk : Disk
  exitCode : Option Int
  stdout : Bytes
  stderr : Bytes

/-- From a disk, a directory, a command and a limit in milliseconds to what the command leaves. -/
abbrev Shell := Disk → Path → Text → Option Nat → ShellOutcome

/-- A command that was run, with what the terminal showed. -/
structure CommandRun where
  disk : Disk
  mirrored : List Text
  result : Except DiskFault CommandResult

namespace CommandRun

def heading (command : Text) : Text := "\r\n# Executing agent command: " ++ command ++ "\r\n"

/-- A time in seconds as whole milliseconds; none when it has no end. -/
def limitOf : Json → Option Nat
  | .int i => some (i.toNat * 1000)
  | .float x =>
    if !x.isFinite then none
    else if x.negative then some 0
    else
      let (n, d) := x.ratio
      some (n * 1000 / d)
  | _ => none

/-- The configured time, unless a time other than zero is given. -/
def timeLimit (c : Config) (given : Option Json) : Option Nat :=
  match given with
  | some v => limitOf (if v.isFalsy then c.get .commandTimeout else v)
  | none => limitOf (c.get .commandTimeout)

def refusal? (d : Disk) (directory : Path) (command : Text) : Option DiskFault :=
  match Disk.checkText command with
  | .error fault => some fault
  | .ok _ =>
    match d.stat directory with
    | .error fault => some fault
    | .ok .directory => none
    | .ok _ => some (.system .notDirectory directory)

/-- Runs a command; a limit of zero is up before anything happens. -/
def run (shell : Shell) (c : Config) (d : Disk) (directory : Path) (command : Text)
    (given : Option Json := none) : CommandRun :=
  match refusal? d directory command with
  | some fault => ⟨d, [heading command], .error fault⟩
  | none =>
    let limit := timeLimit c given
    let outcome : ShellOutcome :=
      if limit = some 0 then ⟨d, none, [], []⟩ else shell d directory command limit
    let maxOutput := c.int .commandMaxOutput
    let result : CommandResult := {
      command
      exitCode := outcome.exitCode
      stdout := CommandResult.decodeOutput outcome.stdout maxOutput
      stderr := CommandResult.decodeOutput outcome.stderr maxOutput
      timedOut := outcome.exitCode.isNone }
    ⟨outcome.disk, [heading command, result.render ++ "\r\n"], .ok result⟩

end CommandRun
end CodeAgent
