import CodeAgent.Json.Value
import CodeAgent.Text.Utf8
import CodeAgent.Text.Word

namespace CodeAgent

/-- A finished command. A command that ran out of time has no exit code. -/
structure CommandResult where
  command : Text
  exitCode : Option Int
  stdout : Text
  stderr : Text
  timedOut : Bool
deriving DecidableEq

namespace CommandResult

def success (r : CommandResult) : Bool := r.exitCode = some 0 && !r.timedOut

/-- Both streams, the second one under its own heading when it is not empty. -/
private def streams (r : CommandResult) : Text :=
  (r.stdout ++ (if r.stderr.isEmpty then ([] : Text) else "\nSTDERR: " ++ r.stderr)).trim

def render (r : CommandResult) : Text :=
  if r.timedOut then ("Command timed out: " ++ r.command ++ "\n" ++ r.streams).trim
  else if r.success then
    (if r.streams.isEmpty then ("(command completed with no output)" : Text) else r.streams)
  else
    ("Command exited with error (exit code " ++
      (match r.exitCode with
       | some code => Text.ofInt code
       | none => "None") ++ "):\n" ++ r.stdout ++ "\n" ++ r.stderr).trim

def toJson (r : CommandResult) : Json :=
  .obj [("command", .str r.command), ("exit_code", (r.exitCode.map Json.int).getD .null),
    ("stdout", .str r.stdout), ("stderr", .str r.stderr), ("timed_out", .bool r.timedOut),
    ("success", .bool r.success), ("render", .str r.render)]

/-- Output up to a number of bytes. A negative limit counts from the end. -/
def decodeOutput (bytes : Bytes) (limit : Int) : Text :=
  let kept := if 0 ≤ limit then limit.toNat else bytes.length - limit.natAbs
  let text := Utf8.decodeLossy (bytes.take kept)
  if limit < bytes.length then
    text ++ "\n... (output truncated at " ++ Text.ofInt limit ++ " bytes)"
  else text

end CommandResult
end CodeAgent
