import CodeAgent.Agent.Invocation

namespace CodeAgent

def Edit.toJson (e : Edit) : Json :=
  .obj [("search", .str e.search), ("replacement", .str e.replacement)]

def DiffChange.toJson (c : DiffChange) : Json := .obj [("path", .str c.path), ("diff", .str c.diff)]

namespace Invocation

private def nullable {α : Type} (write : α → Json) (a : Option α) : Json := (a.map write).getD .null

def parameters : Invocation → List (Text × Json)
  | .showFile path | .listDirectory path | .deleteFile path | .createDirectory path => [("path", .str path)]
  | .writeFile path content => [("path", .str path), ("content", .str content)]
  | .editFile path edits => [("path", .str path), ("edits", .arr (edits.map Edit.toJson))]
  | .replaceLines path first last content =>
    [("path", .str path), ("start_line", .int first), ("end_line", .int last), ("content", .str content)]
  | .insertCode path line content => [("path", .str path), ("line", .int line), ("content", .str content)]
  | .searchFiles pattern include? => [("pattern", .str pattern), ("include", nullable .str include?)]
  | .runCommand command => [("command", .str command)]
  | .validateProject | .runTests => []
  | .applyDiffs changes => [("changes", .arr (changes.map DiffChange.toJson))]
  | .getBlastRadius path depth? => [("path", .str path), ("depth", nullable (fun n => .int n) depth?)]
  | .semanticSearch query limit? => [("query", .str query), ("limit", nullable (fun n => .int n) limit?)]

def fields (i : Invocation) : List (Text × Json) := ("tool", .str i.kind.name) :: i.parameters

def toJson (i : Invocation) : Json := .obj i.fields

end Invocation

/-- A call as it is told to watchers, with its summary. One that is invalid comes with what is wrong with
it and with the object that the model wrote. -/
def ToolCall.toJson (c : ToolCall) : Json :=
  match c with
  | .valid i =>
    let told : List (Text × Json) := [("summary", .str c.summary), ("valid", .bool true)]
    .obj (i.fields ++ told)
  | .invalid i =>
    .obj [("tool", .str i.tool), ("summary", .str c.summary), ("valid", .bool false), ("error", .str i.error),
      ("raw", .obj i.raw)]

end CodeAgent
