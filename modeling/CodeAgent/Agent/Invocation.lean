import CodeAgent.Json.Value

namespace CodeAgent

inductive ToolKind where
  | semanticSearch
  | applyDiffs
  | validateProject
  | runTests
  | getBlastRadius
  | showFile
  | replaceLines
  | insertCode
  | writeFile
  | editFile
  | listDirectory
  | searchFiles
  | runCommand
  | createDirectory
  | deleteFile
deriving DecidableEq

namespace ToolKind

def all : List ToolKind :=
  [.semanticSearch, .applyDiffs, .validateProject, .runTests, .getBlastRadius, .showFile,
   .replaceLines, .insertCode, .writeFile, .editFile, .listDirectory, .searchFiles, .runCommand,
   .createDirectory, .deleteFile]

def name : ToolKind → Text
  | .semanticSearch => "semantic_search"
  | .applyDiffs => "apply_diffs"
  | .validateProject => "validate_project"
  | .runTests => "run_tests"
  | .getBlastRadius => "get_blast_radius"
  | .showFile => "read_file"
  | .replaceLines => "replace_lines"
  | .insertCode => "insert_code"
  | .writeFile => "write_file"
  | .editFile => "edit_file"
  | .listDirectory => "list_directory"
  | .searchFiles => "search_files"
  | .runCommand => "run_command"
  | .createDirectory => "create_directory"
  | .deleteFile => "delete_file"

def ofName? (name : Text) : Option ToolKind := all.find? (·.name = name)

def nameList : Text := Text.joinWith ", " (all.map name)

def mutates : ToolKind → Bool
  | .writeFile | .editFile | .replaceLines | .insertCode | .deleteFile | .createDirectory
  | .applyDiffs | .runCommand => true
  | _ => false

end ToolKind

/-- A search text and what replaces its first occurrence. -/
structure Edit where
  search : Text
  replacement : Text
deriving DecidableEq

/-- Diff text for one file. -/
structure DiffChange where
  path : Text
  diff : Text
deriving DecidableEq

/-- A well-formed tool call. -/
inductive Invocation where
  | showFile (path : Text)
  | writeFile (path content : Text)
  | editFile (path : Text) (edits : List Edit)
  | replaceLines (path : Text) (startLine endLine : Nat) (content : Text)
  | insertCode (path : Text) (line : Nat) (content : Text)
  | listDirectory (path : Text)
  | searchFiles (pattern : Text) (include? : Option Text)
  | deleteFile (path : Text)
  | createDirectory (path : Text)
  | runCommand (command : Text)
  | validateProject
  | runTests
  | applyDiffs (changes : List DiffChange)
  | getBlastRadius (path : Text) (depth? : Option Nat)
  | semanticSearch (query : Text) (limit? : Option Nat)
deriving DecidableEq

namespace Invocation

def kind : Invocation → ToolKind
  | .showFile .. => .showFile
  | .writeFile .. => .writeFile
  | .editFile .. => .editFile
  | .replaceLines .. => .replaceLines
  | .insertCode .. => .insertCode
  | .listDirectory .. => .listDirectory
  | .searchFiles .. => .searchFiles
  | .deleteFile .. => .deleteFile
  | .createDirectory .. => .createDirectory
  | .runCommand .. => .runCommand
  | .validateProject => .validateProject
  | .runTests => .runTests
  | .applyDiffs .. => .applyDiffs
  | .getBlastRadius .. => .getBlastRadius
  | .semanticSearch .. => .semanticSearch

def Valid : Invocation → Prop
  | .editFile _ edits => edits ≠ []
  | .replaceLines _ s e _ => 1 ≤ s ∧ 1 ≤ e
  | .runCommand command => command ≠ []
  | .applyDiffs changes => changes ≠ []
  | .semanticSearch _ (some limit) => 1 ≤ limit
  | _ => True

end Invocation

/-- Why a parameter was refused. -/
inductive ParameterFault where
  | missing
  | notString
  | notInteger
  | fractional
  | notFinite
  | noNumeral
  | longNumeral
  | below (least : Nat)
  | emptyList
  | notList
  | notRecord (name : String)
  | emptyString
  | notUnicode
deriving DecidableEq

def ParameterFault.message : ParameterFault → Text
  | .missing => "Field required"
  | .notString => "Input should be a valid string"
  | .notInteger => "Input should be a valid integer"
  | .fractional => "Input should be a valid integer, got a number with a fractional part"
  | .notFinite => "Input should be a finite number"
  | .noNumeral => "Input should be a valid integer, unable to parse string as an integer"
  | .longNumeral => "Unable to parse input string as an integer, exceeded maximum size"
  | .below least => "Input should be greater than or equal to " ++ Text.ofNat least
  | .emptyList => "List should have at least 1 item after validation, not 0"
  | .notList => "Input should be a valid list"
  | .notRecord name => "Input should be a valid dictionary or instance of " ++ Text.ofString name
  | .emptyString => "String should have at least 1 character"
  | .notUnicode => "Input should be a valid string, unable to parse raw data as a unicode string"

/-- A refused parameter, named by the path to it. -/
structure ParameterProblem where
  place : List Text
  fault : ParameterFault
deriving DecidableEq

def ParameterProblem.message (p : ParameterProblem) : Text :=
  (match Text.joinWith "." p.place with
   | [] => "tool"
   | place => place) ++ ": " ++ p.fault.message

inductive CallFault where
  | unknownTool
  | parameters (problems : List ParameterProblem)

/-- A call that names no tool or has malformed parameters. `raw` keeps the object as it came. -/
structure InvalidCall where
  tool : Text
  fault : CallFault
  raw : List (Text × Json)

def InvalidCall.error (c : InvalidCall) : Text :=
  match c.fault with
  | .unknownTool =>
    "Unknown tool \"" ++ c.tool ++ "\". Available tools: " ++ ToolKind.nameList
  | .parameters problems =>
    "Invalid parameters for " ++ c.tool ++ ": " ++
      Text.joinWith "; " (problems.map ParameterProblem.message)

/-- A tool call as it was understood. -/
inductive ToolCall where
  | valid (invocation : Invocation)
  | invalid (call : InvalidCall)

def ToolCall.tool : ToolCall → Text
  | .valid invocation => invocation.kind.name
  | .invalid call => call.tool

def Invocation.summary : Invocation → Text
  | .showFile path => "Reading " ++ path
  | .writeFile path _ => "Writing " ++ path
  | .editFile path edits => "Editing " ++ path ++ " (" ++ Text.ofNat edits.length ++ " edits)"
  | .replaceLines path s e _ =>
    "Replacing lines " ++ Text.ofNat s ++ "-" ++ Text.ofNat e ++ " in " ++ path
  | .insertCode path line _ =>
    "Inserting code after line " ++ Text.ofNat line ++ " in " ++ path
  | .listDirectory path => "Listing " ++ (if path.isEmpty then ("project root" : Text) else path)
  | .searchFiles pattern include? =>
    "Searching for \"" ++ pattern ++ "\"" ++
      (match include? with
       | some (c :: r) => " in " ++ c :: r
       | _ => [])
  | .runCommand command => "Running: " ++ command
  | .createDirectory path => "Creating directory " ++ path
  | .deleteFile path => "Deleting " ++ path
  | .semanticSearch query _ => "Searching semantically for \"" ++ query ++ "\""
  | .getBlastRadius path _ => "Calculating blast radius for " ++ path
  | .applyDiffs changes => "Applying diffs to " ++ Text.ofNat changes.length ++ " files"
  | .validateProject => "Performing project-wide validation"
  | .runTests => "Running test suite"

def ToolCall.summary : ToolCall → Text
  | .valid invocation => invocation.summary
  | .invalid call => "Invalid call: " ++ call.tool

end CodeAgent
