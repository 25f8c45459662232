import CodeAgent.CommandLine.Arguments
import CodeAgent.CommandLine.Layout

namespace CodeAgent.CommandLine

def programName : Text := "codewright"

def version : Text := "0.1.0"

structure ServeOptions where
  host : Option Text := none
  port : Option Int := none
  workspace : Option Text := none
deriving DecidableEq

structure RunOptions where
  task : Text := []
  workspace : Text := "."
  provider : Option Text := none
  model : Text := []
  apiKey : Text := []
  activeFile : Option Text := none
  /-- Whether every command of the model is approved without asking. -/
  approveAll : Bool := false
deriving DecidableEq

structure IndexOptions where
  workspace : Text := "."
deriving DecidableEq

structure BlastOptions where
  path : Text := []
  workspace : Text := "."
  depth : Option Int := none
deriving DecidableEq

structure SearchOptions where
  query : Text := []
  workspace : Text := "."
  limit : Option Int := none
deriving DecidableEq

inductive Subcommand where
  | serve (o : ServeOptions)
  | run (o : RunOptions)
  | index (o : IndexOptions)
  | blastRadius (o : BlastOptions)
  | search (o : SearchOptions)
deriving DecidableEq

/-- One call of the program. -/
structure Call where
  configFile : Option Text := none
  subcommand : Option Subcommand := none
deriving DecidableEq

/-- What a call prints, and the status that it ends with if it ends the program. -/
structure Output where
  stdout : Text := []
  stderr : Text := []
  exit : Option Nat := none
deriving DecidableEq

def workspaceNames : List Text := ["--workspace", "-w"]

def subprogram (name : Text) : Text := programName ++ " " ++ name

def serveGrammar : Grammar ServeOptions where
  program := subprogram "serve"
  switches := [.help,
    ⟨["--host"], .text fun v o => { o with host := some v }, "Host to bind to"⟩,
    ⟨["--port"], .number fun n o => { o with port := some n }, "Port to bind to"⟩,
    ⟨workspaceNames, .text fun v o => { o with workspace := some v }, "Workspace to open at startup"⟩]

def runGrammar : Grammar RunOptions where
  program := subprogram "run"
  switches := [.help,
    ⟨workspaceNames, .text fun v o => { o with workspace := v },
      "Project root (default: current directory)"⟩,
    ⟨["--provider"], .text fun v o => { o with provider := some v }, "ollama, openai or gemini"⟩,
    ⟨["--model"], .text fun v o => { o with model := v }, "Model name override"⟩,
    ⟨["--api-key"], .text fun v o => { o with apiKey := v }, "API key for openai/gemini"⟩,
    ⟨["--active-file"], .text fun v o => { o with activeFile := some v },
      "File currently open in the editor"⟩,
    ⟨["--yes", "-y"], .set fun o => { o with approveAll := true },
      "Approve every run_command without asking"⟩]
  operand := .one "task" "Task description" fun v o => { o with task := v }

def indexGrammar : Grammar IndexOptions where
  program := subprogram "index"
  switches := [.help,
    ⟨workspaceNames, .text fun v o => { o with workspace := v }, "Project root"⟩]

def blastGrammar : Grammar BlastOptions where
  program := subprogram "blast-radius"
  switches := [.help,
    ⟨workspaceNames, .text fun v o => { o with workspace := v }, "Project root"⟩,
    ⟨["--depth"], .number fun n o => { o with depth := some n }, "Maximum import hops"⟩]
  operand := .one "path" "File path, relative to the workspace" fun v o => { o with path := v }

def searchGrammar : Grammar SearchOptions where
  program := subprogram "search"
  switches := [.help,
    ⟨workspaceNames, .text fun v o => { o with workspace := v }, "Project root"⟩,
    ⟨["--limit"], .number fun n o => { o with limit := some n }, "Number of results"⟩]
  operand := .one "query" "Natural-language query" fun v o => { o with query := v }

def choices : List (Text × Text) :=
  [("serve", "Start the HTTP/SSE API server"),
   ("run", "Run one task against a workspace"),
   ("index", "Build or refresh the semantic index"),
   ("blast-radius", "List files affected by changing a file"),
   ("search", "Semantic code search")]

/-- What precedes the command: the configuration file, and then the command with its arguments. -/
structure Opening where
  configFile : Option Text := none
  arguments : List Text := []

def openingGrammar : Grammar Opening where
  program := programName
  about := programName ++ ": autonomous coding agent engine"
  switches := [.help,
    ⟨["--version", "-v"], .version, "show program's version number and exit"⟩,
    ⟨["--config"], .text fun v o => { o with configFile := some v },
      "Path to custom configuration file (default: ~/.codewright/config.json)"⟩]
  operand := .command "command" "Command to run" choices fun ts o => { o with arguments := ts }

def Grammar.stopped {σ : Type} (g : Grammar σ) : Stop → Output
  | .help => { stdout := g.help, exit := some 0 }
  | .version => { stdout := programName ++ " " ++ version ++ "\n", exit := some 0 }
  | .refused message =>
    { stderr := g.usage ++ g.program ++ ": error: " ++ message ++ "\n", exit := some 2 }

def Grammar.readOr {σ : Type} (g : Grammar σ) (start : σ) (arguments : List Text) :
    Except Output (σ × List Text) :=
  (g.read start arguments).mapError g.stopped

namespace Subcommand

def unknown (name : Text) : Output :=
  openingGrammar.stopped (.refused ("argument command: invalid choice: " ++ Text.quoted name ++
    " (choose from " ++ Text.joinWith ", " (choices.map fun c => Text.quoted c.1) ++ ")"))

/-- Reads a command from its name and its arguments. Arguments that nothing takes are given beside it. -/
def read (name : Text) (arguments : List Text) : Except Output (Subcommand × List Text) :=
  let as {σ : Type} (g : Grammar σ) (start : σ) (make : σ → Subcommand) :=
    (g.readOr start arguments).map fun (o, extras) => (make o, extras)
  if name = ("serve" : Text) then as serveGrammar {} .serve
  else if name = ("run" : Text) then as runGrammar {} .run
  else if name = ("index" : Text) then as indexGrammar {} .index
  else if name = ("blast-radius" : Text) then as blastGrammar {} .blastRadius
  else if name = ("search" : Text) then as searchGrammar {} .search
  else .error (unknown name)

end Subcommand

/-- Reads the arguments of the program. Arguments that nothing takes are refused once all are read. -/
def Call.read (arguments : List Text) : Except Output Call := do
  let (opening, extras) ← openingGrammar.readOr {} arguments
  let (subcommand, more) ←
    match opening.arguments with
    | [] => .ok (none, [])
    | name :: rest => (Subcommand.read name rest).map fun (s, more) => (some s, more)
  match extras ++ more with
  | [] => return { configFile := opening.configFile, subcommand }
  | unused =>
    .error (openingGrammar.stopped (.refused ("unrecognized arguments: " ++ Text.joinWith " " unused)))

end CodeAgent.CommandLine
