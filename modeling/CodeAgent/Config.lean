import CodeAgent.Json.Reader
import CodeAgent.Text.Case

namespace CodeAgent

inductive ConfigKey where
  | defaultProvider | ollamaUrl | ollamaModel | ollamaTimeout
  | openaiUrl | openaiModel | openaiKey
  | geminiUrl | geminiModel | geminiKey
  | modelTemperature
  | embeddingEnabled | embeddingModel | embeddingBatchSize
  | agentMaxIterations | toolResultMaxChars | stepPreviewChars
  | commandTimeout | commandMaxOutput
  | validateCommand | validateMarker | testCommand | testMarker
  | searchMaxResults | searchMaxFileSize | manifestMaxFiles | blastRadiusDepth
  | semanticSearchLimit | watchEnabled | workspacePath
  | host | port
deriving DecidableEq

namespace ConfigKey

def all : List ConfigKey :=
  [.defaultProvider, .ollamaUrl, .ollamaModel, .ollamaTimeout, .openaiUrl, .openaiModel, .openaiKey,
   .geminiUrl, .geminiModel, .geminiKey, .modelTemperature, .embeddingEnabled, .embeddingModel,
   .embeddingBatchSize, .agentMaxIterations, .toolResultMaxChars, .stepPreviewChars,
   .commandTimeout, .commandMaxOutput, .validateCommand, .validateMarker, .testCommand, .testMarker,
   .searchMaxResults, .searchMaxFileSize, .manifestMaxFiles, .blastRadiusDepth,
   .semanticSearchLimit, .watchEnabled, .workspacePath, .host, .port]

def name : ConfigKey → Text
  | .defaultProvider => "default_provider"
  | .ollamaUrl => "ollama_url"
  | .ollamaModel => "ollama_model"
  | .ollamaTimeout => "ollama_timeout"
  | .openaiUrl => "openai_url"
  | .openaiModel => "openai_model"
  | .openaiKey => "openai_key"
  | .geminiUrl => "gemini_url"
  | .geminiModel => "gemini_model"
  | .geminiKey => "gemini_key"
  | .modelTemperature => "model_temperature"
  | .embeddingEnabled => "embedding_enabled"
  | .embeddingModel => "embedding_model"
  | .embeddingBatchSize => "embedding_batch_size"
  | .agentMaxIterations => "agent_max_iterations"
  | .toolResultMaxChars => "tool_result_max_chars"
  | .stepPreviewChars => "step_preview_chars"
  | .commandTimeout => "command_timeout"
  | .commandMaxOutput => "command_max_output"
  | .validateCommand => "validate_command"
  | .validateMarker => "validate_marker"
  | .testCommand => "test_command"
  | .testMarker => "test_marker"
  | .searchMaxResults => "search_max_results"
  | .searchMaxFileSize => "search_max_file_size"
  | .manifestMaxFiles => "manifest_max_files"
  | .blastRadiusDepth => "blast_radius_depth"
  | .semanticSearchLimit => "semantic_search_limit"
  | .watchEnabled => "watch_enabled"
  | .workspacePath => "workspace_path"
  | .host => "host"
  | .port => "port"

def default : ConfigKey → Json
  | .defaultProvider => .str "ollama"
  | .ollamaUrl => .str "http://127.0.0.1:11434"
  | .ollamaModel => .str "llama3"
  | .ollamaTimeout => .float (Binary64.ofDecimal false 600 0)
  | .openaiUrl => .str "https://api.openai.com/v1/chat/completions"
  | .openaiModel => .str "gpt-4o-mini"
  | .openaiKey => .str []
  | .geminiUrl => .str "https://generativelanguage.googleapis.com/v1beta/models"
  | .geminiModel => .str "gemini-1.5-flash"
  | .geminiKey => .str []
  | .modelTemperature => .float (Binary64.ofDecimal false 1 (-1))
  | .embeddingEnabled => .bool true
  | .embeddingModel => .str "nomic-embed-text"
  | .embeddingBatchSize => .int 32
  | .agentMaxIterations => .int 20
  | .toolResultMaxChars => .int 15000
  | .stepPreviewChars => .int 500
  | .commandTimeout => .float (Binary64.ofDecimal false 60 0)
  | .commandMaxOutput => .int (10 * 1024 * 1024)
  | .validateCommand => .str "python -m compileall -q ."
  | .validateMarker => .str "pyproject.toml"
  | .testCommand => .str "python -m pytest -q"
  | .testMarker => .str "tests"
  | .searchMaxResults => .int 50
  | .searchMaxFileSize => .int 100000
  | .manifestMaxFiles => .int 2000
  | .blastRadiusDepth => .int 3
  | .semanticSearchLimit => .int 5
  | .watchEnabled => .bool true
  | .workspacePath => .str []
  | .host => .str "127.0.0.1"
  | .port => .int 3000

def ofName? (name : Text) : Option ConfigKey := all.find? (·.name = name)

def envName (k : ConfigKey) : Text := "CODEWRIGHT_" ++ Text.upperAscii k.name

end ConfigKey

/-- A value for every key. Values from a file are taken as they are. -/
structure Config where
  get : ConfigKey → Json

namespace Config

def default : Config := ⟨ConfigKey.default⟩

def set (c : Config) (k : ConfigKey) (v : Json) : Config :=
  ⟨fun k' => if k' = k then v else c.get k'⟩

/-- Reads the text of a variable as the kind of value that the default is. -/
def coerce? (k : ConfigKey) (t : Text) : Option Json :=
  match k.default with
  | .bool _ =>
    let word := Text.lower t
    some (.bool (word = ("true" : Text) || word = ("1" : Text) || word = ("yes" : Text)))
  | .int _ => (Decimal.readInt? t).map .int
  | .float _ => (Decimal.readFloat? t).map .float
  | _ => some (.str t)

/-- The environment wins over the file, and the file over the defaults. -/
def layered (environment : Text → Option Text) (file : List (Text × Json)) : Config :=
  ⟨fun k =>
    match (environment k.envName).bind (coerce? k) with
    | some v => v
    | none => (Json.lookup k.name file).getD k.default⟩

def override (c : Config) (fields : List (Text × Json)) : Config :=
  ⟨fun k => (Json.lookup k.name fields).getD (c.get k)⟩

def int (c : Config) (k : ConfigKey) : Int :=
  match c.get k with
  | .int i => i
  | .bool b => if b then 1 else 0
  | .float x => (x.toInt?).getD 0
  | _ => 0

def text (c : Config) (k : ConfigKey) : Text :=
  match c.get k with
  | .str t => t
  | _ => []

/-- Whether a switch is on; every value that is not empty or zero counts. -/
def flag (c : Config) (k : ConfigKey) : Bool := !(c.get k).isFalsy

end Config
end CodeAgent
