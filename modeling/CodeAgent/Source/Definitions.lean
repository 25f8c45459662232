import CodeAgent.Source.Statement
import CodeAgent.Disk.Path
import CodeAgent.Digest.Sha256
import CodeAgent.Text.Word

namespace CodeAgent.Source

namespace Stmt

def parts : Stmt → List Stmt
  | .function _ _ body => body
  | .classDef _ _ body => body
  | .block ps => ps
  | _ => []

mutual
def height : Stmt → Nat
  | .function _ _ body => heightAll body + 1
  | .classDef _ _ body => heightAll body + 1
  | .block ps => heightAll ps + 1
  | _ => 1

def heightAll : List Stmt → Nat
  | [] => 0
  | s :: r => max s.height (heightAll r)
end

end Stmt

/-- One imported module, or the names that are imported from one. Dots in front count as levels. -/
structure ImportSpec where
  module : Text
  level : Nat := 0
  names : List Text := []
deriving DecidableEq

def Stmt.ownImports : Stmt → List ImportSpec
  | .importModules modules => modules.map fun m => ⟨m, 0, []⟩
  | .importFrom module level names => [⟨module, level, names⟩]
  | _ => []

def importsOf : (fuel : Nat) → List Stmt → List ImportSpec
  | 0, _ => []
  | n + 1, stmts => stmts.flatMap Stmt.ownImports ++ importsOf n (stmts.flatMap Stmt.parts)

/-- The imports of a file at any depth, outer statements first. -/
def imports (file : List Stmt) : List ImportSpec := importsOf (Stmt.heightAll file) file

inductive DefinitionKind where
  | function
  | classDef
  | method
  | constant
deriving DecidableEq

def DefinitionKind.name : DefinitionKind → Text
  | .function => "function"
  | .classDef => "class"
  | .method => "method"
  | .constant => "constant"

/-- A definition with its first and last line. -/
structure Definition where
  kind : DefinitionKind
  name : Text
  startLine : Nat
  endLine : Nat
deriving DecidableEq

def Definition.ofLines (kind : DefinitionKind) (name : Text) (lines : Lines) : Definition :=
  ⟨kind, name, lines.start, lines.last⟩

mutual
def classMembers (className : Text) : List Stmt → List Definition
  | [] => []
  | s :: r => member className s ++ classMembers className r

def member (className : Text) : Stmt → List Definition
  | .function name lines _ => [Definition.ofLines .method (className ++ "." ++ name) lines]
  | .classDef name lines body => Definition.ofLines .classDef name lines :: classMembers name body
  | _ => []
end

def Stmt.definitions : Stmt → List Definition
  | .function name lines _ => [Definition.ofLines .function name lines]
  | .classDef name lines body => Definition.ofLines .classDef name lines :: classMembers name body
  | .bindLambda names lines => names.map fun n => Definition.ofLines .constant n lines
  | _ => []

/-- The definitions of a file by start line; those of one line keep the order of the text. -/
def definitions (file : List Stmt) : List Definition :=
  (file.flatMap Stmt.definitions).mergeSort fun a b => a.startLine ≤ b.startLine

/-- A piece of a file to search for. -/
structure Chunk where
  id : Text
  path : Text
  kind : Text
  name : Text
  text : Text
  startLine : Nat
  endLine : Nat
  hash : Text
deriving DecidableEq

def hashText (t : Text) : Text := Sha256.hexDigest (Utf8.encodeAny t)

def chunkId (path : Text) (line : Nat) : Text := path ++ ":" ++ Text.ofNat line

def Definition.chunk (path : Text) (lines : List Text) (d : Definition) : Chunk :=
  let text := Text.unlines ((lines.take d.endLine).drop (d.startLine - 1))
  ⟨chunkId path d.startLine, path, d.kind.name, d.name, text, d.startLine, d.endLine, hashText text⟩

def firstOfEach : List Chunk → List Chunk
  | [] => []
  | c :: r => c :: (firstOfEach r).filter (·.id ≠ c.id)

def wholeChunk (path source : Text) : Chunk :=
  ⟨chunkId path 1, path, "other", (Path.ofText path).stem, source, 1, (Text.lines source).length,
   hashText source⟩

/-- A chunk for every definition; a file without definitions is one chunk unless it is blank. -/
def chunks (path source : Text) (file : List Stmt) : List Chunk :=
  match definitions file with
  | [] => if Text.isBlank source then [] else [wholeChunk path source]
  | ds => firstOfEach (ds.map (Definition.chunk path (Text.lines source)))

/-- Why a source text could not be read. -/
inductive SourceFault where
  | malformed
  | nulCharacter
  | notEncodable
  /-- The text is nested too deep for the stack on which it is read; this ends the call that reads it. -/
  | overNested (reason : Text)
deriving DecidableEq

def parse [Host] (stack : Stack) (source : Text) : Except SourceFault (List Stmt) :=
  match Text.toChars? source with
  | none => .error .notEncodable
  | some cs =>
    if cs.contains '\x00' then .error .nulCharacter
    else match Host.overNested? stack source with
      | some reason => .error (.overNested reason)
      | none =>
        match parse? cs with
        | some file => .ok file
        | none => .error .malformed

end CodeAgent.Source
