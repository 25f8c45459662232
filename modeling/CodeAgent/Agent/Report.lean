import CodeAgent.Number.Decimal

namespace CodeAgent

/-- The start of a text that a possibly negative length keeps; a negative one counts from the end. -/
def Text.takeInt (n : Int) (t : Text) : Text :=
  if 0 ≤ n then t.take n.toNat else t.take (t.length - n.natAbs)

/-- A definition found by meaning. -/
structure ScoredChunk where
  path : Text
  kind : Text
  name : Text
  text : Text
  startLine : Int
  endLine : Int
  score : Binary64

namespace Report

def truncate (limit : Int) (t : Text) : Text :=
  if (t.length : Int) ≤ limit then t
  else Text.takeInt limit t ++ "\n... (truncated, " ++ Text.ofNat t.length ++ " chars total)"

def preview (limit : Int) (t : Text) : Text := Text.takeInt limit t

private def searchResult (c : ScoredChunk) : Text :=
  "--- " ++ c.path ++ ":" ++ Text.ofInt c.startLine ++ "-" ++ Text.ofInt c.endLine ++ " (score " ++
    Decimal.fixed 3 c.score ++ ") ---\n" ++ c.text

def searchResults (results : List ScoredChunk) : Text :=
  if results.isEmpty then "No relevant code found."
  else Text.joinWith "\n\n" (results.map searchResult)

def affectedFiles (display : Text) (affected : List Text) : Text :=
  if affected.isEmpty then "No files depend on " ++ display ++ "."
  else
    "Files affected by changing " ++ display ++ ":\n" ++
      Text.unlines (affected.map fun p => "- " ++ p)

end Report
end CodeAgent
