import CodeAgent.Text.Basic

namespace CodeAgent.Lines

def numberFrom : Nat → List Text → List Text
  | _, [] => []
  | n, line :: rest => (Text.ofNat n ++ ": " ++ line) :: numberFrom (n + 1) rest

def numbered (t : Text) : Text := Text.unlines (numberFrom 1 (Text.lines t))

/-- Puts a content in the place of the lines from the first to the last; lines that are not there are
passed over. -/
def replace (first last : Nat) (content t : Text) : Text :=
  let lines := Text.lines t
  Text.unlines (lines.take (first - 1) ++ [content] ++ lines.drop (max (first - 1) last))

/-- Puts a content after a line, at the top for line zero and at the end for a line that is not there. -/
def insertAfter (line : Nat) (content t : Text) : Text :=
  let lines := Text.lines t
  Text.unlines (lines.take line ++ [content] ++ lines.drop line)

end CodeAgent.Lines
