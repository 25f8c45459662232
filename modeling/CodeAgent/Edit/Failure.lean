import CodeAgent.Text.Basic

namespace CodeAgent

/-- A transaction that failed, with the paths that rolling back could not restore and why. -/
structure TransactionFailure where
  cause : Text
  rollbackErrors : List (Text × Text) := []
deriving DecidableEq

namespace TransactionFailure

def rolledBack (f : TransactionFailure) : Bool := f.rollbackErrors.isEmpty

def message (f : TransactionFailure) : Text :=
  if f.rolledBack then f.cause ++ ". No changes were saved (rollback successful)."
  else
    f.cause ++ ". Rollback FAILED for: " ++
      Text.joinWith ", " (f.rollbackErrors.map fun (path, error) => path ++ " (" ++ error ++ ")") ++
      ". Inspect these files manually."

end TransactionFailure
end CodeAgent
