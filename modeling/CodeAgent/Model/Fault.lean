import CodeAgent.Json.Value

namespace CodeAgent

/-- A provider call that failed. It ends the task that made it. -/
structure BackendFault where
  reason : Text
  status : Option Int := none
  provider : Option Text := none
deriving DecidableEq

def BackendFault.message (f : BackendFault) : Text :=
  (match f.provider with
   | some (c :: r) => c :: r ++ " "
   | _ => []) ++ "backend error" ++
  (match f.status with
   | some status => " (HTTP " ++ Text.ofInt status ++ ")"
   | none => []) ++ ": " ++ f.reason

/-- How a call can fail: as a provider failure, or on data whose form nobody checks. -/
inductive ProviderFault where
  | backend (fault : BackendFault)
  | illTyped
  | noAttribute
  | noNumber
  | outOfRange
  | tooDeep

end CodeAgent
