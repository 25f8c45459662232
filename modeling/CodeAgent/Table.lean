namespace CodeAgent

abbrev Table (κ ν : Type) := List (κ × ν)

namespace Table

variable {κ ν : Type} [DecidableEq κ]

def get? (key : κ) : Table κ ν → Option ν
  | [] => none
  | (k, v) :: r => if k = key then some v else get? key r

def set (key : κ) (value : ν) : Table κ ν → Table κ ν
  | [] => [(key, value)]
  | (k, v) :: r => if k = key then (k, value) :: r else (k, v) :: set key value r

def erase (key : κ) (t : Table κ ν) : Table κ ν := t.filter (·.1 ≠ key)

def ofPairs (pairs : List (κ × ν)) : Table κ ν :=
  pairs.foldl (fun t x => set x.1 x.2 t) []

def keys (t : Table κ ν) : List κ := t.map (·.1)

end Table
end CodeAgent
