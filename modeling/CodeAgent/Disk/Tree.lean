import CodeAgent.Disk.Path
import CodeAgent.Table
import CodeAgent.Text.Utf8

namespace CodeAgent

abbrev Place := List Text

inductive Entry where
  | file (bytes : Bytes)
  | directory
  | link (target : Text)
deriving DecidableEq

structure Disk where
  entries : Table Place Entry
deriving DecidableEq

namespace Disk

def empty : Disk := ⟨[]⟩

def lookup? (d : Disk) (at_ : Place) : Option Entry :=
  if at_.isEmpty then some .directory else Table.get? at_ d.entries

def put (d : Disk) (at_ : Place) (e : Entry) : Disk := ⟨Table.set at_ e d.entries⟩

def erase (d : Disk) (at_ : Place) : Disk := ⟨Table.erase at_ d.entries⟩

def eraseBelow (d : Disk) (at_ : Place) : Disk := ⟨d.entries.filter fun (p, _) => !at_.isPrefixOf p⟩

def nameIn? (directory at_ : Place) : Option Text :=
  if at_.dropLast = directory then at_.getLast? else none

def children (d : Disk) (directory : Place) : List (Text × Entry) :=
  (d.entries.filterMap fun (p, e) => (nameIn? directory p).map (·, e)).mergeSort
    fun a b => Text.ble a.1 b.1

/-- A bound on the number of directories that can stand inside each other. -/
def depth (d : Disk) : Nat := d.entries.foldl (fun n (p, _) => max n p.length) 0

end Disk
end CodeAgent
