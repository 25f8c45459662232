import CodeAgent.Disk.Fault
import CodeAgent.Disk.Tree

namespace CodeAgent.Disk

/-- The longest name of an entry, and the shortest path that is refused, in bytes. -/
def maxName : Nat := 255
def maxPath : Nat := 4096

def maxLinks : Nat := 40

def nameSize (name : Text) : Nat := (Utf8.encodeAny name).length

/-- A byte that is no UTF-8 stands in a name as one of these surrogates. -/
def isEscapedByte (c : CodePoint) : Bool := 0xdc80 ≤ c.val && c.val < 0xdd00

/-- Text with other surrogates or with a null character is refused before the system sees it. -/
def checkText (t : Text) : Except DiskFault Unit :=
  match Utf8.encode (t.map fun c => if isEscapedByte c then default else c) with
  | .error fault => .error (.unwritable fault)
  | .ok _ => if t.any (·.val = 0) then .error .nulInPath else .ok ()

def checkPath (p : Path) : Except DiskFault Unit := checkText p.text

/-- One walk between two links: `enter` goes on where a link leads. -/
def walk (d : Disk) (follow : Bool) (enter : Place → List Text → Except Errno Place) :
    Place → List Text → Except Errno Place
  | at_, [] => .ok at_
  | at_, name :: rest =>
    if name = (".." : Text) then walk d follow enter at_.dropLast rest
    else if maxName < nameSize name then .error .nameTooLong
    else
      let here := at_ ++ [name]
      match d.lookup? here with
      | some .directory => walk d follow enter here rest
      | some (.link target) =>
        if rest.isEmpty && !follow then .ok here
        else
          let way := Path.ofText target
          enter (if way.isAbsolute then [] else at_) (way.parts ++ rest)
      | some (.file _) => if rest.isEmpty then .ok here else .error .notDirectory
      | none => if rest.isEmpty then .ok here else .error .noEntry

def walkLinks (d : Disk) (follow : Bool) : (links : Nat) → Place → List Text → Except Errno Place
  | 0 => walk d follow fun _ _ => .error .linkLoop
  | n + 1 => walk d follow (walkLinks d follow n)

/-- The place that a path names. Its last component may be missing, or be a link that is not followed. -/
def locate (d : Disk) (follow : Bool) (p : Path) : Except DiskFault Place :=
  match checkPath p with
  | .error fault => .error fault
  | .ok _ =>
    if maxPath ≤ nameSize p.text then .error (.system .nameTooLong p)
    else
      match walkLinks d follow maxLinks [] p.parts with
      | .ok place => .ok place
      | .error errno => .error (.system errno p)

def stat (d : Disk) (p : Path) : Except DiskFault Entry :=
  match d.locate true p with
  | .error fault => .error fault
  | .ok place =>
    match d.lookup? place with
    | some e => .ok e
    | none => .error (.system .noEntry p)

/-- A question about what a path names; an absent path answers no. -/
def ask (d : Disk) (p : Path) (question : Entry → Bool) : Except DiskFault Bool :=
  match d.stat p with
  | .ok e => .ok (question e)
  | .error fault => if fault.meansAbsent then .ok false else .error fault

def exists? (d : Disk) (p : Path) : Except DiskFault Bool := d.ask p fun _ => true

/-- Whether something stands at a path, be it a link that leads nowhere. -/
def stands (d : Disk) (p : Path) : Bool :=
  match d.locate false p with
  | .ok place => (d.lookup? place).isSome
  | .error _ => false

def isDirectory (d : Disk) (p : Path) : Except DiskFault Bool := d.ask p (· = .directory)

def isFile (d : Disk) (p : Path) : Except DiskFault Bool :=
  d.ask p fun
    | .file _ => true
    | _ => false

/-- How rewriting stops early: at a refused path, or at a link that leads back to itself. -/
inductive Stuck where
  | refused (fault : DiskFault)
  | circular (at_ : Place)

/-- Rewrites what follows a place. `enter` rewrites the target of a link. -/
def rewrite (d : Disk) (enter : (link : Place) → (start : Place) → List Text → Except Stuck Place) :
    Place → List Text → Except Stuck Place
  | at_, [] => .ok at_
  | at_, name :: rest =>
    if name = (".." : Text) then rewrite d enter at_.dropLast rest
    else
      let here := at_ ++ [name]
      match checkPath ⟨[Path.slash], here⟩ with
      | .error fault => .error (.refused fault)
      | .ok _ =>
        match d.lookup? here with
        | some (.link target) =>
          let way := Path.ofText target
          match enter here (if way.isAbsolute then [] else at_) way.parts with
          | .ok place => rewrite d enter place rest
          | .error (.circular place) => .error (.circular (place ++ rest))
          | .error stuck => .error stuck
        | _ => rewrite d enter here rest

/-- Rewrites with the links that are being followed at hand; one of them again is a circle. -/
def rewriteLinks (d : Disk) :
    (links : Nat) → (following : List Place) → Place → List Text → Except Stuck Place
  | 0, _ => rewrite d fun link _ _ => .error (.circular link)
  | n + 1, following =>
    rewrite d fun link start way =>
      if link ∈ following then .error (.circular link)
      else rewriteLinks d n (link :: following) start way

/-- The path without links, dots and double dots. What is missing stays as it is written. -/
def resolve (d : Disk) (p : Path) : Except DiskFault Path :=
  match rewriteLinks d d.entries.length [] [] p.parts with
  | .ok place => .ok ⟨[Path.slash], place⟩
  | .error (.refused fault) => .error fault
  | .error (.circular place) => .error (.circularLink ⟨[Path.slash], place⟩)

end CodeAgent.Disk
