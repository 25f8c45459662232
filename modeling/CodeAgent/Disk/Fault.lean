import CodeAgent.Disk.Path
import CodeAgent.Text.Quoted
import CodeAgent.Text.Utf8

namespace CodeAgent

/-- Failures that the system reports, with the numbers and texts of the standard. -/
inductive Errno where
  | noEntry | exists_ | notDirectory | isDirectory | nameTooLong | notEmpty | linkLoop
  /-- A reason that does not lie in the tree, such as permissions, space or the medium. -/
  | other (number : Nat) (reason : Text)
deriving DecidableEq

def Errno.number : Errno → Nat
  | .noEntry => 2
  | .exists_ => 17
  | .notDirectory => 20
  | .isDirectory => 21
  | .nameTooLong => 36
  | .notEmpty => 39
  | .linkLoop => 40
  | .other number _ => number

def Errno.reason : Errno → Text
  | .noEntry => "No such file or directory"
  | .exists_ => "File exists"
  | .notDirectory => "Not a directory"
  | .isDirectory => "Is a directory"
  | .nameTooLong => "File name too long"
  | .notEmpty => "Directory not empty"
  | .linkLoop => "Too many levels of symbolic links"
  | .other _ reason => reason

/-- Why an access failed. The later ones are found before the system is asked or after it has answered. -/
inductive DiskFault where
  | system (errno : Errno) (path : Path)
  | nulInPath
  | circularLink (path : Path)
  | noHome
  | unwritable (fault : Utf8.EncodeFault)
  | unreadable (fault : Utf8.DecodeFault)
  /-- A source text was read that is nested too deep for its reader. -/
  | overNested (reason : Text)
deriving DecidableEq

namespace DiskFault

def message : DiskFault → Text
  | .system errno path =>
    "[Errno " ++ Text.ofNat errno.number ++ "] " ++ errno.reason ++ ": " ++ Text.quoted path.text
  | .nulInPath => "embedded null byte"
  | .circularLink path => "Symlink loop from " ++ Text.quoted path.text
  | .noHome => "Could not determine home directory."
  | .unwritable fault => fault.message
  | .unreadable fault => fault.message
  | .overNested reason => reason

def isSystem : DiskFault → Bool
  | .system _ _ => true
  | _ => false

/-- Whether the text of a path was refused before the system saw it. -/
def refusesText : DiskFault → Bool
  | .nulInPath | .unwritable _ => true
  | _ => false

/-- Whether a path with this failure counts as absent: nothing stands there or can stand there. -/
def meansAbsent : DiskFault → Bool
  | .system .noEntry _ | .system .notDirectory _ | .system .linkLoop _ => true
  | .nulInPath | .unwritable _ => true
  | _ => false

end DiskFault
end CodeAgent
