import Hotload.Failure
import Hotload.Files.Tree

/-!
Following a path through a file tree, name by name. Links are followed where they are met, the last one only on demand,
and at most forty of them on the whole way.
-/
namespace Hotload.Files

/-- Where a way ends: at an entry, or at a name that is not there in a directory that is. -/
inductive Landing where
  | found (location : Location) (node : Node)
  | absent (parent : Location) (name : String)

/-- Whether a link at the end is followed, and whether a file is to be made there. -/
structure Intent where
  follow : Bool
  create : Bool

def nameLimit : Nat := 255

def pathLimit : Nat := 4096

def linkLimit : Nat := 40

def isRootedText (target : String) : Bool :=
  target.toList.head? = some '/'

def Tree.walk (t : Tree) (intent : Intent) (links : Nat) (here : Location) : List String → Except Errno Landing
  | [] => .ok (.found here .directory)
  | name :: rest =>
    if Path.isIdle name then t.walk intent links here rest
    else if name = ".." then t.walk intent links here.dropLast rest
    else if intent.create && !rest.isEmpty && rest.all (· = "") then .error .isDirectory
    else if nameLimit < name.utf8ByteSize then .error .nameTooLong
    else
      match t.get? (here ++ [name]) with
      | none => if rest.isEmpty then .ok (.absent here name) else .error .noEntry
      | some .directory => t.walk intent links (here ++ [name]) rest
      | some (.file content modified) =>
        if rest.isEmpty then .ok (.found (here ++ [name]) (.file content modified)) else .error .notDirectory
      | some (.link target) =>
        if rest.isEmpty && !intent.follow then .ok (.found (here ++ [name]) (.link target))
        else
          match links with
          | 0 => .error .loop
          | links + 1 => t.walk intent links (if isRootedText target then [] else here) (components target ++ rest)
termination_by names => (links, names.length)

/-- A file tree with the directory that relative paths start from. Whoever follows links one by one has room for more of
them than the system follows. -/
structure Disk where
  tree : Tree
  workingDirectory : Location
  spare : Nat

namespace Disk

/-- How deep links may lead into other links. -/
def nesting (d : Disk) : Nat :=
  linkLimit + d.spare

def workingPath (d : Disk) : Path :=
  ⟨.rooted, d.workingDirectory⟩

def start (d : Disk) (p : Path) : Location :=
  if p.isAbsolute then [] else d.workingDirectory

/-- Follows a path; a failure is that of the system with the path as it is written. -/
def look (d : Disk) (intent : Intent) (p : Path) : Outcome Landing :=
  if p.hasNul then .error .nulByte
  else if pathLimit ≤ p.byteSize then .error (.system .nameTooLong p.toString)
  else
    match d.tree.walk intent linkLimit (d.start p) p.parts with
    | .ok landing => .ok landing
    | .error e => .error (.system e p.toString)

end Disk

end Hotload.Files
