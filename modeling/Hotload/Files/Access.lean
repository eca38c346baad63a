import Hotload.Files.Walk

/-!
Looking at files, reading, writing and making directories. A question whether something is there is answered with no
where the way leads nowhere; a name or path that is too long is a failure all the same.
-/
namespace Hotload.Files.Disk

def missing (p : Path) : Failure :=
  .system .noEntry p.toString

/-- Failures that only say that there is nothing. -/
def meansNothing : Failure → Bool
  | .system e _ => e = Errno.noEntry || e = Errno.notDirectory || e = Errno.loop
  | .nulByte => true
  | _ => false

/-- What a path leads to when its links are followed. -/
def node? (d : Disk) (p : Path) : Outcome (Option Node) :=
  match d.look ⟨true, false⟩ p with
  | .ok (.found _ n) => .ok (some n)
  | .ok (.absent _ _) => .ok none
  | .error f => if meansNothing f then .ok none else .error f

def fileExists (d : Disk) (p : Path) : Outcome Bool :=
  (d.node? p).map (·.isSome)

def isFile (d : Disk) (p : Path) : Outcome Bool :=
  (d.node? p).map fun
    | some (.file _ _) => true
    | _ => false

def isDirectory (d : Disk) (p : Path) : Outcome Bool :=
  (d.node? p).map fun
    | some .directory => true
    | _ => false

def readFile (d : Disk) (p : Path) : Outcome ByteArray :=
  match d.look ⟨true, false⟩ p with
  | .ok (.found _ (.file content _)) => .ok content
  | .ok (.found _ _) => .error (.system .isDirectory p.toString)
  | .ok (.absent _ _) => .error (missing p)
  | .error f => .error f

/-- Writes a file, through a link if there is one. -/
def writeFile (d : Disk) (p : Path) (content : ByteArray) (modified : Int) : Outcome Disk :=
  match d.look ⟨true, true⟩ p with
  | .ok (.found l (.file _ _)) => .ok { d with tree := d.tree.put l (.file content modified) }
  | .ok (.found _ _) => .error (.system .isDirectory p.toString)
  | .ok (.absent parent name) => .ok { d with tree := d.tree.put (parent ++ [name]) (.file content modified) }
  | .error f => .error f

/-- Makes one directory in a directory that is there. -/
def makeDirectory (d : Disk) (p : Path) : Outcome Disk :=
  match d.look ⟨false, false⟩ p with
  | .ok (.found _ _) => .error (.system .present p.toString)
  | .ok (.absent parent name) => .ok { d with tree := d.tree.put (parent ++ [name]) .directory }
  | .error f => .error f

/-- What to make of a directory that could not be made: it may be there already. -/
def settle (d : Disk) (p : Path) (f : Failure) : Outcome Unit :=
  if f.isSystem then
    match d.isDirectory p with
    | .ok true => .ok ()
    | .ok false => .error f
    | .error g => .error g
  else .error f

def isMissing : Failure → Bool
  | .system e _ => e = Errno.noEntry
  | _ => false

/-- Makes a directory and those above it that are missing. What was made stays, also on a failure. -/
def makeDirectories (d : Disk) (p : Path) : Outcome Unit × Disk :=
  match d.makeDirectory p with
  | .ok d' => (.ok (), d')
  | .error f =>
    if isMissing f then
      if _none : p.parts = [] then (.error f, d)
      else
        match makeDirectories d p.parent with
        | (.error g, d') => (.error g, d')
        | (.ok (), d') =>
          match d'.makeDirectory p with
          | .ok d'' => (.ok (), d'')
          | .error g => (if isMissing g then .error g else d'.settle p g, d')
    else (d.settle p f, d)
termination_by p.parts.length
decreasing_by
  have := List.length_pos_iff.2 _none
  simp only [Path.parent, List.length_dropLast]
  omega

end Hotload.Files.Disk
