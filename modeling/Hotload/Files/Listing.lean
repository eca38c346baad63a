import Hotload.Files.Access

/-!
The files below some paths and when they were modified. A directory is searched at every depth but not through links to
other directories; a link to a file counts with the time of that file, a link to nothing is left out. The listing is
sorted by the text of the paths and has no path twice.
-/
namespace Hotload.Files

abbrev Listing := List (Path × Int)

def pathBefore (p q : Path) : Bool :=
  p.toString < q.toString

/-- Puts a path into a sorted listing in place of the same path. -/
def Listing.insert (p : Path) (modified : Int) : Listing → Listing
  | [] => [(p, modified)]
  | (q, m) :: r =>
    if p = q then (p, modified) :: r
    else if pathBefore p q then (p, modified) :: (q, m) :: r
    else (q, m) :: Listing.insert p modified r

def Listing.ofList (es : List (Path × Int)) : Listing :=
  es.foldl (fun l e => Listing.insert e.1 e.2 l) []

namespace Disk

/-- The time of the file that a path leads to. -/
def modified? (d : Disk) (p : Path) : Option Int :=
  match d.look ⟨true, false⟩ p with
  | .ok (.found _ (.file _ m)) => some m
  | _ => none

/-- Paths of all files below a directory. -/
def filesBelow (d : Disk) (l : Location) (p : Path) : List Path :=
  (d.tree.below l).filterMap fun e =>
    match e.2 with
    | .directory => none
    | .file _ _ | .link _ => some ⟨p.anchor, p.parts ++ e.1⟩

/-- The files that one watched path stands for. -/
def filesAt (d : Disk) (p : Path) : Outcome (List Path) :=
  match d.look ⟨true, false⟩ p with
  | .ok (.found l .directory) => .ok (d.filesBelow l p)
  | .ok (.found _ _) => .ok [p]
  | .ok (.absent _ _) => .ok []
  | .error f => if meansNothing f then .ok [] else .error f

def snapshot (d : Disk) (ps : List Path) : Outcome Listing := do
  let files ← ps.mapM d.filesAt
  return Listing.ofList (files.flatten.filterMap fun p => (d.modified? p).map (p, ·))

end Disk

end Hotload.Files
