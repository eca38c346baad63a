import Hotload.Files.Access

/-!
Changes that others make to the files while the tool is at work.
-/
namespace Hotload.Files

inductive Edit where
  | directory (p : Path)
  | file (p : Path) (content : ByteArray) (modified : Int)
  | link (p : Path) (target : String)
  | touch (p : Path) (modified : Int)
  | remove (p : Path)

namespace Disk

/-- The location that a path names, its last link not followed. -/
def locate (d : Disk) (p : Path) : Outcome Location :=
  match d.look ⟨false, false⟩ p with
  | .ok (.found l _) => .ok l
  | .ok (.absent parent name) => .ok (parent ++ [name])
  | .error f => .error f

def withParents (d : Disk) (p : Path) : Disk :=
  (d.makeDirectories p.parent).2

def edit (d : Disk) : Edit → Outcome Disk
  | .directory p =>
    match d.makeDirectories p with
    | (.ok (), d') => .ok d'
    | (.error f, _) => .error f
  | .file p content modified => (d.withParents p).writeFile p content modified
  | .link p target => do
    let d := d.withParents p
    let l ← d.locate p
    return { d with tree := d.tree.put l (.link target) }
  | .touch p modified =>
    match d.look ⟨true, false⟩ p with
    | .ok (.found l (.file content _)) => .ok { d with tree := d.tree.put l (.file content modified) }
    | .ok (.found _ _) => .ok d
    | .ok (.absent _ _) => .error (missing p)
    | .error f => .error f
  | .remove p =>
    match d.look ⟨false, false⟩ p with
    | .ok (.found l _) => .ok { d with tree := d.tree.remove l }
    | .ok (.absent _ _) => .error (missing p)
    | .error f => .error f

end Disk

end Hotload.Files
