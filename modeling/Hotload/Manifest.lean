import Hotload.Files.Canonical

/-!
Finding the manifest of a project: in a directory or the nearest one above it, going by the text of the path, or where a
path given by hand leads.
-/
namespace Hotload.Manifest

/-- The first of some paths that is there; a path that cannot be looked at ends the search. -/
def firstPresent (d : Files.Disk) : List Files.Path → Outcome (Option Files.Path)
  | [] => .ok none
  | p :: ps =>
    match d.fileExists p with
    | .error f => .error f
    | .ok true => .ok (some p)
    | .ok false => firstPresent d ps

def candidates (d : Files.Disk) (directory : Files.Path) : List Files.Path :=
  (directory.absolute d.workingPath).ancestry.map (·.child Package.manifestName)

def find (d : Files.Disk) (directory : Files.Path) : Outcome (Option Files.Path) :=
  firstPresent d (candidates d directory)

/-- The manifest above a directory, which there must be. -/
def search (d : Files.Disk) (directory : Files.Path) : Outcome Files.Path := do
  match ← find d directory with
  | some p => return p
  | none => .error (.noManifest directory.toString)

/-- The manifest that a text leads to. Only what the system refuses makes it an invalid one. -/
def explicit (d : Files.Disk) (given : String) : Outcome Files.Path :=
  match d.canonical true (Files.Path.ofString given) with
  | .ok p => .ok p
  | .error f => .error (if f.isSystem then .invalidManifest given else f)

def resolve (d : Files.Disk) (given : Option String) (directory : Option String) : Outcome Files.Path :=
  match given with
  | some s => explicit d s
  | none => search d ((directory.map Files.Path.ofString).getD d.workingPath)

end Hotload.Manifest
