import Hotload.Files.Canonical
import Hotload.Text.Blank

/-!
Creating a package: a directory of sources, a manifest that names the package, and the source of an entry point unless
there is one already. A package is not created over another one.
-/
namespace Hotload.Package

def isNameChar (c : Char) : Bool :=
  (0x41 ≤ c.toNat && c.toNat ≤ 0x5a) || (0x61 ≤ c.toNat && c.toNat ≤ 0x7a) || (0x30 ≤ c.toNat && c.toNat ≤ 0x39)
    || c = '_' || c = '-'

/-- Writes one underscore for each run of characters that a name cannot have. -/
def squeeze : List Char → List Char
  | [] => []
  | c :: r =>
    if isNameChar c then c :: squeeze r
    else
      match r with
      | [] => ['_']
      | d :: _ => if isNameChar d then '_' :: squeeze r else squeeze r

def isUnderscore (c : Char) : Bool :=
  c = '_'

/-- A package name for a directory name. -/
def nameFor (s : String) : String :=
  let name := String.ofList (Text.trimBy isUnderscore (squeeze s.toList))
  if name = "" then "package" else name

def name (d : Files.Disk) (p : Files.Path) : Outcome String :=
  (d.canonical false p).map fun q => nameFor q.name

def manifestText (name : String) : String :=
  "[package]\nname = \"" ++ name ++ "\"\nversion = \"0.1.0\"\nauthors = []\n"

def entryText : String :=
  "pub fn main() -> i64 \x7b\n    1 + 1\n\x7d\n"

/-- The time of files that are written now. -/
def now : Int := 0

/-- Makes the files of a package; what was made stays, also on a failure. -/
def fillDirectory (d : Files.Disk) (root : Files.Path) : Outcome Unit × Files.Disk :=
  match d.makeDirectories (root.child sourceDirectory) with
  | (.error f, d) => (.error f, d)
  | (.ok (), d) =>
    match name d root with
    | .error f => (.error f, d)
    | .ok name =>
      match d.writeFile (root.child manifestName) (manifestText name).toUTF8 now with
      | .error f => (.error f, d)
      | .ok d =>
        let entry := (root.child sourceDirectory).child entryName
        match d.fileExists entry with
        | .error f => (.error f, d)
        | .ok true => (.ok (), d)
        | .ok false =>
          match d.writeFile entry entryText.toUTF8 now with
          | .error f => (.error f, d)
          | .ok d => (.ok (), d)

/-- Whether a package may be created in a place. -/
def checkRoot (d : Files.Disk) (root : Files.Path) : Outcome Unit := do
  if ← d.fileExists (root.child manifestName) then .error (.packagePresent root.toString)
  else if ← d.fileExists root then
    if ← d.isDirectory root then return () else .error (.packageBlocked root.toString)

def create (d : Files.Disk) (root : Files.Path) : Outcome Files.Path × Files.Disk :=
  match checkRoot d root with
  | .error f => (.error f, d)
  | .ok () =>
    match fillDirectory d root with
    | (.ok (), d) => (.ok (root.child manifestName), d)
    | (.error f, d) => (.error (if f.isSystem then .packageFailed root.toString f else f), d)

end Hotload.Package
