import Hotload.CommandLine.Run
import Hotload.StandIn.Platform

/-!
The program. It runs a command line on a picture of the files below the working directory, and writes what the command
added to the picture back to the disk. No process or thread can be started from here: each attempt to start a process fails
as if the command were not installed, and there is no thread to wait for.
-/
namespace Hotload.Program

/-- Directories that the picture goes down. -/
def depth : Nat := 6

/-- Links into links that are followed beyond those that the system follows. -/
def spare : Nat := 950

def variableNames : List String :=
  ["HOME", "MUN_LOG_LEVEL", "MUN_LOG_JSON", "MUN_TERMINAL_COLOR", "MUN_OUT_DIR", "MUN_COMPILER",
   "MUN_LANGUAGE_SERVER", "MUN_WATCH_POLL_INTERVAL", "MUN_RELOAD_DELAY_MS"]

def readEnvironment : IO Environment :=
  variableNames.filterMapM fun name => do
    return (← IO.getEnv name).map (name, ·)

def nanoseconds (t : IO.FS.SystemTime) : Int :=
  t.sec * 1000000000 + t.nsec.toNat

/-- Adds what a directory lists to a tree, hidden entries left out. -/
def addListed : Nat → Files.Location → Array IO.FS.DirEntry → Files.Tree → IO Files.Tree
  | 0, _, _, t => return t
  | n + 1, l, listed, t =>
    listed.foldlM (fun t e => do
      if e.fileName.startsWith "." then return t
      let here := l ++ [e.fileName]
      try
        let data ← e.path.metadata
        match data.type with
        | .dir => addListed n here (← e.path.readDir) (t.put here .directory)
        | .file => return t.put here (.file (← IO.FS.readBinFile e.path) (nanoseconds data.modified))
        | _ => return t
      catch _ => return t) t

/-- Adds the manifest of a directory to a tree, if there is one. -/
def addManifest (t : Files.Tree) (directory : Files.Path) : IO Files.Tree := do
  let manifest := directory.child Package.manifestName
  try
    return t.put manifest.parts (.file (← IO.FS.readBinFile manifest.toString) 0)
  catch _ => return t

/-- The picture of the working directory, with the directories above it and their manifests. -/
def readDisk : IO Files.Disk := do
  let directory ← IO.currentDir
  let path := Files.Path.ofString directory.toString
  let bare := (Files.Disk.makeDirectories ⟨.empty, [], spare⟩ path).2.tree
  let above ← path.parent.ancestry.foldlM addManifest bare
  return ⟨← addListed depth path.parts (← directory.readDir) above, path.parts, spare⟩

/-- Writes what one tree has and another one has not. -/
def writeChanges (before after : Files.Tree) : IO Unit :=
  after.entries.forM fun (l, n) => do
    if before.get? l == some n then return ()
    let text := (Files.Path.mk .rooted l).toString
    match n with
    | .directory => IO.FS.createDirAll text
    | .file content _ => IO.FS.writeBinFile text content
    | .link _ => return ()

/-- The failure to start a command that is not installed. -/
def notInstalled : Failure :=
  .raised ⟨.system .missing, [.int Errno.noEntry, .text Errno.noEntry.text], [], none⟩

def hostOn (p : Platform) (d : Files.Disk) (e : Environment) : Host where
  platform := p
  disk := d
  environment := e
  machine := ⟨"x86_64", "linux"⟩
  clock := 0
  stopped := false
  launches := [.failed notInstalled]
  server := ⟨[], 0, 0, false, some notInstalled⟩
  waits := none
  ticks := []
  shelf := .empty
  effects := []
  context := []
  records := []
  sink := none
  stdout := ""
  stderr := ""

def exitCode : Outcome Bool → UInt32
  | .ok true => 0
  | _ => 1

def run (p : Platform) (words : List String) : IO UInt32 := do
  let d ← readDisk
  let (r, h) := CommandLine.runProgram words (hostOn p d (← readEnvironment))
  writeChanges d.tree h.disk.tree
  IO.print h.stdout
  IO.eprint h.stderr
  if let .error f := r then IO.eprintln (f.kind.name ++ ": " ++ f.message)
  return exitCode r

end Hotload.Program

def main (words : List String) : IO UInt32 :=
  Hotload.Program.run (Hotload.StandIn.platform "/" fun _ => .ok true) words
