import Hotload.Debouncer
import Hotload.Host
import Hotload.Settings
import Hotload.Text.Words

/-!
The external toolchain: a compiler and a language server that are run as processes.
-/
namespace Hotload

structure External where
  compiler : List String
  server : List String
  pollInterval : Binary64
  debounce : Int
  loader : NativeLoader

namespace External

def logger : String := "muncli.toolchain.external"

def words (s : String) : Outcome (List String) :=
  match Text.Words.split s with
  | .ok ws => .ok ws
  | .error f => .error (.words f)

/-- The compiler's command line is split first. -/
def of (compiler server : String) (pollInterval : Binary64) (debounce : Int) (loader : NativeLoader) :
    Outcome External := do
  let compiler ← words compiler
  let server ← words server
  return ⟨compiler, server, pollInterval, debounce, loader⟩

def ofSettings (s : Settings) (loader : NativeLoader) : Outcome External :=
  of s.compiler s.languageServer s.pollInterval s.reloadDelay loader

/-- The command line of one run of the compiler. -/
def buildCommand (x : External) (manifest : Files.Path) (o : CompileOptions) : List String :=
  x.compiler ++ ["build", "--manifest-path", manifest.toString, "--opt-level", toString o.level.number, "--target",
    o.target.triple, "--color", o.color.text]
    ++ (match o.outDir with
      | some p => ["--out-dir", p.toString]
      | none => [])

/-- The paths whose changes lead to another compilation. -/
def watchPaths (manifest : Files.Path) : List Files.Path :=
  [manifest, manifest.parent.child Package.sourceDirectory]

/-- Takes the next of the launches that are laid down; when they are used up, all goes well. -/
def nextLaunch : Action Launch := do
  match (← get).launches with
  | [] => return .exited 0
  | l :: ls =>
    modify fun h => { h with launches := ls }
    return l

/-- The failure of a process that could not be started. -/
def startFailure (report : String → Failure → Failure) (command : List String) (f : Failure) : Failure :=
  if f.isSystem then
    match command with
    | c :: _ => report c f
    | [] => .emptyCommand
  else f

/-- Variables that are not already set to their values. -/
def changedVariables (current extra : Environment) : Environment :=
  extra.filter fun v => current.get? v.1 != some v.2

/-- Runs a command to its end and gives its exit code. -/
def runCommand (command : List String) (directory : Option Files.Path) (extra : Environment) : Action Int := do
  Action.log (Log.debug logger "command_start"
    [("cmd", .list ((command.take 3).map .text)),
     ("cwd", (directory.map fun p => Value.text p.toString).getD .null)])
  let current := (← get).environment
  Action.note (.run command (directory.map (·.toString)) (changedVariables current extra))
  match ← nextLaunch with
  | .exited code => return code
  | .failed f => throw (startFailure .cannotRun command f)

/-- Compiles a package once; true if the compiler was content. -/
def compile (x : External) (manifest : Files.Path) (o : CompileOptions) : Action Bool := do
  let code ← runCommand (x.buildCommand manifest o) (some manifest.parent) []
  Action.log (Log.info logger "compile_finished" (Log.extra
    [("manifest", .path manifest), ("success", .bool (code = 0)), ("exit_code", .int code),
     ("duration_seconds", .real .zero)]))
  return code = 0

end External

end Hotload
