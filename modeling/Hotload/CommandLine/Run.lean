import Hotload.Build
import Hotload.Invocation
import Hotload.Package.New

/-!
Running commands. A failure of the tool's own is reported in one line and makes the command fail; any other failure is
passed on, except that an interrupt ends the command with a word of its own.
-/
namespace Hotload.CommandLine

def errorLine (console : Console) (message : String) : String :=
  console.render ("[bold red]error:[/bold red] " ++ console.escape message)

def logger : String := "muncli.cli.main"

def failedEvent (f : Failure) : Log.Event :=
  let category := match f.kind.own? with
    | some k => k.category
    | none => ""
  ⟨10, logger, "command_failed", [("category", .text category), ("metadata", .record f.metadata)], some f⟩

/-- Runs the work of a command; true if it went well. -/
def reported (name : CommandName) (work : Action Bool) : Action Bool := do
  let console := (← get).platform.console
  Action.within [("command", .text name.text)] do
    match ← Action.attempt work with
    | .ok ok => return ok
    | .error f =>
      if f.isOwn then
        Action.log (failedEvent f)
        Action.printError (errorLine console f.message)
        return false
      else throw f

def loadSettings : Action Settings := do
  let h ← get
  Action.lift (Settings.load h.platform.basis h.environment)

/-- The toolchain that was put in place, or the external one that the settings describe. -/
def toolchain (given : Option Toolchain) : Action Toolchain := do
  match given with
  | some t => return t
  | none =>
    let settings ← loadSettings
    return .external (← Action.lift (External.ofSettings settings (← get).platform.loader))

/-- Runs an action; an interrupt requests a stop and counts as the given result. -/
def interruptible (result : Bool) (a : Action Bool) : Action Bool := do
  match ← Action.attempt a with
  | .ok ok => return ok
  | .error f =>
    if f.isOrdinary then throw f
    Action.requestStop
    return result

def runBuild (given : Option Toolchain) (manifest : Option String) (watch : Bool) (flags : CompileFlags) :
    Action Bool := do
  let settings ← loadSettings
  let options ← Action.lift (CompileOptions.of (← get).machine flags settings.color settings.outDir)
  interruptible watch do
    Build.build (← toolchain given) options manifest none watch

/-- Closes a handle. -/
def closeHandle (loader : Loader) (handle : Handle) : Action Unit := do
  let (closed, s) := Session.close ⟨← get, loader, handle⟩
  set s.host
  Action.lift closed

/-- Prints what came of a call, if it has a text. -/
def printText (r : Outcome (Option String)) : Action Unit := do
  match ← Action.lift r with
  | some text => Action.print text
  | none => return ()

/-- Invokes an entry point on a handle and prints its text. The handle is closed, whatever comes of that. -/
def invokeAndClose (loader : Loader) (handle : Handle) (entry : String) : Action Unit := do
  let (r, s) := Invocation.invoke entry ⟨← get, loader, handle⟩
  set s.host
  Action.andFinally (printText r) (closeHandle loader s.handle)

def runStart (given : Option Toolchain) (library entry : String) (delay : Option String) : Action Bool := do
  let settings ← loadSettings
  let delay ← Action.lift (Delay.parse ((delay.map Value.text).getD (.int settings.reloadDelay)))
  Action.within [("library", .text library), ("entry", .text entry)] do
    let loader := (← toolchain given).loader
    let handle ← Handle.spawn loader (Files.Path.ofString library) delay settings.pollInterval true
    invokeAndClose loader handle entry
    return true

def runLanguageServer (given : Option Toolchain) : Action Bool :=
  interruptible true do (← toolchain given).serve

def createdLines (console : Console) (directory : String) : List String :=
  console.lines ("[green]✓[/green] Created package at " ++ console.escape directory)

def runNew (path : String) (quiet : Bool) : Action Bool := do
  let manifest ← Package.new (Files.Path.ofString path)
  if quiet then return true
  (createdLines (← get).platform.console manifest.parent.toString).forM Action.print
  return true

def runCommand (given : Option Toolchain) (c : Command) : Action Bool :=
  reported c.name do
    match c with
    | .build manifest watch flags => runBuild given manifest watch flags
    | .start library entry delay => runStart given library entry delay
    | .languageServer => runLanguageServer given
    | .new path quiet => runNew path quiet

def execute (given : Option Toolchain) : Plan → Action Bool
  | .showText text => do
    Action.print text
    return true
  | .refuse text => do
    Action.printError text
    return false
  | .run verbose command => do
    if verbose then Action.setUpLog (some "DEBUG") false
    runCommand given command

/-- Says that a command was interrupted. -/
def abort (p : Platform) : Action Unit := do
  Action.printError p.reader.interrupted
  (p.console.lines "Aborted!").forM Action.printError

/-- Runs a command line; true if it went well. -/
def run (given : Option Toolchain) (words : List String) : Action Bool := do
  let platform := (← get).platform
  match ← Action.attempt (execute given (platform.reader.plan words)) with
  | .ok ok => return ok
  | .error f =>
    if f.isOrdinary then throw f
    abort platform
    return false

/-- Runs a command line as a program: the settings are read and the log is set up first. -/
def runProgram (words : List String) : Action Bool := do
  match ← Action.attempt loadSettings with
  | .error f =>
    if f.isOwn then
      Action.printError (errorLine (← get).platform.console f.message)
      return false
    else throw f
  | .ok settings =>
    Action.setUpLog (some settings.logLevel) settings.logJson
    run none words

end Hotload.CommandLine
