import Hotload.Environment
import Hotload.Files.Edit
import Hotload.Log.Setup
import Hotload.Platform

/-!
The machine that a command works on: its files, environment and clock, the processes that it would start, and what the
command has done so far. An action may fail, and what it did before stays done.
-/
namespace Hotload

/-- What others can see of a command, in order. -/
inductive Effect where
  | compile (manifest : Files.Path) (options : CompileOptions)
  | watch (manifest : Files.Path) (options : CompileOptions) (stopped : Bool)
  | serve
  | run (command : List String) (directory : Option String) (extra : Environment)
  | spawn (command : List String)
  | poll
  | join (timeout : Option Nat)
  | terminate
  | kill
  | wait (seconds : Binary64)
  | tick
  | polled (changed : Bool)
  | change

/-- How a process that is run to its end turns out. -/
inductive Launch where
  | exited (code : Int)
  | failed (f : Failure)

/-- How a server process behaves: what it answers when polled, how it ends, and whether it minds being terminated. -/
structure ServerScript where
  polls : List (Option Int)
  exit : Int
  signalExit : Int
  hangs : Bool
  failure : Option Failure

/-- How waiting for a stop request ends. -/
inductive Wait where
  | elapsed
  | stopped
  | interrupted

/-- What happens between two looks at the files. -/
inductive TickAction where
  | edit (e : Files.Edit)
  | advance (millis : Int)
  | poll
  | stop

abbrev Tick := List TickAction

structure Host where
  platform : Platform
  disk : Files.Disk
  environment : Environment
  machine : Machine
  clock : Int
  /-- Whether a stop was requested. -/
  stopped : Bool
  launches : List Launch
  server : ServerScript
  /-- How waits for a stop request end, if that is laid down; else they end with the request. -/
  waits : Option (List Wait)
  ticks : List Tick
  shelf : Shelf
  effects : List Effect
  context : Log.Context
  records : List Log.Record
  sink : Option Log.Sink
  stdout : String
  stderr : String

abbrev Action := ExceptT Failure (StateM Host)

namespace Action

/-- Runs an action and hands out its failure as a result. -/
def attempt {α : Type} (a : Action α) : Action (Outcome α) :=
  fun h => match a h with
    | (r, h') => (.ok r, h')

/-- Runs a last action after another one, whether that fails or not. -/
def andFinally {α : Type} (a : Action α) (last : Action Unit) : Action α := do
  let r ← attempt a
  last
  match r with
  | .ok x => return x
  | .error f => throw f

def lift {α : Type} (r : Outcome α) : Action α :=
  match r with
  | .ok x => return x
  | .error f => throw f

def note (e : Effect) : Action Unit :=
  modify fun h => { h with effects := h.effects ++ [e] }

def print (s : String) : Action Unit :=
  modify fun h => { h with stdout := h.stdout ++ s ++ "\n" }

def printError (s : String) : Action Unit :=
  modify fun h => { h with stderr := h.stderr ++ s ++ "\n" }

def requestStop : Action Unit :=
  modify fun h => { h with stopped := true }

/-- What a record adds to the error output. -/
def logText (sink : Option Log.Sink) (r : Log.Record) : String :=
  match sink with
  | some s => if s.accepts r.event.level then s.write r Log.epoch else ""
  | none => ""

def log (e : Log.Event) : Action Unit :=
  modify fun h =>
    let r := Log.Record.of h.context e
    { h with records := h.records ++ [r], stderr := h.stderr ++ logText h.sink r }

/-- Runs an action with more fields in the context of the log, which is restored however the action ends. -/
def within {α : Type} (fs : Log.Fields) (a : Action α) : Action α := do
  let before := (← get).context
  modify fun h => { h with context := Log.Context.enter before fs }
  andFinally a (modify fun h => { h with context := before })

/-- Asks something of the files. -/
def ask {α : Type} (question : Files.Disk → Outcome α) : Action α := do
  lift (question (← get).disk)

/-- Sets the log up anew. -/
def setUpLog (given : Option String) (json : Bool) : Action Unit := do
  let sink ← lift (Log.setUp given ((← get).environment.get? "MUN_LOG_LEVEL") json)
  modify fun h => { h with sink := some sink }

end Action

end Hotload
