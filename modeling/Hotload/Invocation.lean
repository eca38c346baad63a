import Hotload.Session

/-!
Invoking an entry point. Its definition is looked up, the type of its result decides how that is decoded, and only if it
can be is the function called. The text of the result is handed out, if there is a result.
-/
namespace Hotload.Invocation

def standardEntry : String := "main"

/-- The representation that a result is asked for in; a type that is not native is refused. -/
def representation (entry : String) (d : Definition) : Outcome (Option NativeType) :=
  match d.result with
  | none => .ok none
  | some t =>
    match t.decoded with
    | .native n => .ok (some n)
    | .unsupported name => .error (.unsupportedReturn entry name)

def reportFailure (entry : String) (f : Failure) : Failure :=
  if f.isOrdinary then .callFailed entry f else f

def invokedEvent (entry : String) (as : Option NativeType) : Log.Event :=
  Log.info "muncli.invoke" "entry_point_invoked" (Log.extra
    [("entry", .text entry), ("return_type", (as.map fun n => Value.text n.typeName).getD .null)])

/-- The text of a value in the representation that it was asked for in. -/
def textOf (as : Option NativeType) (v : Value) : Outcome (Option String) :=
  match as with
  | none => .ok none
  | some n => (n.format v).map some

/-- What is to be called, and in which representation, after the entry point was looked up. -/
def plan (entry : String) (found : Option Definition) : Outcome (Definition × Option NativeType) :=
  match found with
  | none => .error (.noEntryPoint entry)
  | some d => (representation entry d).map (d, ·)

/-- What comes of a call that was made. -/
def report (entry : String) (as : Option NativeType) (r : Outcome Value) (s : Session) :
    Outcome (Option String) × Session :=
  match r with
  | .error f => (.error (reportFailure entry f), s)
  | .ok v => (textOf as v, s.log (invokedEvent entry as))

/-- Calls a function whose definition was looked up. -/
def callAs (entry : String) (d : Definition) (as : Option NativeType) (s : Session) :
    Outcome (Option String) × Session :=
  let (r, s) := s.call d as
  report entry as r s

def invoke (entry : String) (s : Session) : Outcome (Option String) × Session :=
  match plan entry (s.definition? entry) with
  | .error f => (.error f, s)
  | .ok (d, as) => callAs entry d as s

end Hotload.Invocation
