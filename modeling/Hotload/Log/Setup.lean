import Hotload.Log.Format
import Hotload.Text.LetterCase

/-!
Setting up the log: from which level on records are written, and in which form.
-/
namespace Hotload.Log

structure Sink where
  level : Int
  json : Bool

def levels : List (String × Int) :=
  [("CRITICAL", 50), ("FATAL", 50), ("ERROR", 40), ("WARN", 30), ("WARNING", 30), ("INFO", 20), ("DEBUG", 10),
   ("NOTSET", 0)]

def defaultLevel : String := "WARNING"

/-- The name under which the level table keeps a text that is no level. -/
def layoutName : String := "BASIC_FORMAT"

def layoutText : String := "%(levelname)s:%(name)s:%(message)s"

/-- The level of a name in any letter case; an unknown name stands for a warning. -/
def levelOf (name : String) : Outcome Int :=
  let key := Text.upper name
  if key = layoutName then .error (.unknownLevel layoutText)
  else .ok ((valueAt? key levels).getD 30)

/-- The first of two names that is there and not empty. -/
def firstName (given configured : Option String) : String :=
  ((given.filter (· != "")).or (configured.filter (· != ""))).getD defaultLevel

def setUp (given configured : Option String) (json : Bool) : Outcome Sink := do
  let level ← levelOf (firstName given configured)
  return ⟨level, json⟩

def Sink.accepts (s : Sink) (level : Int) : Bool :=
  0 < level && s.level ≤ level

def Sink.write (s : Sink) (r : Record) (m : Moment) : String :=
  (if s.json then r.json m else r.line m) ++ "\n"

/-- The first of an event's own fields whose name a record uses itself. -/
def reservedField? (e : Event) : Option String :=
  (e.extra.find? fun f => reservedNames.contains f.1).map (·.1)

/-- What an event adds to the log. One below the level adds nothing; one that is written must leave the names alone that
records use themselves. -/
def Sink.emit (s : Sink) (context : Context) (e : Event) : Outcome String :=
  if s.accepts e.level then
    match reservedField? e with
    | some key => .error (.reservedField key)
    | none => .ok (s.write (.of context e) epoch)
  else .ok ""

end Hotload.Log
