import Hotload.Json.Writer
import Hotload.Log.Record

/-!
Written forms of log records: a line of text with the standard fields, or a line of JSON with all fields.
-/
namespace Hotload.Log

/-- A moment by its seconds and milliseconds. -/
structure Moment where
  seconds : Int
  millis : Int

def epoch : Moment := ⟨0, 0⟩

/-- Year, month and day of a number of days since the first day of 1970. -/
def dateOfDays (days : Int) : Int × Int × Int :=
  let z := days + 719468
  let era := z.fdiv 146097
  let doe := z - era * 146097
  let yoe := (doe - doe / 1460 + doe / 36524 - doe / 146096) / 365
  let doy := doe - (365 * yoe + yoe / 4 - yoe / 100)
  let mp := (5 * doy + 2) / 153
  let day := doy - (153 * mp + 2) / 5 + 1
  let month := if mp < 10 then mp + 3 else mp - 9
  let year := yoe + era * 400 + (if month ≤ 2 then 1 else 0)
  (year, month, day)

/-- A number with zeros in front of its digits up to a width. -/
def padded (width : Nat) (n : Int) : String :=
  let ds := toString n.natAbs
  let sign := if n < 0 then "-" else ""
  sign ++ String.ofList (List.replicate (width - ds.length - sign.length) '0') ++ ds

def Moment.text (m : Moment) : String :=
  let days := m.seconds.fdiv 86400
  let rest := m.seconds - days * 86400
  let (year, month, day) := dateOfDays days
  toString year ++ "-" ++ padded 2 month ++ "-" ++ padded 2 day ++ " " ++ padded 2 (rest / 3600) ++ ":"
    ++ padded 2 (rest / 60 % 60) ++ ":" ++ padded 2 (rest % 60) ++ "," ++ padded 3 m.millis

/-- A failure in a record: its kind with the package that defines it, and its message if there is one. -/
def failureText (f : Failure) : String :=
  if f.message = "" then f.kind.qualifiedName else f.kind.qualifiedName ++ ": " ++ f.message

def Record.field (r : Record) (key : String) : Value :=
  (valueAt? key r.fields).getD (.text "-")

/-- A datum of the event, unless a field takes its name. -/
def Record.datum (r : Record) (key : String) (ofEvent : String) : Value :=
  (valueAt? key r.fields).getD (.text ofEvent)

def Record.members (r : Record) (m : Moment) : Fields :=
  let head : Fields :=
    [("timestamp", .text m.text), ("level", r.datum "levelname" (levelName r.event.level)),
     ("logger", r.datum "name" r.event.logger), ("message", .text (r.datum "msg" r.event.message).shown)]
  let standard := standardFields.map fun key => (key, r.field key)
  let others := r.fields.filter fun f => !reservedNames.contains f.1 && !hasEntry f.1 (head ++ standard)
  let all := head ++ standard ++ others
  match r.event.failure with
  | none => all
  | some f => setEntry "exception" (.text (failureText f)) all

def Record.json (r : Record) (m : Moment) : String :=
  Json.write (.record (r.members m))

def Record.line (r : Record) (m : Moment) : String :=
  m.text ++ " " ++ levelName r.event.level ++ " " ++ r.event.logger ++ " " ++ r.event.message
    ++ " command=" ++ (r.field "command").shown ++ " manifest=" ++ (r.field "manifest").shown
    ++ " library=" ++ (r.field "library").shown

end Hotload.Log
