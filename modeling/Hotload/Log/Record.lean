import Hotload.Failure
import Hotload.Log.Context

/-!
Log records. An event is what is logged: a level, a logger, a message, fields of its own and perhaps a failure. A record
is an event with all its fields: its own come first, then those of the context that it does not have, then a dash for
each standard field that is still missing. Names that every record uses itself are never taken from the context.
-/
namespace Hotload.Log

structure Event where
  level : Int
  logger : String
  message : String
  extra : Fields
  failure : Option Failure

def debug (logger message : String) (fs : Fields) : Event := ⟨10, logger, message, fs, none⟩

def info (logger message : String) (fs : Fields) : Event := ⟨20, logger, message, fs, none⟩

def warning (logger message : String) (fs : Fields) : Event := ⟨30, logger, message, fs, none⟩

def error (logger message : String) (fs : Fields) : Event := ⟨40, logger, message, fs, none⟩

structure Record where
  event : Event
  fields : Fields

/-- Names that hold the data of a record itself. -/
def reservedNames : List String :=
  ["name", "msg", "args", "levelname", "levelno", "pathname", "filename", "module", "exc_info", "exc_text",
   "stack_info", "lineno", "funcName", "created", "msecs", "relativeCreated", "thread", "threadName", "processName",
   "process", "message", "asctime"]

/-- Names that every record answers to without holding data under them. -/
def inherentNames : List String :=
  ["__class__", "__delattr__", "__dict__", "__dir__", "__doc__", "__eq__", "__format__", "__ge__", "__getattribute__",
   "__getstate__", "__gt__", "__hash__", "__init__", "__init_subclass__", "__le__", "__lt__", "__module__", "__ne__",
   "__new__", "__reduce__", "__reduce_ex__", "__repr__", "__setattr__", "__sizeof__", "__str__", "__subclasshook__",
   "__weakref__", "getMessage"]

def isTaken (key : String) : Bool :=
  reservedNames.contains key || inherentNames.contains key

/-- Adds a field unless there is one of its name. -/
def addMissing (fs : Fields) (key : String) (value : Value) : Fields :=
  if hasEntry key fs then fs else fs ++ [(key, value)]

def fill (context : Context) (own : Fields) : Fields :=
  let withContext := context.foldl (fun fs f => if isTaken f.1 then fs else addMissing fs f.1 f.2) own
  standardFields.foldl (fun fs key => addMissing fs key (.text "-")) withContext

def Record.of (context : Context) (e : Event) : Record :=
  ⟨e, fill context (setEntries [] e.extra)⟩

def levelNames : List (Int × String) :=
  [(50, "CRITICAL"), (40, "ERROR"), (30, "WARNING"), (20, "INFO"), (10, "DEBUG"), (0, "NOTSET")]

def levelName (level : Int) : String :=
  (valueAt? level levelNames).getD ("Level " ++ toString level)

end Hotload.Log
