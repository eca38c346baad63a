import Hotload.Failure.Kind
import Hotload.Package.Layout
import Hotload.Target
import Hotload.Text.Words
import Hotload.Value

/-!
Failures by their causes. Each cause has a kind and a message, the tool's own ones also have metadata. A failure may
hold the one that it reports.
-/
namespace Hotload

/-- A failure raised by code that is called: its kind and its arguments. -/
structure Raised where
  kind : Kind
  arguments : List Value
  metadata : List (String × Value)
  typeName : Option String

/-- Several arguments as one text. -/
def tupleText (vs : List Value) : String :=
  "(" ++ ", ".intercalate (vs.map Value.quoted) ++ ")"

/-- The text of a system error: its number and text, and the file it is about. -/
def Raised.systemText : List Value → String
  | [e, t] => "[Errno " ++ e.shown ++ "] " ++ t.shown
  | [e, t, .null] => "[Errno " ++ e.shown ++ "] " ++ t.shown
  | e :: t :: f :: _ => "[Errno " ++ e.shown ++ "] " ++ t.shown ++ ": " ++ f.quoted
  | vs => tupleText vs

def Raised.message (r : Raised) : String :=
  match r.arguments with
  | [] => ""
  | [v] => if r.kind = .key then v.quoted else v.shown
  | v :: vs =>
    if r.kind.isOwn then v.shown
    else if r.kind.isSystem then Raised.systemText (v :: vs)
    else tupleText (v :: vs)

/-- A system error that is raised under the general kind takes the kind of its number. -/
def Raised.refine (r : Raised) : Raised :=
  match r.kind, r.arguments with
  | .system .other, .int e :: _ :: _ => { r with kind := .system (SystemKind.ofErrno e.toNat) }
  | _, _ => r

inductive Failure where
  /- raised by code that is called -/
  | raised (r : Raised)
  /- the system -/
  | system (errno : Errno) (path : String)
  | nulByte
  | linkLoop (path : String)
  | unknownHome
  | emptyName (path : String)
  | notText
  | notJson
  | tooDeep (what : String)
  /- readers and conversions -/
  | words (fault : Text.Words.Fault)
  | notInteger (given : String)
  | notReal (given : String)
  | tooManyDigits (digits : Nat)
  | tooLongToShow
  | noInteger (kind : String)
  | noReal (kind : String)
  | integerOfNaN
  | integerOfInfinity
  | realTooLarge
  | unhashable (kind : String)
  | unencodable (kind : String)
  | loneHalves (r : Text.Ragged)
  | unordered (left right : String)
  | unknownLevel (given : String)
  | reservedField (key : String)
  | emptyCommand
  /- calls -/
  | argumentsExpected (function : String) (count : Nat)
  | missingSymbol (symbol path : String)
  | missingFunction (name : String)
  | missingAttribute (name : String)
  /- usage and configuration -/
  | optimizationLevel (given : String)
  | unknownTarget (triple : String)
  | unsupportedHost (machine platform : String)
  | notNumber (name given : String)
  | invalidSettings (faults : List (String × String))
  /- manifests and packages -/
  | invalidManifest (given : String)
  | noManifest (directory : String)
  | packagePresent (root : String)
  | packageBlocked (root : String)
  | packageFailed (root : String) (cause : Failure)
  /- processes -/
  | cannotRun (command : String) (cause : Failure)
  | cannotServe (command : String) (cause : Failure)
  /- type tables and libraries -/
  | missingTable (path : String)
  | unreadableTable (path : String) (cause : Failure)
  | tableWithoutFunctions (path : String)
  | malformedEntry (path : String) (entry : Value)
  | noLibraryFile (path : String)
  | invalidLibrary (path complaint : String)
  | cannotLoad (path : String) (cause : Failure)
  /- delays and calls of entry points -/
  | invalidDelay (given : String)
  | delayTooLong (given : String) (limit : Nat)
  | noEntryPoint (entry : String)
  | unsupportedReturn (entry typeName : String)
  | callFailed (entry : String) (cause : Failure)

namespace Failure

def kind : Failure → Kind
  | .raised r => r.kind
  | .system e _ => .system (SystemKind.ofErrno e)
  | .nulByte | .emptyName _ | .words _ | .notInteger _ | .notReal _ | .tooManyDigits _ | .tooLongToShow | .integerOfNaN
  | .unknownLevel _ => .value
  | .notText => .undecodable
  | .notJson => .notJson
  | .loneHalves _ => .notEncodable
  | .tooDeep _ => .recursion
  | .linkLoop _ | .unknownHome => .runtime
  | .noInteger _ | .noReal _ | .unhashable _ | .unordered _ _ | .argumentsExpected _ _ => .type
  | .integerOfInfinity | .realTooLarge => .overflow
  | .unencodable _ | .missingAttribute _ => .attribute
  | .missingSymbol _ _ => .lookup
  | .reservedField _ | .missingFunction _ => .key
  | .emptyCommand => .index
  | .optimizationLevel _ => .own .usage
  | .unknownTarget _ | .unsupportedHost _ _ | .notNumber _ _ | .invalidSettings _ => .own .configuration
  | .invalidManifest _ | .noManifest _ => .own .manifest
  | .packagePresent _ | .packageBlocked _ | .packageFailed _ _ => .own .scaffold
  | .cannotRun _ _ => .own .compile
  | .cannotServe _ _ => .own .languageServer
  | .missingTable _ | .unreadableTable _ _ | .tableWithoutFunctions _ | .malformedEntry _ _ | .noLibraryFile _
  | .invalidLibrary _ _ | .cannotLoad _ _ | .invalidDelay _ | .delayTooLong _ _ => .own .launch
  | .noEntryPoint _ => .own .entryPoint
  | .unsupportedReturn _ _ => .own .returnType
  | .callFailed _ _ => .own .invocation

/-- A text that stands for itself, or the name of a kind if there is no text. -/
def orName (message : String) (k : Kind) : String :=
  if message = "" then k.name else message

def message : Failure → String
  | .raised r => r.message
  | .system e path => "[Errno " ++ toString e ++ "] " ++ e.text ++ ": " ++ Text.quoted path
  | .nulByte => "embedded null byte"
  | .linkLoop path => "Symlink loop from " ++ Text.quoted path
  | .unknownHome => "Could not determine home directory."
  | .emptyName path => "PosixPath(" ++ Text.quoted path ++ ") has an empty name"
  | .notText => "undecodable text"
  | .notJson => "malformed JSON"
  | .tooDeep what => "maximum recursion depth exceeded while decoding a JSON " ++ what ++ " from a unicode string"
  | .words fault => fault.message
  | .notInteger given => "invalid literal for int() with base 10: " ++ given
  | .notReal given => "could not convert string to float: " ++ given
  | .tooManyDigits digits =>
    "Exceeds the limit (4300 digits) for integer string conversion: value has " ++ toString digits
      ++ " digits; use sys.set_int_max_str_digits() to increase the limit"
  | .tooLongToShow =>
    "Exceeds the limit (4300 digits) for integer string conversion; use sys.set_int_max_str_digits() to increase the limit"
  | .noInteger kind =>
    "int() argument must be a string, a bytes-like object or a real number, not '" ++ kind ++ "'"
  | .noReal kind => "float() argument must be a string or a real number, not '" ++ kind ++ "'"
  | .integerOfNaN => "cannot convert float NaN to integer"
  | .integerOfInfinity => "cannot convert float infinity to integer"
  | .realTooLarge => "int too large to convert to float"
  | .unhashable kind => "unhashable type: '" ++ kind ++ "'"
  | .unencodable kind => "'" ++ kind ++ "' object has no attribute 'encode'"
  | .loneHalves r => r.message
  | .unordered left right =>
    "'<' not supported between instances of '" ++ left ++ "' and '" ++ right ++ "'"
  | .unknownLevel given => "Unknown level: " ++ Text.quoted given
  | .reservedField key => Text.quoted ("Attempt to overwrite " ++ Text.quoted key ++ " in LogRecord")
  | .emptyCommand => "list index out of range"
  | .argumentsExpected function count =>
    "function '" ++ function ++ "' expects " ++ toString count ++ " argument(s), got 0"
  | .missingSymbol symbol path => "symbol '" ++ symbol ++ "' not found in '" ++ path ++ "'"
  | .missingFunction name => Text.quoted name
  | .missingAttribute name => "'NoneType' object has no attribute '" ++ name ++ "'"
  | .optimizationLevel _ => "Only optimization levels 0-3 are supported"
  | .unknownTarget triple =>
    "unknown target triple '" ++ triple ++ "'; supported targets: " ++ ", ".intercalate Target.supported
  | .unsupportedHost machine platform =>
    "host platform '" ++ machine ++ "-" ++ platform ++ "' is not a supported target"
  | .notNumber name given => name ++ " must be a number, got '" ++ given ++ "'"
  | .invalidSettings _ => "invalid environment configuration"
  | .invalidManifest given => "'" ++ given ++ "' does not refer to a valid manifest path"
  | .noManifest directory =>
    "could not find " ++ Package.manifestName ++ " in '" ++ directory ++ "' or a parent directory"
  | .packagePresent root => "destination '" ++ root ++ "' already contains a " ++ Package.manifestName
  | .packageBlocked root => "destination '" ++ root ++ "' exists and is not a directory"
  | .packageFailed root cause => "failed to create package at '" ++ root ++ "': " ++ cause.message
  | .cannotRun command cause => "failed to run '" ++ command ++ "': " ++ cause.message
  | .cannotServe command cause => "failed to start language server '" ++ command ++ "': " ++ cause.message
  | .missingTable path => "missing type table '" ++ path ++ "'"
  | .unreadableTable path cause =>
    "unreadable type table '" ++ path ++ "'" ++ (if cause.kind.isSystem then ": " ++ cause.message else "")
  | .tableWithoutFunctions path => "type table '" ++ path ++ "' has no 'functions' list"
  | .malformedEntry path entry => "malformed function entry in '" ++ path ++ "': " ++ entry.quoted
  | .noLibraryFile path => "library '" ++ path ++ "' does not exist or is not a file"
  | .invalidLibrary path complaint => "invalid library '" ++ path ++ "': " ++ complaint
  | .cannotLoad path cause => "failed to load library '" ++ path ++ "': " ++ cause.message
  | .invalidDelay given => "invalid delay '" ++ given ++ "': expected a non-negative number of milliseconds"
  | .delayTooLong given limit => "invalid delay '" ++ given ++ "': must be at most " ++ toString limit ++ " ms"
  | .noEntryPoint entry => "Failed to obtain entry point '" ++ entry ++ "'"
  | .unsupportedReturn _ typeName =>
    "Only native Mun return types are supported for entry points. Found: " ++ typeName
  | .callFailed _ cause => orName cause.message cause.kind

def metadata : Failure → List (String × Value)
  | .raised r => r.metadata
  | .optimizationLevel given => [("opt_level", .text given)]
  | .unknownTarget triple => [("target", .text triple)]
  | .notNumber name _ => [("variable", .text name)]
  | .invalidManifest given => [("manifest", .text given)]
  | .noManifest directory => [("cwd", .text directory)]
  | .packagePresent root | .packageBlocked root | .packageFailed root _ => [("path", .text root)]
  | .cannotRun command _ | .cannotServe command _ => [("cmd", .text command)]
  | .noLibraryFile path | .cannotLoad path _ => [("library", .text path)]
  | .invalidDelay given | .delayTooLong given _ => [("delay", .text given)]
  | .noEntryPoint entry | .unsupportedReturn entry _ | .callFailed entry _ => [("entry", .text entry)]
  | _ => []

/-- The name of the return type that cannot be decoded. -/
def typeName? : Failure → Option String
  | .raised r => r.typeName
  | .unsupportedReturn _ typeName => some typeName
  | _ => none

/-- The failure that this one reports. -/
def cause? : Failure → Option Failure
  | .packageFailed _ c | .cannotRun _ c | .cannotServe _ c | .unreadableTable _ c | .cannotLoad _ c
  | .callFailed _ c => some c
  | _ => none

def isOwn (f : Failure) : Bool :=
  f.kind.isOwn

def isOrdinary (f : Failure) : Bool :=
  f.kind.isOrdinary

def isSystem (f : Failure) : Bool :=
  f.kind.isSystem

def isValue (f : Failure) : Bool :=
  f.kind.isValue

end Failure

abbrev Outcome (α : Type) := Except Failure α

namespace Outcome

variable {ε α β : Type} {x : Except ε α} {f : α → Except ε β}

theorem bind_ok {b : β} (h : x >>= f = .ok b) : ∃ a, x = .ok a ∧ f a = .ok b := by
  cases x with
  | error e => cases h
  | ok a => exact ⟨a, rfl, h⟩

theorem bind_error {e : ε} (h : x >>= f = .error e) : x = .error e ∨ ∃ a, x = .ok a ∧ f a = .error e := by
  cases x with
  | error e' =>
    cases h
    exact .inl rfl
  | ok a => exact .inr ⟨a, rfl, h⟩

theorem map_ok {g : α → β} {b : β} (h : x.map g = .ok b) : ∃ a, x = .ok a ∧ g a = b := by
  cases x with
  | error e => cases h
  | ok a => exact ⟨a, rfl, Except.ok.inj h⟩

end Outcome

end Hotload
