/-!
Kinds of failures. The tool's own kinds fall into categories and all derive from one base kind; the others are those of
the system and of the code that is called.
-/
namespace Hotload

/-- Numbers of system errors. -/
abbrev Errno := Nat

namespace Errno

def noEntry : Errno := 2
def present : Errno := 17
def notDirectory : Errno := 20
def isDirectory : Errno := 21
def nameTooLong : Errno := 36
def loop : Errno := 40

def text (e : Errno) : String :=
  if e = noEntry then "No such file or directory"
  else if e = present then "File exists"
  else if e = notDirectory then "Not a directory"
  else if e = isDirectory then "Is a directory"
  else if e = nameTooLong then "File name too long"
  else if e = loop then "Too many levels of symbolic links"
  else "Unknown error"

end Errno

/-- Kinds of the tool's own failures. -/
inductive OwnKind where
  | base
  | usage
  | manifest
  | configuration
  | compile
  | launch
  | invocation
  | entryPoint
  | returnType
  | scaffold
  | languageServer
  deriving DecidableEq

namespace OwnKind

def name : OwnKind → String
  | .base => "MunError"
  | .usage => "UsageError"
  | .manifest => "ManifestError"
  | .configuration => "ConfigurationError"
  | .compile => "CompileError"
  | .launch => "RuntimeLaunchError"
  | .invocation => "InvocationError"
  | .entryPoint => "EntryPointNotFoundError"
  | .returnType => "UnsupportedReturnTypeError"
  | .scaffold => "ScaffoldError"
  | .languageServer => "LanguageServerError"

def category : OwnKind → String
  | .base => "runtime"
  | .usage => "usage"
  | .manifest => "manifest"
  | .configuration => "config"
  | .compile => "compile"
  | .launch => "runtime"
  | .invocation => "invocation"
  | .entryPoint => "invocation"
  | .returnType => "invocation"
  | .scaffold => "scaffold"
  | .languageServer => "language_server"

/-- The kind that a kind refines. -/
def parent? : OwnKind → Option OwnKind
  | .base => none
  | .entryPoint => some .invocation
  | .returnType => some .invocation
  | _ => some .base

/-- A kind and those it refines, closest first. -/
def ancestry (k : OwnKind) : List OwnKind :=
  match k.parent? with
  | none => [k]
  | some .base => [k, .base]
  | some p => [k, p, .base]

def all : List OwnKind :=
  [.base, .usage, .manifest, .configuration, .compile, .launch, .invocation, .entryPoint, .returnType, .scaffold,
   .languageServer]

def ofName? (s : String) : Option OwnKind :=
  all.find? (·.name = s)

end OwnKind

/-- Kinds of system errors, some of them bound to error numbers. -/
inductive SystemKind where
  | other
  | missing
  | present
  | notDirectory
  | isDirectory
  | permission
  | interruptedCall
  | blocking
  | childProcess
  | brokenPipe
  | connectionAborted
  | connectionReset
  | connectionRefused
  | noProcess
  | timeout
  deriving DecidableEq

namespace SystemKind

def name : SystemKind → String
  | .other => "OSError"
  | .missing => "FileNotFoundError"
  | .present => "FileExistsError"
  | .notDirectory => "NotADirectoryError"
  | .isDirectory => "IsADirectoryError"
  | .permission => "PermissionError"
  | .interruptedCall => "InterruptedError"
  | .blocking => "BlockingIOError"
  | .childProcess => "ChildProcessError"
  | .brokenPipe => "BrokenPipeError"
  | .connectionAborted => "ConnectionAbortedError"
  | .connectionReset => "ConnectionResetError"
  | .connectionRefused => "ConnectionRefusedError"
  | .noProcess => "ProcessLookupError"
  | .timeout => "TimeoutError"

def table : List (Nat × SystemKind) :=
  [(2, .missing), (17, .present), (20, .notDirectory), (21, .isDirectory), (1, .permission), (13, .permission),
   (4, .interruptedCall), (11, .blocking), (114, .blocking), (115, .blocking), (10, .childProcess), (32, .brokenPipe),
   (108, .brokenPipe), (103, .connectionAborted), (104, .connectionReset), (111, .connectionRefused), (3, .noProcess),
   (110, .timeout)]

def ofErrno (e : Errno) : SystemKind :=
  (table.lookup e).getD .other

end SystemKind

inductive Kind where
  | own (k : OwnKind)
  | system (k : SystemKind)
  | runtime
  | value
  | undecodable
  | notEncodable
  | notJson
  | recursion
  | type
  | attribute
  | lookup
  | key
  | index
  | zeroDivision
  | overflow
  | interrupt
  deriving DecidableEq

namespace Kind

def name : Kind → String
  | .own k => k.name
  | .system k => k.name
  | .runtime => "RuntimeError"
  | .value => "ValueError"
  | .undecodable => "UnicodeDecodeError"
  | .notEncodable => "UnicodeEncodeError"
  | .notJson => "JSONDecodeError"
  | .recursion => "RecursionError"
  | .type => "TypeError"
  | .attribute => "AttributeError"
  | .lookup => "LookupError"
  | .key => "KeyError"
  | .index => "IndexError"
  | .zeroDivision => "ZeroDivisionError"
  | .overflow => "OverflowError"
  | .interrupt => "KeyboardInterrupt"

/-- The name with the package that defines the kind, if it is one of the tool's own. -/
def qualifiedName : Kind → String
  | .own k => "muncli.errors." ++ k.name
  | k => k.name

def isSystem : Kind → Bool
  | .system _ => true
  | _ => false

/-- Kinds of failures that say that a value is not what it should be. -/
def isValue : Kind → Bool
  | .value | .undecodable | .notEncodable | .notJson => true
  | _ => false

/-- Every kind but an interrupt is an ordinary failure. -/
def isOrdinary (k : Kind) : Bool :=
  k != .interrupt

def own? : Kind → Option OwnKind
  | .own k => some k
  | _ => none

def isOwn (k : Kind) : Bool :=
  k.own?.isSome

end Kind

end Hotload
