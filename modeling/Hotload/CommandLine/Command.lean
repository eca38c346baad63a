import Hotload.Options

/-!
What a command line asks for. It is read by a library of its own, which knows what options there are: what matters here is
what it hands on.
-/
namespace Hotload.CommandLine

inductive Command where
  | build (manifest : Option String) (watch : Bool) (flags : CompileFlags)
  | start (library entry : String) (delay : Option String)
  | languageServer
  | new (path : String) (quiet : Bool)

inductive CommandName where
  | build
  | start
  | languageServer
  | new
  deriving DecidableEq

def CommandName.text : CommandName → String
  | .build => "build"
  | .start => "start"
  | .languageServer => "language-server"
  | .new => "new"

def Command.name : Command → CommandName
  | .build _ _ _ => .build
  | .start _ _ _ => .start
  | .languageServer => .languageServer
  | .new _ _ => .new

def colorChoices : List String := ["enable", "auto", "disable"]

/-- What is to be done for a command line. -/
inductive Plan where
  /-- A text for the standard output. -/
  | showText (text : String)
  /-- A text for the error output, because the command line cannot be read. -/
  | refuse (text : String)
  | run (verbose : Bool) (command : Command)

/-- A reader of command lines. -/
structure Reader where
  plan : List String → Plan
  /-- What is written when an interrupt ends a command. -/
  interrupted : String
  /-- A color that is handed on is one of those that are offered. -/
  offered : ∀ words verbose manifest watch flags, plan words = .run verbose (.build manifest watch flags) →
    ∀ color, flags.color = some color → color ∈ colorChoices

end Hotload.CommandLine
