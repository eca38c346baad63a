import Hotload.Text.Quoted

/-!
The grammar of options and arguments. An option is long, with two dashes, or a single letter after one dash; letters may
be put together, and a value may follow its letter or an equals sign directly. Two dashes alone end the options. A reader
goes on past arguments or stops at the first one.
-/
namespace Hotload.StandIn

/-- What is wrong with a command line. -/
inductive UsageFault where
  | unknownOption (name : String)
  | valueMissing (name : String)
  | valueRefused (name : String)
  | invalidChoice (name given : String) (choices : List String)
  | missingArgument (name : String)
  | extraArguments (given : List String)
  | missingCommand
  | unknownCommand (name : String)
  deriving DecidableEq

namespace UsageFault

def message : UsageFault → String
  | .unknownOption name => "No such option " ++ Text.quoted name ++ "."
  | .valueMissing name => "Option " ++ Text.quoted name ++ " requires an argument."
  | .valueRefused name => "Option " ++ Text.quoted name ++ " does not take a value."
  | .invalidChoice name given choices =>
    "Invalid value for '" ++ name ++ "': " ++ Text.quoted given ++ " is not one of "
      ++ ", ".intercalate (choices.map Text.quoted) ++ "."
  | .missingArgument name => "Missing argument '" ++ name ++ "'."
  | .extraArguments given =>
    (if given.length = 1 then "Got unexpected extra argument (" else "Got unexpected extra arguments (")
      ++ " ".intercalate given ++ ")"
  | .missingCommand => "Missing command."
  | .unknownCommand name => "No such command " ++ Text.quoted name ++ "."

/-- Whether the usage of the command is shown with the fault. -/
def showsUsage : UsageFault → Bool
  | .valueMissing _ | .valueRefused _ => false
  | _ => true

end UsageFault

/-- An option with the names it goes by. -/
structure OptionSpec where
  key : String
  long : Option String
  short : Option Char
  takesValue : Bool

/-- An option that was given, with its value if it takes one. -/
abbrev Setting := String × Option String

/-- What a command line gives: the options in order, and the arguments. -/
structure Parsed where
  settings : List Setting
  arguments : List String
  deriving DecidableEq

def findLong (specs : List OptionSpec) (name : String) : Option OptionSpec :=
  specs.find? (·.long = some name)

def findShort (specs : List OptionSpec) (letter : Char) : Option OptionSpec :=
  specs.find? (·.short = some letter)

/-- The part before the first equals sign and, if there is one, the part behind it. -/
def splitValue (arg : List Char) : String × Option String :=
  match arg.dropWhile (· != '=') with
  | [] => (String.ofList arg, none)
  | _ :: value => (String.ofList (arg.takeWhile (· != '=')), some (String.ofList value))

/-- The settings that one word makes, and whether it takes the next word as a value. -/
abbrev Reading := Except UsageFault (List Setting × Bool)

def readLong (spec : OptionSpec) (name : String) (attached : Option String) (next : Option String) : Reading :=
  if spec.takesValue then
    match attached, next with
    | some value, _ => .ok ([(spec.key, some value)], false)
    | none, some value => .ok ([(spec.key, some value)], true)
    | none, none => .error (.valueMissing name)
  else if attached.isSome then .error (.valueRefused name)
  else .ok ([(spec.key, none)], false)

def letterName (letter : Char) : String :=
  String.ofList ['-', letter]

/-- Letters put together: flags, then perhaps one that takes what is left as its value. -/
def readLetters (specs : List OptionSpec) (next : Option String) : List Char → Reading
  | [] => .ok ([], false)
  | letter :: rest =>
    match findShort specs letter with
    | none => .error (.unknownOption (letterName letter))
    | some spec =>
      if spec.takesValue then
        match rest, next with
        | [], some value => .ok ([(spec.key, some value)], true)
        | [], none => .error (.valueMissing (letterName letter))
        | rest, _ => .ok ([(spec.key, some (String.ofList rest))], false)
      else (readLetters specs next rest).map fun r => ((spec.key, none) :: r.1, r.2)

/-- A word that starts with a dash and goes on. -/
def isOption (word : String) : Bool :=
  match word.toList with
  | '-' :: _ :: _ => true
  | _ => false

def readOption (specs : List OptionSpec) (word : String) (next : Option String) : Reading :=
  let (name, attached) := splitValue word.toList
  match findLong specs name with
  | some spec => readLong spec name attached next
  | none =>
    match word.toList with
    | '-' :: '-' :: _ => .error (.unknownOption name)
    | _ :: letters => readLetters specs next letters
    | [] => .error (.unknownOption name)

/-- Reads a command line; with `onward` it goes on past arguments. -/
def parseWords (specs : List OptionSpec) (onward : Bool) : List String → Except UsageFault Parsed
  | [] => .ok ⟨[], []⟩
  | word :: rest =>
    if word = "--" then .ok ⟨[], rest⟩
    else if isOption word then
      match readOption specs word rest.head? with
      | .error f => .error f
      | .ok (settings, taken) =>
        let parsed := match taken, rest with
          | true, _ :: rest => parseWords specs onward rest
          | _, rest => parseWords specs onward rest
        parsed.map fun p => ⟨settings ++ p.settings, p.arguments⟩
    else if onward then (parseWords specs onward rest).map fun p => ⟨p.settings, word :: p.arguments⟩
    else .ok ⟨[], word :: rest⟩

namespace Parsed

def has (p : Parsed) (key : String) : Bool :=
  p.settings.any (·.1 = key)

/-- The value of an option; of several the last. -/
def value? (p : Parsed) (key : String) : Option String :=
  (p.settings.reverse.find? (·.1 = key)).bind (·.2)

/-- The first setting of one of some options. -/
def first? (p : Parsed) (keys : List String) : Option String :=
  (p.settings.find? fun s => keys.contains s.1).map (·.1)

end Parsed

end Hotload.StandIn
