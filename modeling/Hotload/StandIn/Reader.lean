import Hotload.CommandLine.Command
import Hotload.Invocation
import Hotload.StandIn.Grammar
import Hotload.StandIn.Help

/-!
From a command line to what is to be done: a text to show, a fault to report, or a command to run. Options that show a
text win over everything that follows, as long as all options can be read.
-/
namespace Hotload.StandIn

open CommandLine (Command CommandName Plan colorChoices)

def commandNames : List CommandName := [.build, .start, .languageServer, .new]

def commandNamed? (s : String) : Option CommandName :=
  commandNames.find? (·.text = s)

def usage : CommandName → String
  | .build => buildUsage
  | .start => startUsage
  | .languageServer => serverUsage
  | .new => newUsage

def help : CommandName → String
  | .build => buildHelp
  | .start => startHelp
  | .languageServer => serverHelp
  | .new => newHelp

/-- The name of the one argument of a command, if it has one. -/
def argument? : CommandName → Option String
  | .start => some "LIBRARY"
  | .new => some "PATH"
  | _ => none

def helpOption : OptionSpec := ⟨"help", some "--help", none, false⟩

def versionOption : OptionSpec := ⟨"version", some "--version", none, false⟩

def verboseOption : OptionSpec := ⟨"verbose", some "--verbose", some 'v', false⟩

def mainOptions : List OptionSpec := [versionOption, verboseOption, helpOption]

def options : CommandName → List OptionSpec
  | .build =>
    [⟨"manifest-path", some "--manifest-path", none, true⟩, ⟨"watch", some "--watch", none, false⟩,
     ⟨"opt-level", some "--opt-level", some 'O', true⟩, ⟨"target", some "--target", none, true⟩,
     ⟨"color", some "--color", none, true⟩, helpOption]
  | .start =>
    [⟨"entry", some "--entry", none, true⟩, ⟨"delay", some "--delay", none, true⟩, helpOption]
  | .languageServer => [helpOption]
  | .new => [⟨"quiet", some "--quiet", some 'q', false⟩, helpOption]

def usageOf (c : Option CommandName) : String :=
  (c.map usage).getD mainUsage

def pathOf (c : Option CommandName) : String :=
  (c.map fun n => programName ++ " " ++ n.text).getD programName

/-- The lines that report a fault. -/
def faultText (fault : UsageFault) (c : Option CommandName) : String :=
  (if fault.showsUsage then
    "Usage: " ++ usageOf c ++ "\nTry '" ++ pathOf c ++ " --help' for help.\n\n"
  else "") ++ "Error: " ++ fault.message

def refuse (fault : UsageFault) (c : Option CommandName) : Plan :=
  .refuse (faultText fault c)

/-- The color that was given, if it is one there is. -/
def checkColor (p : Parsed) : Except UsageFault (Option String) :=
  match p.value? "color" with
  | none => .ok none
  | some s => if colorChoices.contains s then .ok (some s) else .error (.invalidChoice "--color" s colorChoices)

/-- The one argument of a command, or none at all. -/
def checkArguments (c : CommandName) (given : List String) : Except UsageFault String :=
  match argument? c, given with
  | none, [] => .ok ""
  | none, extra => .error (.extraArguments extra)
  | some name, [] => .error (.missingArgument name)
  | some _, [a] => .ok a
  | some _, _ :: extra => .error (.extraArguments extra)

def commandOf (c : CommandName) (p : Parsed) : Except UsageFault Command := do
  let color ← checkColor p
  let argument ← checkArguments c p.arguments
  match c with
  | .build => return .build (p.value? "manifest-path") (p.has "watch") ⟨p.value? "opt-level", p.value? "target", color⟩
  | .start => return .start argument ((p.value? "entry").getD Invocation.standardEntry) (p.value? "delay")
  | .languageServer => return .languageServer
  | .new => return .new argument (p.has "quiet")

/-- The plan for the words that follow the name of a command. -/
def planCommand (verbose : Bool) (c : CommandName) (words : List String) : Plan :=
  match parseWords (options c) true words with
  | .error f => refuse f (some c)
  | .ok p =>
    if p.has "help" then .showText (help c)
    else
      match commandOf c p with
      | .error f => refuse f (some c)
      | .ok command => .run verbose command

/-- The text that an option among those before the command asks for. -/
def textAskedFor (p : Parsed) : Option String :=
  (p.first? ["version", "help"]).map fun key => if key = "version" then versionText else mainHelp

/-- What a word that is no command comes to: if it looks like an option, the words are read once more as options. -/
def planUnknown (name : String) (rest : List String) : Plan :=
  let unknown := refuse (.unknownCommand name) none
  if name.toList.head? = some '-' then
    match parseWords mainOptions false (name :: rest) with
    | .error f => refuse f none
    | .ok p => ((textAskedFor p).map Plan.showText).getD unknown
  else unknown

def plan (words : List String) : Plan :=
  if words.isEmpty then .refuse mainHelp
  else
    match parseWords mainOptions false words with
    | .error f => refuse f none
    | .ok p =>
      match textAskedFor p with
      | some text => .showText text
      | none =>
        match p.arguments with
        | [] => refuse .missingCommand none
        | name :: rest =>
          match commandNamed? name with
          | some c => planCommand (p.has "verbose") c rest
          | none => planUnknown name rest

theorem commandOf_of_plan {words : List String} {verbose : Bool} {c : Command} (hw : plan words = .run verbose c) :
    ∃ n p, commandOf n p = .ok c := by
  have hunknown (name : String) (rest : List String) : planUnknown name rest ≠ .run verbose c := by
    unfold planUnknown
    dsimp only
    split
    · split
      · rintro ⟨⟩
      · rename_i p _
        cases textAskedFor p <;> rintro ⟨⟩
    · rintro ⟨⟩
  have hcommand {v : Bool} {n : CommandName} {rest : List String} (h : planCommand v n rest = .run verbose c) :
      ∃ n p, commandOf n p = .ok c := by
    unfold planCommand at h
    split at h
    · cases h
    · split at h
      · cases h
      · split at h
        · cases h
        · cases h
          exact ⟨_, _, ‹_›⟩
  unfold plan at hw
  split at hw
  · cases hw
  · split at hw
    · cases hw
    · split at hw
      · cases hw
      · split at hw
        · cases hw
        · split at hw
          · exact hcommand hw
          · exact absurd hw (hunknown _ _)

theorem mem_of_checkColor {p : Parsed} {color : String} (h : checkColor p = .ok (some color)) : color ∈ colorChoices := by
  unfold checkColor at h
  split at h
  · cases h
  · split at h
    · next hmem =>
      cases h
      exact List.contains_iff_mem.1 hmem
    · cases h

/-- A color that is given is one of those there are. -/
theorem color_of_plan {words : List String} {verbose watch : Bool} {manifest : Option String} {flags : CompileFlags}
    (hw : plan words = .run verbose (.build manifest watch flags)) {color : String} (hc : flags.color = some color) :
    color ∈ colorChoices := by
  obtain ⟨n, p, hcommand⟩ := commandOf_of_plan hw
  unfold commandOf at hcommand
  obtain ⟨given, hgiven, hcommand⟩ := Outcome.bind_ok hcommand
  obtain ⟨argument, -, hcommand⟩ := Outcome.bind_ok hcommand
  cases n with
  | build =>
    cases hcommand
    cases hc
    exact mem_of_checkColor hgiven
  | start | languageServer | new => cases hcommand

/-- Reads the command lines of this program. -/
def reader : CommandLine.Reader where
  plan := plan
  interrupted := ""
  offered _ _ _ _ _ h _ := color_of_plan h

end Hotload.StandIn
