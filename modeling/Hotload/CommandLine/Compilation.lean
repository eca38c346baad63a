import Hotload.CommandLine.Run

/-!
What a build from the command line comes to when it is not asked to watch: one compilation, with a command line that the
flags, the environment and the files lay down, in the directory of the manifest.
-/
namespace Hotload.CommandLine

/-- The target that is compiled for, the one that was given or the machine itself. -/
def Targets (m : Machine) (given : Option String) (triple : String) : Prop :=
  triple ∈ Target.supported ∧ (given = some triple ∨ given = none ∧ Target.host m = .ok ⟨triple⟩)

def Levels (given : Option String) (level : Nat) : Prop :=
  given = none ∧ level = 2 ∨ level ≤ 3 ∧ given = some (toString level)

/-- The color that was given, or what the environment says if that is one of two words. -/
def colorText (given configured : Option String) : String :=
  given.getD (if configured = some "enable" then "enable" else if configured = some "disable" then "disable" else "auto")

/-- A directory for what is built is passed on if the environment has one. -/
def OutArguments (b : Settings.Basis) (e : Environment) (arguments : List String) : Prop :=
  match e.filled? "MUN_OUT_DIR" with
  | none => arguments = []
  | some s => ∃ p, Settings.expandHome b e (Files.Path.ofString s) = .ok p ∧ arguments = ["--out-dir", p.toString]

def compilerText (e : Environment) : String :=
  (e.get? "MUN_COMPILER").getD "munc"

def serverText (e : Environment) : String :=
  (e.get? "MUN_LANGUAGE_SERVER").getD "mun-language-server"

/-- The command line of the compiler and the directory that it is started in. -/
inductive Compiles (h : Host) (manifest : Option String) (flags : CompileFlags) : List String → String → Prop where
  | of {ws out : List String} {path : Files.Path} {triple : String} {level : Nat} :
      External.words (compilerText h.environment) = .ok ws → Manifest.resolve h.disk manifest none = .ok path →
      Targets h.machine flags.target triple → Levels flags.level level → OutArguments h.platform.basis h.environment out →
      Compiles h manifest flags
        (ws ++ ["build", "--manifest-path", path.toString, "--opt-level", toString level, "--target", triple, "--color",
          colorText flags.color (h.environment.filled? "MUN_TERMINAL_COLOR")] ++ out)
        path.parent.toString

/-- What has to be there for a compilation: a target, a level, the commands of both tools and the manifest. -/
structure Ready (h : Host) (manifest : Option String) (flags : CompileFlags) : Prop where
  target : ∃ triple, Targets h.machine flags.target triple
  level : ∃ level, Levels flags.level level
  compiler : ∃ ws, External.words (compilerText h.environment) = .ok ws
  server : ∃ ws, External.words (serverText h.environment) = .ok ws
  manifest : ∃ path, Manifest.resolve h.disk manifest none = .ok path

/-- How the next process that is run to its end turns out. -/
def upcoming (h : Host) : Launch :=
  h.launches.head?.getD (.exited 0)

end Hotload.CommandLine
