import Hotload.Failure
import Hotload.Text.LetterCase

/-!
Options of a compilation, and how they follow from the command line and the environment.
-/
namespace Hotload

inductive OptimizationLevel where
  | none
  | less
  | default
  | aggressive
  deriving DecidableEq

namespace OptimizationLevel

def number : OptimizationLevel → Nat
  | .none => 0
  | .less => 1
  | .default => 2
  | .aggressive => 3

def name : OptimizationLevel → String
  | .none => "NONE"
  | .less => "LESS"
  | .default => "DEFAULT"
  | .aggressive => "AGGRESSIVE"

def ofNumber? : Nat → Option OptimizationLevel
  | 0 => some .none
  | 1 => some .less
  | 2 => some .default
  | 3 => some .aggressive
  | _ => Option.none

def flags : List (String × OptimizationLevel) :=
  [("0", .none), ("1", .less), ("2", .default), ("3", .aggressive)]

def parse : Option String → Outcome OptimizationLevel
  | Option.none => .ok .default
  | some s =>
    match valueAt? s flags with
    | some level => .ok level
    | Option.none => .error (.optimizationLevel s)

end OptimizationLevel

inductive DisplayColor where
  | enable
  | disable
  | auto
  deriving DecidableEq

namespace DisplayColor

def text : DisplayColor → String
  | .enable => "enable"
  | .disable => "disable"
  | .auto => "auto"

def ofText : String → DisplayColor
  | "enable" => .enable
  | "disable" => .disable
  | _ => .auto

/-- A flag outranks the environment; what is unknown means that the choice is automatic. -/
def resolve (flag configured : Option String) : DisplayColor :=
  match flag with
  | some s => ofText s
  | none => (configured.map ofText).getD .auto

end DisplayColor

/-- The machine at work, by the names of its architecture and its system. -/
structure Machine where
  architecture : String
  system : String

namespace Target

def find (triple : String) : Outcome Target :=
  if supported.contains triple then .ok ⟨triple⟩ else .error (.unknownTarget triple)

def host (m : Machine) : Outcome Target :=
  let architecture := valueAt? (Text.lower m.architecture) architectures
  let system := (systems.find? fun s => s.1.toList.isPrefixOf m.system.toList).map (·.2)
  match architecture, system with
  | some a, some s => find (a ++ "-" ++ s)
  | _, _ => .error (.unsupportedHost m.architecture m.system)

end Target

structure CompileOptions where
  target : Target
  level : OptimizationLevel
  outDir : Option Files.Path
  color : DisplayColor

/-- What the command line says about a compilation. -/
structure CompileFlags where
  level : Option String
  target : Option String
  color : Option String

/-- The target is looked at before the level. -/
def CompileOptions.of (m : Machine) (flags : CompileFlags) (configuredColor : Option String)
    (outDir : Option Files.Path) : Outcome CompileOptions := do
  let target ← match flags.target with
    | some triple => Target.find triple
    | none => Target.host m
  let level ← OptimizationLevel.parse flags.level
  return ⟨target, level, outDir, DisplayColor.resolve flags.color configuredColor⟩

end Hotload
