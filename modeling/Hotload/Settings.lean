import Hotload.Environment
import Hotload.Failure
import Hotload.Numeral
import Hotload.Text.LetterCase

/-!
Settings from the environment. Readers of the two numbers fail before the settings are checked as a whole; the check is
made elsewhere and names every setting that is out of range. Settings are read once and kept until they are dropped.
-/
namespace Hotload

structure Settings where
  logLevel : String
  logJson : Bool
  color : Option String
  outDir : Option Files.Path
  compiler : String
  languageServer : String
  pollInterval : Binary64
  reloadDelay : Int

namespace Settings

/-- A check of the poll interval and the reload delay. It tells the settings that are out of range, with the rule that
each breaks: the interval has to be positive, and the delay must not be negative. -/
structure Checker where
  faults : Binary64 → Int → List (String × String)
  faults_eq_nil : ∀ interval delay, faults interval delay = [] ↔ interval.isPositive = true ∧ 0 ≤ delay

/-- What settings rest on beside the environment. -/
structure Basis where
  /-- The home directories of users by their names, and that of the running one under the empty name. -/
  homes : String → Option String
  checker : Checker

def isYes (s : String) : Bool :=
  ["1", "true", "yes", "on"].contains (Text.lower s)

/-- The home directory of a user. That of the running one may stand in the environment. -/
def homeOf (b : Basis) (e : Environment) (user : String) : Option String :=
  if user = "" then (e.get? "HOME").or (b.homes user) else b.homes user

/-- A text without the slashes at its end, or the root if there is nothing else. -/
def withoutSlashes (s : String) : String :=
  let t := String.ofList (s.toList.reverse.dropWhile (· = '/')).reverse
  if t = "" then "/" else t

/-- A leading tilde with the name of a user after it stands for the home directory of that user. -/
def expandHome (b : Basis) (e : Environment) (p : Files.Path) : Outcome Files.Path :=
  match p.anchor, p.parts with
  | .relative, part :: rest =>
    match part.toList with
    | '~' :: user =>
      match (homeOf b e (String.ofList user)).map withoutSlashes with
      | none => .error .unknownHome
      | some home =>
        if home.toList.head? = some '~' then .error .unknownHome
        else
          let directory := Files.Path.ofString home
          .ok ⟨directory.anchor, directory.parts ++ rest⟩
    | _ => .ok p
  | _, _ => .ok p

def outDirOf (b : Basis) (e : Environment) : Outcome (Option Files.Path) :=
  match e.filled? "MUN_OUT_DIR" with
  | none => .ok none
  | some s => (expandHome b e (Files.Path.ofString s)).map some

def pollIntervalOf (e : Environment) : Outcome Binary64 :=
  let raw := (e.get? "MUN_WATCH_POLL_INTERVAL").getD "0.25"
  match Numeral.readReal raw.toList with
  | some x => .ok x
  | none => .error (.notNumber "MUN_WATCH_POLL_INTERVAL" raw)

def reloadDelayOf (e : Environment) : Outcome Int :=
  let raw := (e.get? "MUN_RELOAD_DELAY_MS").getD "10"
  match Numeral.readInteger raw.toList with
  | .ok n => .ok n
  | .error _ => .error (.notNumber "MUN_RELOAD_DELAY_MS" raw)

def load (b : Basis) (e : Environment) : Outcome Settings := do
  let outDir ← outDirOf b e
  let pollInterval ← pollIntervalOf e
  let reloadDelay ← reloadDelayOf e
  let fs := b.checker.faults pollInterval reloadDelay
  if fs.isEmpty then
    return ⟨(e.get? "MUN_LOG_LEVEL").getD "WARNING", ((e.get? "MUN_LOG_JSON").map isYes).getD false,
      e.filled? "MUN_TERMINAL_COLOR", outDir, (e.get? "MUN_COMPILER").getD "munc",
      (e.get? "MUN_LANGUAGE_SERVER").getD "mun-language-server", pollInterval, reloadDelay⟩
  else .error (.invalidSettings fs)

/-- Settings that are kept, with a number that tells one reading of them from another. -/
structure Cache where
  kept : Option (Nat × Settings)
  readings : Nat

def Cache.empty : Cache := ⟨none, 0⟩

def Cache.drop (c : Cache) : Cache :=
  { c with kept := none }

/-- The kept settings, read first if there are none; a reading that fails leaves nothing behind. -/
def Cache.get (b : Basis) (e : Environment) (c : Cache) : Outcome (Nat × Settings) × Cache :=
  match c.kept with
  | some kept => (.ok kept, c)
  | none =>
    match load b e with
    | .ok s => (.ok (c.readings, s), ⟨some (c.readings, s), c.readings + 1⟩)
    | .error f => (.error f, c)

end Settings

end Hotload
