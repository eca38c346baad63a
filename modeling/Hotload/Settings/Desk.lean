import Hotload.Settings

/-!
Settings as they are used over time. What they are read from may change at any moment; they are read for once, or kept
settings are asked for, or dropped.
-/
namespace Hotload.Settings

inductive Use where
  | change (basis : Basis) (environment : Environment)
  | load
  | get
  | drop

def Use.isLoad : Use → Bool
  | .load => true
  | _ => false

/-- What settings are read from after some changes: the basis and the environment of the last one. -/
def surroundings (b : Basis) (e : Environment) : List Use → Basis × Environment
  | [] => (b, e)
  | .change b' e' :: us => surroundings b' e' us
  | _ :: us => surroundings b e us

/-- What settings are read from, with the settings that are kept. -/
structure Desk where
  basis : Basis
  environment : Environment
  cache : Cache

namespace Desk

def start (b : Basis) (e : Environment) : Desk :=
  ⟨b, e, .empty⟩

/-- What reading the settings for once comes to. -/
def load (d : Desk) : Outcome Settings :=
  Settings.load d.basis d.environment

/-- What asking for the kept settings comes to. -/
def get (d : Desk) : Outcome (Nat × Settings) × Desk :=
  let (r, cache) := d.cache.get d.basis d.environment
  (r, { d with cache := cache })

def use (d : Desk) : Use → Desk
  | .change b e => { d with basis := b, environment := e }
  | .load => d
  | .get => d.get.2
  | .drop => { d with cache := d.cache.drop }

def after (d : Desk) (us : List Use) : Desk :=
  us.foldl use d

/-- No reading for keeping has succeeded since the settings were last dropped. -/
def Unread (d : Desk) (us : List Use) : Prop :=
  ∀ xs ys, us = xs ++ .get :: ys → .drop ∉ ys → ∃ f, (d.after xs).load = .error f

/-- The settings that are given out after some uses are those read after earlier ones of them: that reading is the first
to succeed since the settings were dropped, and they have not been dropped since. -/
structure Source (d : Desk) (us earlier : List Use) : Prop where
  reached : ∃ later, us ++ [.get] = earlier ++ .get :: later ∧ .drop ∉ later
  succeeds : ∃ s, (d.after earlier).load = .ok s
  first : d.Unread earlier

end Desk

end Hotload.Settings
