import Hotload.Platform
import Hotload.StandIn.Console
import Hotload.StandIn.Linker
import Hotload.StandIn.Reader

/-!
A platform to run on where the real one is out of reach. It stands in for libraries and parts of the system that are made
elsewhere, as far as the program makes use of them.
-/
namespace Hotload.StandIn

def checker : Settings.Checker where
  faults interval delay :=
    (if interval.isPositive then [] else [("watch_poll_interval", "greater_than")])
      ++ (if 0 ≤ delay then [] else [("reload_delay_ms", "greater_than_equal")])
  faults_eq_nil interval delay := by
    by_cases hi : interval.isPositive = true <;> by_cases hd : 0 ≤ delay <;> simp [hi, hd]

/-- Nobody is known but the running user. -/
def basis (home : String) : Settings.Basis where
  homes user := if user = "" then some home else none
  checker := checker

def platform (home : String) (join : Join) : Platform where
  basis := basis home
  reader := reader
  console := console
  linker := linker
  spare := 900
  join := join

end Hotload.StandIn
