import Hotload.Proofs.Delay
import Hotload.Proofs.Numeral.Integer
import Hotload.Proofs.Session.Environment
import Hotload.Proofs.Settings

/-!
The delay of the environment and the delay of a start. Both are digits with blanks around them, but the settings do not skip
the four separators: with one of these in the variable they are not loaded at all. Without a separator, a start with the
variable does what a start with the same text as its delay does.
-/
namespace Hotload

open Numeral

variable {b : Settings.Basis} {e : Environment} {settings : Settings} {text : String} {n : Int}

namespace Settings

/-- The variable of the environment that gives the delay. -/
def delayVariable : String := "MUN_RELOAD_DELAY_MS"

/-- A delay that a start takes is taken from the variable, too, just if it has no separator. -/
theorem reloadDelayOf_set (hn : Delay.parse (.text text) = .ok n) (e : Environment) :
    reloadDelayOf (e.set delayVariable text) = .ok n ∧ (∀ c ∈ text.toList, ¬IsSeparator c) ∨
      reloadDelayOf (e.set delayVariable text) = .error (.notNumber delayVariable text) ∧
        ∃ c ∈ text.toList, IsSeparator c := by
  obtain ⟨digits, hw, hlen, rfl, -⟩ := Delay.parse_text_ok_iff.1 hn
  obtain ⟨before, after, htext, hblank⟩ := hw.within
  have hget : (e.set delayVariable text).get? delayVariable = some text := by
    rw [Environment.get?_set, if_pos rfl]
  rw [delayVariable] at hget ⊢
  rw [reloadDelayOf, hget]
  dsimp only [Option.getD_some]
  rw [htext]
  obtain ⟨h, hsep⟩ | ⟨h, hsep⟩ := readInteger_blanks hw.ne_nil hw.isDigit hlen hblank
  · rw [h]
    exact .inl ⟨rfl, hsep⟩
  · rw [h]
    exact .inr ⟨rfl, hsep⟩

theorem load_set (hn : Delay.parse (.text text) = .ok n) (hl : load b (e.unset delayVariable) = .ok settings) :
    load b (e.set delayVariable text) = .ok { settings with reloadDelay := n } ∧ (∀ c ∈ text.toList, ¬IsSeparator c) ∨
      load b (e.set delayVariable text) = .error (.notNumber delayVariable text) ∧ ∃ c ∈ text.toList, IsSeparator c := by
  have hagree : ∀ k, k ≠ delayVariable → (e.set delayVariable text).get? k = (e.unset delayVariable).get? k := by
    intro k hk
    rw [Environment.get?_set, Environment.get?_unset, if_neg hk.symm, if_neg hk]
  have hnonneg : 0 ≤ n := by
    obtain ⟨digits, -, -, rfl, -⟩ := Delay.parse_text_ok_iff.1 hn
    omega
  rw [load_of_agree hl hagree]
  obtain ⟨hd, hsep⟩ | ⟨hd, hsep⟩ := reloadDelayOf_set hn e
  · rw [hd]
    exact .inl ⟨if_pos hnonneg, hsep⟩
  · rw [hd]
    exact .inr ⟨rfl, hsep⟩

end Settings

namespace CommandLine

open Settings (delayVariable)

/-- An accepted text gives its delay as the flag of a start. -/
theorem parse_flag (hn : Delay.parse (.text text) = .ok n) (settings : Settings) :
    Delay.parse (((some text).map Value.text).getD (.int settings.reloadDelay)) = .ok n := hn

/-- The delay of the settings is one that a start accepts, if it was accepted as a text. -/
theorem parse_setting (hn : Delay.parse (.text text) = .ok n) (settings : Settings) :
    Delay.parse (((none : Option String).map Value.text).getD (.int { settings with reloadDelay := n }.reloadDelay)) =
      .ok n := by
  obtain ⟨digits, -, -, rfl, hle⟩ := Delay.parse_text_ok_iff.1 hn
  exact Delay.parse_int_ok_iff.2 ⟨rfl, Int.natCast_nonneg _, hle⟩

/-- The session that the variable leads to is the one that the flag leads to without the variable. -/
theorem startSession_variable {h : Host} (hn : Delay.parse (.text text) = .ok n)
    (hset : Settings.load h.platform.basis (e.set delayVariable text) = .ok { settings with reloadDelay := n })
    (hunset : Settings.load h.platform.basis (e.unset delayVariable) = .ok settings) (given : Option Toolchain)
    (library : String) :
    startSession given library none (h.under (e.set delayVariable text)) =
      ((startSession given library (some text) (h.under (e.unset delayVariable))).1.map
          (·.under (e.set delayVariable text)),
        (startSession given library (some text) (h.under (e.unset delayVariable))).2.under (e.set delayVariable text)) := by
  rw [startSession_eq hset (parse_setting hn settings), startSession_eq hunset (parse_flag hn settings), loaderOf_delay]
  exact sessionOn_under _ library n _ (e.set delayVariable text) (h.under (e.unset delayVariable))

theorem runStart_flag {h : Host} (hn : Delay.parse (.text text) = .ok n)
    (hset : Settings.load h.platform.basis h.environment = .ok { settings with reloadDelay := n }) (given : Option Toolchain)
    (library entry : String) : runStart given library entry none h = runStart given library entry (some text) h := by
  have hvariable := parse_setting hn settings
  have hflag := parse_flag hn { settings with reloadDelay := n }
  simp only [runStart, Action.bind_eq, loadSettings_eq, Action.lift_eq, hset, hvariable, hflag]

end CommandLine

open Settings (delayVariable)

/-- Let a text be accepted as a delay and let the other variables be in order. Then the settings are loaded with the delay
from the variable just if the text has no separator; else the variable is named in the failure. If they are loaded, a start
without a delay does in this environment what a start with the text does, and the session is the one of a start with the
text where the variable is not set; the delay is that of the text. -/
theorem load_delayVariable_iff (hn : Delay.parse (.text text) = .ok n)
    (hl : Settings.load b (e.unset delayVariable) = .ok settings) :
    (Settings.load b (e.set delayVariable text) = .ok { settings with reloadDelay := n } ↔
      ∀ c ∈ text.toList, ¬IsSeparator c) ∧
    (Settings.load b (e.set delayVariable text) = .error (.notNumber delayVariable text) ↔
      ∃ c ∈ text.toList, IsSeparator c) ∧
    ((∀ c ∈ text.toList, ¬IsSeparator c) → ∀ given library (h : Host), h.platform.basis = b →
      (∀ entry, CommandLine.runStart given library entry none (h.under (e.set delayVariable text)) =
        CommandLine.runStart given library entry (some text) (h.under (e.set delayVariable text))) ∧
      CommandLine.startSession given library none (h.under (e.set delayVariable text)) =
        ((CommandLine.startSession given library (some text) (h.under (e.unset delayVariable))).1.map
            (·.under (e.set delayVariable text)),
          (CommandLine.startSession given library (some text) (h.under (e.unset delayVariable))).2.under
            (e.set delayVariable text)) ∧
      ∀ s h', CommandLine.startSession given library none (h.under (e.set delayVariable text)) = (.ok s, h') →
        s.handle.delay = n ∧ s.handle.debouncer.delay = n) := by
  obtain ⟨hload, hsep⟩ | ⟨hload, hsep⟩ := Settings.load_set hn hl
  · refine ⟨iff_of_true hload hsep, iff_of_false (by rw [hload]; nofun) (fun ⟨c, hc, h⟩ => hsep c hc h), ?_⟩
    rintro - given library h rfl
    refine ⟨CommandLine.runStart_flag hn hload given library, CommandLine.startSession_variable hn hload hl given library, ?_⟩
    intro s h' hs
    rw [CommandLine.startSession_eq hload (CommandLine.parse_setting hn settings)] at hs
    exact CommandLine.sessionOn_delay hs
  · have hnot : ¬∀ c ∈ text.toList, ¬IsSeparator c := fun h => hsep.elim fun c hc => h c hc.1 hc.2
    exact ⟨iff_of_false (by rw [hload]; nofun) hnot, iff_of_true hload hsep, fun h => absurd h hnot⟩

theorem load_bare : ∃ settings, Settings.load Host.bare.platform.basis (Environment.unset [] delayVariable) = .ok settings :=
  ⟨_, rfl⟩

/-- Five milliseconds are taken from the variable, with a blank before the digit. -/
theorem load_delayVariable_iff_five :
    ∃ settings, Delay.parse (.text " 5") = .ok 5 ∧
      Settings.load Host.bare.platform.basis (Environment.unset [] delayVariable) = .ok settings ∧
      Settings.load Host.bare.platform.basis (Environment.set [] delayVariable " 5") =
        .ok { settings with reloadDelay := 5 } := by
  have hn : Delay.parse (.text " 5") = .ok 5 := rfl
  obtain ⟨settings, hl⟩ := load_bare
  exact ⟨settings, hn, hl, (load_delayVariable_iff hn hl).1.2 (by simp [IsSeparator])⟩

/-- With a separator before the digit the start accepts five milliseconds, but the settings are not loaded. -/
theorem load_delayVariable_iff_fails :
    ∃ settings, Delay.parse (.text "\x1c5") = .ok 5 ∧
      Settings.load Host.bare.platform.basis (Environment.unset [] delayVariable) = .ok settings ∧
      Settings.load Host.bare.platform.basis (Environment.set [] delayVariable "\x1c5") =
        .error (.notNumber delayVariable "\x1c5") := by
  obtain ⟨settings, hl⟩ := load_bare
  exact ⟨settings, rfl, hl, rfl⟩

end Hotload
