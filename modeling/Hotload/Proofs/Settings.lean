import Hotload.Proofs.Action
import Hotload.Toolchain.External

/-!
What settings take from the environment, and what the external toolchain takes from them.
-/
namespace Hotload

theorem Environment.get?_unset (e : Environment) (name k : String) :
    (e.unset name).get? k = if k = name then none else e.get? k := by
  induction e with
  | nil => exact (ite_self none).symm
  | cons v e ih =>
    obtain ⟨a, value⟩ := v
    rw [unset, List.filter_cons]
    by_cases ha : a = name
    · subst ha
      rw [if_neg (by simp)]
      refine ih.trans ?_
      by_cases hk : k = a
      · rw [if_pos hk, if_pos hk]
      · rw [if_neg hk, if_neg hk, get?, get?, valueAt?, if_neg (Ne.symm hk)]
    · rw [if_pos (by simpa using ha)]
      simp only [get?, valueAt?] at ih ⊢
      by_cases hk : a = k
      · subst hk
        rw [if_pos rfl, if_pos rfl, if_neg ha]
      · rw [if_neg hk, if_neg hk]
        exact ih

theorem Environment.get?_set (e : Environment) (name value k : String) :
    (e.set name value).get? k = if name = k then some value else e.get? k :=
  valueAt?_setEntry name value e k

/-- Settings as an environment gives them. -/
structure Settings.Of (b : Basis) (e : Environment) (s : Settings) : Prop where
  color : s.color = e.filled? "MUN_TERMINAL_COLOR"
  outDir : outDirOf b e = .ok s.outDir
  compiler : s.compiler = (e.get? "MUN_COMPILER").getD "munc"
  languageServer : s.languageServer = (e.get? "MUN_LANGUAGE_SERVER").getD "mun-language-server"
  positive : s.pollInterval.isPositive = true
  nonneg : 0 ≤ s.reloadDelay

theorem Settings.load_ok {b : Basis} {e : Environment} {s : Settings} (h : load b e = .ok s) : Of b e s := by
  obtain ⟨outDir, hout, h⟩ := Outcome.bind_ok h
  obtain ⟨interval, -, h⟩ := Outcome.bind_ok h
  obtain ⟨delay, -, h⟩ := Outcome.bind_ok h
  dsimp only at h
  split at h
  · next hf =>
    cases h
    obtain ⟨hpositive, hnonneg⟩ := (b.checker.faults_eq_nil _ _).1 (List.isEmpty_iff.1 hf)
    exact ⟨rfl, hout, rfl, rfl, hpositive, hnonneg⟩
  · cases h

/-- When settings can be loaded, they can be loaded with another delay if there is one that is not negative. -/
theorem Settings.load_of_agree {b : Basis} {e e' : Environment} {settings : Settings}
    (hl : load b e = .ok settings) (hagree : ∀ k, k ≠ "MUN_RELOAD_DELAY_MS" → e'.get? k = e.get? k) :
    load b e' = reloadDelayOf e' >>= fun n =>
      if 0 ≤ n then .ok { settings with reloadDelay := n }
      else .error (.invalidSettings (b.checker.faults settings.pollInterval n)) := by
  obtain ⟨outDir, hout, hl⟩ := Outcome.bind_ok hl
  obtain ⟨interval, hinterval, hl⟩ := Outcome.bind_ok hl
  obtain ⟨delay, -, hl⟩ := Outcome.bind_ok hl
  dsimp only at hl
  split at hl
  · next hfaults =>
    obtain ⟨hpositive, -⟩ := (b.checker.faults_eq_nil _ _).1 (List.isEmpty_iff.1 hfaults)
    have hhome : homeOf b e' = homeOf b e := by
      funext user
      rw [homeOf, homeOf, hagree _ (by decide)]
    have hout' : outDirOf b e' = .ok outDir := by
      simp only [← hout, outDirOf, expandHome, Environment.filled?, hhome, hagree "MUN_OUT_DIR" (by decide)]
    have hinterval' : pollIntervalOf e' = .ok interval := by
      rw [← hinterval, pollIntervalOf, pollIntervalOf, hagree _ (by decide)]
    cases hl
    simp only [load, hout', hinterval', bind, Except.bind, Environment.filled?, hagree "MUN_LOG_LEVEL" (by decide),
      hagree "MUN_LOG_JSON" (by decide), hagree "MUN_TERMINAL_COLOR" (by decide), hagree "MUN_COMPILER" (by decide),
      hagree "MUN_LANGUAGE_SERVER" (by decide)]
    cases reloadDelayOf e' with
    | error f => rfl
    | ok n =>
      dsimp only
      by_cases hn : 0 ≤ n
      · rw [(b.checker.faults_eq_nil interval n).2 ⟨hpositive, hn⟩, if_pos hn]
        rfl
      · have hfault : b.checker.faults interval n ≠ [] := fun h => hn ((b.checker.faults_eq_nil _ _).1 h).2
        rw [if_neg hn, if_neg (mt List.isEmpty_iff.1 hfault)]
  · cases hl

namespace External

variable {s : Settings} {loader : NativeLoader} {x : External}

theorem ofSettings_ok (h : ofSettings s loader = .ok x) :
    words s.compiler = .ok x.compiler ∧ words s.languageServer = .ok x.server ∧ x.pollInterval = s.pollInterval ∧
      x.debounce = s.reloadDelay := by
  obtain ⟨compiler, hcompiler, h⟩ := Outcome.bind_ok h
  obtain ⟨server, hserver, h⟩ := Outcome.bind_ok h
  cases h
  exact ⟨hcompiler, hserver, rfl, rfl⟩

theorem ofSettings_error {f : Failure} (h : ofSettings s loader = .error f) :
    words s.compiler = .error f ∨ words s.languageServer = .error f := by
  obtain hcompiler | ⟨compiler, -, h⟩ := Outcome.bind_error h
  · exact .inl hcompiler
  · obtain hserver | ⟨server, -, h⟩ := Outcome.bind_error h
    · exact .inr hserver
    · cases h

end External

end Hotload
