import Hotload.CommandLine.Run
import Hotload.Proofs.Action

/-!
Commands around their work. Whatever the command, its work is done in a context of its own and its outcome is reported.
-/
namespace Hotload.CommandLine

theorem loadSettings_eq (h : Host) : loadSettings h = (Settings.load h.platform.basis h.environment, h) :=
  Action.lift_eq (Settings.load h.platform.basis h.environment) h

theorem reported_eq (name : CommandName) (work : Action Bool) (h : Host) :
    reported name work h =
      match work { h with context := h.context.enter [("command", .text name.text)] } with
      | (.ok b, h₁) => (.ok b, { h₁ with context := h.context })
      | (.error f, h₁) =>
        if f.isOwn then
          (.ok false,
            { (Action.printError (errorLine h.platform.console f.message) (Action.log (failedEvent f) h₁).2).2 with
              context := h.context })
        else (.error f, { h₁ with context := h.context }) := by
  simp only [reported, Action.within_eq, Action.bind_eq, Action.get_eq, Action.attempt_eq]
  rcases work { h with context := h.context.enter [("command", .text name.text)] } with ⟨f | b, h₁⟩
  · dsimp only
    split <;> rfl
  · rfl

theorem forM_printError (lines : List String) (h : Host) :
    ∃ out, lines.forM Action.printError h = (.ok (), { h with stderr := out }) := by
  induction lines generalizing h with
  | nil => exact ⟨h.stderr, rfl⟩
  | cons line lines ih =>
    have hprint : Action.printError line h = (.ok (), { h with stderr := h.stderr ++ line ++ "\n" }) := rfl
    obtain ⟨out, hlines⟩ := ih { h with stderr := h.stderr ++ line ++ "\n" }
    exact ⟨out, (Action.bind_of_ok hprint).trans hlines⟩

theorem abort_eq (p : Platform) (h : Host) : ∃ out, abort p h = (.ok (), { h with stderr := out }) := by
  have hprint : Action.printError p.reader.interrupted h =
      (.ok (), { h with stderr := h.stderr ++ p.reader.interrupted ++ "\n" }) := rfl
  obtain ⟨out, hlines⟩ := forM_printError (p.console.lines "Aborted!")
    { h with stderr := h.stderr ++ p.reader.interrupted ++ "\n" }
  exact ⟨out, (Action.bind_of_ok hprint).trans hlines⟩

theorem run_eq (given : Option Toolchain) (words : List String) (h : Host) :
    run given words h =
      match execute given (h.platform.reader.plan words) h with
      | (.ok b, h₁) => (.ok b, h₁)
      | (.error f, h₁) =>
        if f.isOrdinary then (.error f, h₁) else (.ok false, (abort h.platform h₁).2) := by
  simp only [run, Action.bind_eq, Action.get_eq, Action.attempt_eq]
  rcases execute given (h.platform.reader.plan words) h with ⟨f | b, h₁⟩
  · obtain ⟨out, habort⟩ := abort_eq h.platform h₁
    dsimp only
    split
    · rfl
    · rw [Action.bind_of_ok habort, habort]
      rfl
  · rfl

/-- What debugging output is wanted for is set up. -/
def verbosely (verbose : Bool) (h : Host) : Host :=
  if verbose then { h with sink := some ⟨10, false⟩ } else h

theorem setUp_debug (configured : Option String) : Log.setUp (some "DEBUG") configured false = .ok ⟨10, false⟩ := by
  have hgiven : (some "DEBUG").filter (· != "") = some "DEBUG" := rfl
  have hname : Log.firstName (some "DEBUG") configured = "DEBUG" := by
    rw [Log.firstName, hgiven]
    rfl
  have hlevel : Log.levelOf "DEBUG" = .ok 10 := rfl
  rw [Log.setUp, hname, hlevel]
  rfl

theorem setUpLog_debug (h : Host) : Action.setUpLog (some "DEBUG") false h = (.ok (), verbosely true h) := by
  simp only [Action.setUpLog, Action.bind_eq, Action.get_eq, setUp_debug, Action.lift_eq]
  rfl

theorem execute_run (given : Option Toolchain) (verbose : Bool) (c : Command) (h : Host) :
    execute given (.run verbose c) h = runCommand given c (verbosely verbose h) := by
  cases verbose with
  | false => rfl
  | true =>
    have hrun : execute given (.run true c) h =
        (Action.setUpLog (some "DEBUG") false >>= fun _ => runCommand given c) h := rfl
    rw [hrun, Action.bind_of_ok (setUpLog_debug h)]

/-- What becomes of the outcome of a command's work: own failures and interrupts are reported, others passed on. -/
def settle : Outcome Bool → Outcome Bool
  | .ok b => .ok b
  | .error f => if f.isOwn || !f.isOrdinary then .ok false else .error f

theorem settle_eq_ok {r : Outcome Bool} {b : Bool} (h : settle r = .ok b) :
    r = .ok b ∨ b = false ∧ ∃ f, r = .error f ∧ (f.isOwn = true ∨ f.isOrdinary = false) := by
  cases r with
  | ok b' => exact .inl h
  | error f =>
    rw [settle] at h
    split at h
    · next hf =>
      cases h
      rw [Bool.or_eq_true, Bool.not_eq_true'] at hf
      exact .inr ⟨rfl, f, rfl, hf⟩
    · cases h

/-- The work of a command. -/
def work (given : Option Toolchain) : Command → Action Bool
  | .build manifest watch flags => runBuild given manifest watch flags
  | .start library entry delay => runStart given library entry delay
  | .languageServer => runLanguageServer given
  | .new path quiet => runNew path quiet

theorem runCommand_eq (given : Option Toolchain) (c : Command) : runCommand given c = reported c.name (work given c) := by
  cases c <;> rfl

/-- The machine as the work of a command finds it. -/
def commandHost (c : CommandName) (verbose : Bool) (h : Host) : Host :=
  { verbosely verbose h with context := h.context.enter [("command", .text c.text)] }

theorem execute_command (given : Option Toolchain) (verbose : Bool) (c : Command) (h : Host) :
    execute given (.run verbose c) h =
      match work given c (commandHost c.name verbose h) with
      | (.ok b, h₁) => (.ok b, { h₁ with context := h.context })
      | (.error f, h₁) =>
        if f.isOwn then
          (.ok false,
            { (Action.printError (errorLine h.platform.console f.message) (Action.log (failedEvent f) h₁).2).2 with
              context := h.context })
        else (.error f, { h₁ with context := h.context }) := by
  have hcontext : (verbosely verbose h).context = h.context := by cases verbose <;> rfl
  rw [execute_run, runCommand_eq, reported_eq, hcontext]
  cases verbose <;> rfl

/-- Reporting adds to the log and to the error output. -/
theorem run_command {words : List String} {verbose : Bool} {c : Command} {h : Host}
    (hw : h.platform.reader.plan words = .run verbose c) (given : Option Toolchain) :
    let x := work given c (commandHost c.name verbose h)
    (run given words h).1 = settle x.1 ∧ (run given words h).2.shelf = x.2.shelf ∧
      (run given words h).2.stdout = x.2.stdout ∧ (run given words h).2.effects = x.2.effects ∧
      (run given words h).2.launches = x.2.launches := by
  rw [run_eq, hw, execute_command]
  rcases work given c (commandHost c.name verbose h) with ⟨f | b, h₁⟩
  · dsimp only [settle]
    cases ho : f.isOwn with
    | true => exact ⟨rfl, rfl, rfl, rfl, rfl⟩
    | false =>
      rw [if_neg Bool.false_ne_true]
      dsimp only
      obtain ⟨out, habort⟩ := abort_eq h.platform { h₁ with context := h.context }
      rw [habort]
      cases f.isOrdinary <;> exact ⟨rfl, rfl, rfl, rfl, rfl⟩
  · exact ⟨rfl, rfl, rfl, rfl, rfl⟩

end Hotload.CommandLine
