import Hotload.Proofs.CommandLine.Run
import Hotload.Proofs.Session.Release
import Hotload.Proofs.Shared.Release

/-!
Starting a library from the command line. What the command does is a session that is spawned, invoked once and closed. It
ends well if there was a session, the call returned and the watcher could be waited for; then what was printed is the text
of the value. Where the watcher cannot be waited for, the library stays open.
-/
namespace Hotload

namespace CommandLine

variable {given : Option Toolchain} {library entry : String} {delay : Option String} {h h' : Host} {s : Session}
  {settings : Settings}

/-- The session that is spawned for a library. -/
def startSession (given : Option Toolchain) (library : String) (delay : Option String) : Action Session := do
  let settings ← loadSettings
  let delay ← Action.lift (Delay.parse ((delay.map Value.text).getD (.int settings.reloadDelay)))
  let loader := (← toolchain given).loader
  let handle ← Handle.spawn loader (Files.Path.ofString library) delay settings.pollInterval true
  return ⟨← get, loader, handle⟩

theorem toolchain_host (given : Option Toolchain) (h : Host) : (toolchain given h).2 = h := by
  cases given with
  | some t => rfl
  | none =>
    simp only [toolchain, Action.bind_eq, loadSettings_eq, Action.get_eq, Action.lift_eq]
    cases Settings.load h.platform.basis h.environment with
    | error f => rfl
    | ok settings =>
      dsimp only
      cases External.ofSettings settings h.platform.loader <;> rfl

theorem closeHandle_eq (loader : Loader) (handle : Handle) (h : Host) :
    closeHandle loader handle h = ((Session.close ⟨h, loader, handle⟩).1, (Session.close ⟨h, loader, handle⟩).2.host) := by
  simp only [closeHandle, Action.bind_eq, Action.get_eq]
  exact Action.lift_eq _ _

/-- What a call puts out. -/
def output : Outcome (Option String) → String
  | .ok (some t) => t ++ "\n"
  | _ => ""

theorem loader_invoke (entry : String) (s : Session) : (Invocation.invoke entry s).2.loader = s.loader := by
  unfold Invocation.invoke
  split
  · rfl
  · unfold Invocation.callAs Invocation.report
    dsimp only
    split <;> rfl

theorem printText_eq (r : Outcome (Option String)) (s : Session) :
    printText r s.host = (r.map fun _ => (), (s.print (output r)).host) := by
  rw [printText, Action.bind_eq, Action.lift_eq]
  rcases r with f | _ | text
  · exact congrArg (fun s : Session => (Except.error f, s.host)) s.print_empty.symm
  · exact congrArg (fun s : Session => (Except.ok (), s.host)) s.print_empty.symm
  · exact congrArg (fun out => (Except.ok (), { s.host with stdout := out })) String.append_assoc

/-- The text is printed before the handle is closed, and a failure to close it comes before what came of the call. -/
theorem invokeAndClose_eq (loader : Loader) (handle : Handle) (entry : String) (h : Host) :
    invokeAndClose loader handle entry h =
      let (r, s) := Invocation.invoke entry ⟨h, loader, handle⟩
      (s.close.1.bind fun _ => r.map fun _ => (), (s.close.2.print (output r)).host) := by
  have hloader := loader_invoke entry ⟨h, loader, handle⟩
  simp only [invokeAndClose, Action.bind_eq, Action.get_eq]
  generalize Invocation.invoke entry ⟨h, loader, handle⟩ = x at hloader
  obtain ⟨r, s⟩ := x
  obtain rfl : s.loader = loader := hloader
  have hclose := s.close_print (output r)
  have hlast := closeHandle_eq s.loader s.handle (s.print (output r)).host
  change Session.close ⟨(s.print (output r)).host, s.loader, s.handle⟩ = _ at hclose
  rw [hclose] at hlast
  change Action.andFinally (printText r) (closeHandle s.loader s.handle) s.host = _
  rw [Action.andFinally_eq, printText_eq, hlast]

/-- How a command ends that has a session: the failure to close it comes before what came of the call. -/
def ended (entry : String) (context : Log.Context) (s : Session) : Outcome Bool × Host :=
  let (r, s) := Invocation.invoke entry s
  (s.close.1.bind fun _ => r.map fun _ => true, { (s.close.2.print (output r)).host with context := context })

/-- The context of a start, in which everything is logged. -/
def startContext (library entry : String) (context : Log.Context) : Log.Context :=
  context.enter [("library", .text library), ("entry", .text entry)]

theorem runStart_eq (given : Option Toolchain) (library entry : String) (delay : Option String) (h : Host) :
    runStart given library entry delay h =
      match startSession given library delay { h with context := startContext library entry h.context } with
      | (.error f, h₁) => (.error f, { h₁ with context := h.context })
      | (.ok s, _) => ended entry h.context s := by
  simp only [runStart, startSession, Action.bind_eq, loadSettings_eq, Action.lift_eq, Action.within_eq, startContext]
  cases Settings.load h.platform.basis h.environment with
  | error f => rfl
  | ok settings =>
    dsimp only
    cases Delay.parse ((delay.map Value.text).getD (.int settings.reloadDelay)) with
    | error f => rfl
    | ok millis =>
      dsimp only
      rcases toolchain given { h with context := h.context.enter [("library", .text library), ("entry", .text entry)] } with
        ⟨f | t, h₁⟩
      · rfl
      · dsimp only
        rcases Handle.spawn t.loader (Files.Path.ofString library) millis settings.pollInterval true h₁ with
          ⟨f | handle, h₂⟩
        · rfl
        · simp only [Action.get_eq, Action.pure_eq, invokeAndClose_eq, ended]
          generalize Invocation.invoke entry ⟨h₂, t.loader, handle⟩ = x
          rcases x with ⟨f | text, s⟩
          all_goals rcases s.close with ⟨e | ⟨⟩, s'⟩ <;> rfl

/-- Nothing happens before the handle is spawned, and that is done with the poll interval of the settings. -/
theorem startSession_cases (given : Option Toolchain) (library : String) (delay : Option String) (h : Host) :
    (∃ f, startSession given library delay h = (.error f, h)) ∨
      ∃ settings loader millis, Settings.load h.platform.basis h.environment = .ok settings ∧
        startSession given library delay h =
          match Handle.spawn loader (Files.Path.ofString library) millis settings.pollInterval true h with
          | (.error f, h₁) => (.error f, h₁)
          | (.ok handle, h₁) => (.ok ⟨h₁, loader, handle⟩, h₁) := by
  simp only [startSession, Action.bind_eq, loadSettings_eq, Action.lift_eq]
  cases Settings.load h.platform.basis h.environment with
  | error f => exact .inl ⟨f, rfl⟩
  | ok settings =>
    dsimp only
    cases Delay.parse ((delay.map Value.text).getD (.int settings.reloadDelay)) with
    | error f => exact .inl ⟨f, rfl⟩
    | ok millis =>
      have ht := toolchain_host given h
      dsimp only
      rcases hx : toolchain given h with ⟨f | t, h₁⟩
      all_goals
        rw [hx] at ht
        dsimp only at ht ⊢
        rw [ht]
      · exact .inl ⟨f, rfl⟩
      · refine .inr ⟨settings, t.loader, millis, rfl, ?_⟩
        rcases Handle.spawn t.loader (Files.Path.ofString library) millis settings.pollInterval true h with
          ⟨f | handle, h₂⟩ <;> rfl

theorem startSession_ok (hs : startSession given library delay h = (.ok s, h')) :
    s.host = h' ∧ ∃ settings millis, Settings.load h.platform.basis h.environment = .ok settings ∧
      Handle.spawn s.loader (Files.Path.ofString library) millis settings.pollInterval true h = (.ok s.handle, h') := by
  obtain ⟨f, hf⟩ | ⟨settings, loader, millis, hsettings, hspawn⟩ := startSession_cases given library delay h
  · rw [hf] at hs
    cases hs
  · rw [hspawn] at hs
    rcases hh : Handle.spawn loader (Files.Path.ofString library) millis settings.pollInterval true h with
      ⟨f | handle, h₁⟩
    · rw [hh] at hs
      cases hs
    · rw [hh] at hs
      cases hs
      exact ⟨rfl, settings, millis, hsettings, hh⟩

theorem startSession_error {f : Failure} (hs : startSession given library delay h = (.error f, h')) :
    h'.shelf.libraries = h.shelf.libraries := by
  obtain ⟨e, he⟩ | ⟨settings, loader, millis, -, hspawn⟩ := startSession_cases given library delay h
  · rw [he] at hs
    cases hs
    rfl
  · rw [hspawn] at hs
    rcases hh : Handle.spawn loader (Files.Path.ofString library) millis settings.pollInterval true h with
      ⟨e | handle, h₁⟩
    · rw [hh] at hs
      cases hs
      exact Handle.spawn_error hh
    · rw [hh] at hs
      cases hs

/-- With a toolchain that is given nothing but the settings, the delay and the loading can go wrong. -/
theorem startSession_given {t : Toolchain} {millis : Int} {handle : Handle}
    (hsettings : Settings.load h.platform.basis h.environment = .ok settings)
    (hdelay : Delay.parse ((delay.map Value.text).getD (.int settings.reloadDelay)) = .ok millis)
    (hspawn : Handle.spawn t.loader (Files.Path.ofString library) millis settings.pollInterval true h =
      (.ok handle, h')) :
    startSession (some t) library delay h = (.ok ⟨h', t.loader, handle⟩, h') := by
  simp only [startSession, Action.bind_eq, loadSettings_eq, Action.lift_eq, hsettings, hdelay, toolchain, Action.pure_eq,
    hspawn, Action.get_eq]

/-- Until there is a session nothing is printed, and the platform is the one that was there. -/
theorem startSession_keeps (given : Option Toolchain) (library : String) (delay : Option String) (h : Host) :
    (startSession given library delay h).2.stdout = h.stdout ∧
      (startSession given library delay h).2.platform = h.platform := by
  obtain ⟨e, he⟩ | ⟨settings, loader, millis, -, hspawn⟩ := startSession_cases given library delay h
  · rw [he]
    exact ⟨rfl, rfl⟩
  · have hkeeps := (Handle.keeps_spawn loader (Files.Path.ofString library) millis settings.pollInterval h).2.2
    rw [hspawn]
    rcases hh : Handle.spawn loader (Files.Path.ofString library) millis settings.pollInterval true h with
      ⟨e | handle, h₁⟩
    all_goals rwa [hh] at hkeeps

/-- The machine as the work of a start finds it. -/
def startHost (verbose : Bool) (h : Host) : Host :=
  { verbosely verbose h with context := h.context.enter [("command", .text "start")] }

variable {words : List String} {verbose : Bool}

theorem run_start (hw : h.platform.reader.plan words = .run verbose (.start library entry delay))
    (given : Option Toolchain) :
    let x := runStart given library entry delay (startHost verbose h)
    (run given words h).1 = settle x.1 ∧ (run given words h).2.shelf = x.2.shelf ∧
      (run given words h).2.stdout = x.2.stdout := by
  obtain ⟨hr, hshelf, hout, -⟩ := run_command hw given
  exact ⟨hr, hshelf, hout⟩

/-- The machine as the session of a start is spawned on it. -/
def sessionHost (verbose : Bool) (library entry : String) (h : Host) : Host :=
  { startHost verbose h with context := startContext library entry (startHost verbose h).context }

theorem runStart_startHost (given : Option Toolchain) (library entry : String) (delay : Option String) (verbose : Bool)
    (h : Host) :
    runStart given library entry delay (startHost verbose h) =
      match startSession given library delay (sessionHost verbose library entry h) with
      | (.error f, h₁) => (.error f, { h₁ with context := (startHost verbose h).context })
      | (.ok s, _) => ended entry (startHost verbose h).context s :=
  runStart_eq given library entry delay (startHost verbose h)

/-- What the work of a start finds is what was there before the command, as far as it goes by it. -/
theorem sessionHost_eq (verbose : Bool) (library entry : String) (h : Host) :
    (sessionHost verbose library entry h).shelf = h.shelf ∧ (sessionHost verbose library entry h).stdout = h.stdout ∧
      (sessionHost verbose library entry h).platform = h.platform ∧
      (sessionHost verbose library entry h).environment = h.environment := by
  cases verbose <;> exact ⟨rfl, rfl, rfl, rfl⟩

/-- The session of a start is one on the only library that came, with a watcher at the poll interval of the settings. -/
theorem sole_of_startSession
    (hs : startSession given library delay (sessionHost verbose library entry h) = (.ok s, h')) :
    s.Fresh ∧ h.shelf.AddedTo (.ok s.handle.active) s.host.shelf ∧ s.host.stdout = h.stdout ∧
      s.host.platform = h.platform ∧ ∃ settings w, Settings.load h.platform.basis h.environment = .ok settings ∧
        w.interval = settings.pollInterval ∧ Session.Sole h.shelf w s := by
  obtain ⟨hshelf, hstdout, hplatform, henvironment⟩ := sessionHost_eq verbose library entry h
  have hkeeps := startSession_keeps given library delay (sessionHost verbose library entry h)
  obtain ⟨hhost, settings, millis, hsettings, hspawn⟩ := startSession_ok hs
  obtain ⟨w, hw, hsole⟩ := Handle.sole_of_spawn hspawn
  rw [hs, hstdout, hplatform, ← hhost] at hkeeps
  rw [hplatform, henvironment] at hsettings
  rw [← hhost, hshelf] at hsole
  rw [← hhost] at hspawn
  refine ⟨(Spawned.of hspawn).fresh, ?_, hkeeps.1, hkeeps.2, settings, w, hsettings, hw, hsole⟩
  rw [← hshelf]
  exact (Handle.spawn_ok hspawn).1

/-- How a start ends that has a session, and what is printed in all: the text of the value if the entry point returned. -/
inductive Concludes (entry : String) (s : Session) (before : String) : Bool → String → Prop where
  | returned {as : Option NativeType} {v : Value} {t : Option String} : Invocation.Returns entry s as v →
      Invocation.Prints as v t → Concludes entry s before true (before ++ (t.map (· ++ "\n")).getD "")
  | failed : (¬∃ as v, Invocation.Returns entry s as v) → Concludes entry s before false before

theorem stdout_ended (entry : String) (context : Log.Context) (s : Session) :
    (ended entry context s).2.stdout = s.host.stdout ++ output (Invocation.invoke entry s).1 := by
  have hout := Session.stdout_close (Invocation.invoke entry s).2
  rw [Invocation.stdout_invoke] at hout
  exact congrArg (· ++ output (Invocation.invoke entry s).1) hout

/-- If something is settled of a session that was invoked and closed, it went well just if the entry point returned, and
then the text of the value was printed. -/
theorem settle_ended {context : Log.Context} {b : Bool} (hc : (Invocation.invoke entry s).2.close.1 = .ok ())
    (hb : settle (ended entry context s).1 = .ok b) :
    Concludes entry s s.host.stdout b (ended entry context s).2.stdout := by
  rw [stdout_ended]
  rw [ended] at hb
  dsimp only at hb
  rw [hc] at hb
  obtain ⟨as, v, hv, htext⟩ | ⟨hnone, f, hf⟩ := Invocation.invoke_cases entry s
  · obtain ⟨t, ht, hprints⟩ | ⟨f, hf, how, hordinary⟩ := Invocation.textOf_cases as v
    · rw [htext, ht] at hb ⊢
      cases hb
      have houtput : output (.ok t) = (t.map (· ++ "\n")).getD "" := by cases t <;> rfl
      rw [houtput]
      exact .returned hv hprints
    · -- a value that cannot be converted is no failure that a command reports
      rw [htext, hf] at hb
      simp only [Except.bind, Except.map, settle, how, hordinary] at hb
      cases hb
  · rw [hf] at hb ⊢
    obtain hb | ⟨rfl, -⟩ := settle_eq_ok hb
    · cases hb
    · rw [output, String.append_empty]
      · exact .failed hnone
      · rintro t ⟨⟩

/-- With a delay that is refused, a start fails before anything is asked of a toolchain. -/
theorem runStart_of_refused {f : Failure} (hsettings : Settings.load h.platform.basis h.environment = .ok settings)
    (hdelay : Delay.parse ((delay.map Value.text).getD (.int settings.reloadDelay)) = .error f) :
    runStart given library entry delay h = (.error f, h) := by
  simp only [runStart, Action.bind_eq, loadSettings_eq, Action.lift_eq, hsettings, hdelay]

theorem runStart_refused {f : Failure} (hsettings : Settings.load h.platform.basis h.environment = .ok settings)
    (hdelay : Delay.parse ((delay.map Value.text).getD (.int settings.reloadDelay)) = .error f) (given : Option Toolchain)
    (library entry : String) (verbose : Bool) :
    runStart given library entry delay (startHost verbose h) = (.error f, startHost verbose h) := by
  have hload : Settings.load (startHost verbose h).platform.basis (startHost verbose h).environment = .ok settings := by
    cases verbose <;> exact hsettings
  exact runStart_of_refused hload hdelay

theorem run_refused {f : Failure} (hw : h.platform.reader.plan words = .run verbose (.start library entry delay))
    (hsettings : Settings.load h.platform.basis h.environment = .ok settings)
    (hdelay : Delay.parse ((delay.map Value.text).getD (.int settings.reloadDelay)) = .error f) (given : Option Toolchain) :
    (run given words h).2.shelf = h.shelf ∧ ∀ given', run given' words h = run given words h := by
  refine ⟨?_, fun given' => ?_⟩
  · rw [(run_start hw given).2.1, runStart_refused hsettings hdelay]
    cases verbose <;> rfl
  · have hwork (given : Option Toolchain) : work given (.start library entry delay)
        (commandHost (Command.start library entry delay).name verbose h) = (.error f, startHost verbose h) :=
      runStart_refused hsettings hdelay given library entry verbose
    rw [run_eq, run_eq, hw, execute_command, execute_command, hwork, hwork]

/-- Without a session nothing is printed and nothing was loaded; the start ends with the failure. -/
theorem run_start_error {f : Failure} (hw : h.platform.reader.plan words = .run verbose (.start library entry delay))
    (hs : startSession given library delay (sessionHost verbose library entry h) = (.error f, h')) :
    (run given words h).1 = settle (.error f) ∧ (run given words h).2.stdout = h.stdout ∧
      (run given words h).2.shelf.libraries = h.shelf.libraries := by
  obtain ⟨hr, hshelf, hout⟩ := run_start hw given
  obtain ⟨hshelf₀, hstdout₀, -⟩ := sessionHost_eq verbose library entry h
  have hquiet := (startSession_keeps given library delay (sessionHost verbose library entry h)).1
  rw [runStart_startHost, hs] at hr hshelf hout
  rw [hstdout₀, hs] at hquiet
  refine ⟨hr, hout.trans hquiet, ?_⟩
  rw [hshelf, ← hshelf₀, ← startSession_error hs]

/-- With a session the start ends as that does. -/
theorem run_start_ok (hw : h.platform.reader.plan words = .run verbose (.start library entry delay))
    (hs : startSession given library delay (sessionHost verbose library entry h) = (.ok s, h')) :
    (run given words h).1 = settle (ended entry (startHost verbose h).context s).1 ∧
      (run given words h).2.stdout = (ended entry (startHost verbose h).context s).2.stdout ∧
      (run given words h).2.shelf = (Invocation.invoke entry s).2.close.2.host.shelf := by
  obtain ⟨hr, hshelf, hout⟩ := run_start hw given
  rw [runStart_startHost, hs] at hr hshelf hout
  exact ⟨hr, hout, hshelf⟩

/-- A start that is made from the command line. If the delay is refused, no loader is used. If there is no session, it ends
with the failure: nothing was loaded, and nothing is printed. If there is one, it has a watcher at the poll interval of the
settings, and all goes by whether that can be waited for. If it can, the start, if it returns, went well just if the entry
point returned, and then the text of the value was printed and nothing else; the library is closed, nothing is watched, no
timer is set, and the thread of the watcher has ended if it did so in time. If it cannot, the start ends with that failure;
the library stays open and what goes on was not stopped. Whatever goes on meanwhile, once the owner has left the lock what is
left are libraries on the hands of reloads that are under way. -/
theorem run_start_ends (hw : h.platform.reader.plan words = .run verbose (.start library entry delay))
    (given : Option Toolchain) :
    let r := (run given words h).1
    let h' := (run given words h).2
    let started := (startSession given library delay (sessionHost verbose library entry h)).1
    (∀ settings f, Settings.load h.platform.basis h.environment = .ok settings →
      Delay.parse ((delay.map Value.text).getD (.int settings.reloadDelay)) = .error f →
        h'.shelf = h.shelf ∧ ∀ given', run given' words h = run given words h) ∧
    (∀ f, started = .error f →
      r = settle (.error f) ∧ h'.stdout = h.stdout ∧ h'.shelf.libraries = h.shelf.libraries) ∧
    ∀ s, started = .ok s → ∃ settings w, Settings.load h.platform.basis h.environment = .ok settings ∧
      w.interval = settings.pollInterval ∧ s.handle.working? = some w ∧
      let s' := (Invocation.invoke entry s).2.close.2
      h'.shelf = s'.host.shelf ∧
      (∀ ended, h.platform.join w.patience = .ok ended →
        (∀ b, r = .ok b → Concludes entry s h.stdout b h'.stdout) ∧ s'.Released h.shelf ∧
          s'.handle.lingering = !ended) ∧
      (∀ f, h.platform.join w.patience = .error f →
        r = settle (.error f) ∧ h'.stdout = h.stdout ++ output (Invocation.invoke entry s).1 ∧ s'.Abandoned h.shelf) ∧
      ∀ es v, Runs Shared.Upkeep.Step (Shared.start s) es v →
        (.shared (.owner .leave) ∈ es → (∀ b, .watch b ∉ es) → Shared.Left h.shelf v) ∧
        ∀ f, .shared (.owner (.fail f)) ∈ es → v.shelf.closes v.active = 0 := by
  intro r h' started
  refine ⟨fun _ _ => (run_refused hw · · given), fun f hf => ?_, fun s hs => ?_⟩
  · exact run_start_error hw (Prod.ext hf rfl)
  · have hs : startSession given library delay (sessionHost verbose library entry h) = (.ok s, _) := Prod.ext hs rfl
    obtain ⟨hr, hout, hshelf⟩ := run_start_ok hw hs
    obtain ⟨hfresh, hadd, hstdout, hplatform, settings, w, hsettings, hw, hsole⟩ := sole_of_startSession hs
    have hinvoked := hsole.invoke entry
    have hjoin : (Invocation.invoke entry s).2.host.platform.join = h.platform.join := by
      rw [Invocation.platform_invoke, hplatform]
    refine ⟨settings, w, hsettings, hw, hsole.working, hshelf, fun ended hj => ?_, fun f hj => ?_, fun es v hrun => ?_⟩
    · obtain ⟨hclose, hreleased, hlingering⟩ := hinvoked.released_close (hjoin ▸ hj)
      refine ⟨fun b hb => ?_, hreleased, hlingering⟩
      change Concludes entry s h.stdout b (run given words h).2.stdout
      rw [hout, ← hstdout]
      exact settle_ended hclose (hr.symm.trans hb)
    · obtain ⟨hclose, habandoned⟩ := hinvoked.abandoned_close (hjoin ▸ hj)
      refine ⟨?_, ?_, habandoned⟩
      · change (run given words h).1 = _
        rw [hr, ended]
        dsimp only
        rw [hclose]
        rfl
      · change (run given words h).2.stdout = _
        rw [hout, stdout_ended, hstdout]
    · refine ⟨fun hl hwatch => Shared.left_of_leave hfresh hadd hrun hl hwatch, fun f hf => ?_⟩
      have hseen := (Shared.Upkeep.mem_seen (a := .owner (.fail f)) nofun nofun).2 hf
      exact (Shared.Upkeep.seen_run hrun).open_of_fail hfresh hseen

/-- Once the entry point returned a value that has a text, and the handle was closed, the start goes well. -/
theorem run_start_returns {as : Option NativeType} {v : Value} {t : Option String}
    (hw : h.platform.reader.plan words = .run verbose (.start library entry delay))
    (hs : startSession given library delay (sessionHost verbose library entry h) = (.ok s, h'))
    (hc : (Invocation.invoke entry s).2.close.1 = .ok ()) (hv : Invocation.Returns entry s as v)
    (ht : Invocation.textOf as v = .ok t) : (run given words h).1 = .ok true := by
  rw [(run_start_ok hw hs).1, ended]
  dsimp only
  rw [hc]
  obtain ⟨as', v', hv', htext⟩ | ⟨hnone, -⟩ := Invocation.invoke_cases entry s
  · obtain ⟨rfl, rfl⟩ := hv.eq hv'
    rw [htext, ht]
    rfl
  · exact absurd ⟨as, v, hv⟩ hnone

/-- There is a command line for every start. -/
theorem plan_start (library entry : String) (delay : Option String) :
    StandIn.reader.plan (["start", "--entry", entry] ++ (delay.map (["--delay", ·])).getD [] ++ ["--", library]) =
      .run false (.start library entry delay) := by
  cases delay <;> rfl

/-- A loader of libraries with one function, which returns an integer. -/
def answering : GivenLoader :=
  ⟨[("main", ⟨⟨.text "main", [], some (.of "core::i64")⟩, .ok (.int 42)⟩)], none, false⟩

/-- A toolchain with that loader. -/
def answeringToolchain : Option Toolchain :=
  some (.substitute ⟨.ok true, .ok true, .ok true, .given answering⟩)

/-- A machine with nothing on it but a library file, with a poll interval and a way to wait for threads. -/
def pollingHost (interval : String) (join : Join) : Host :=
  { Host.bare with platform := StandIn.platform "/" join, environment := [("MUN_WATCH_POLL_INTERVAL", interval)] }

/-- The command line that starts its library. -/
def startWords : List String := ["start", "--entry", "main", "--", "/mod.so"]

variable {interval : String}

theorem startSession_answering (join : Join)
    (hsettings : Settings.load (StandIn.basis "/") [("MUN_WATCH_POLL_INTERVAL", interval)] = .ok settings)
    (hdelay : settings.reloadDelay = Delay.standard) :
    ∃ s h', startSession answeringToolchain "/mod.so" none
        (sessionHost false "/mod.so" "main" (pollingHost interval join)) = (.ok s, h') ∧
      s.loader = .given answering ∧
      s.handle = .attended Host.libraryPath Delay.standard 0 settings.pollInterval 0 ∧
      s.host.shelf.libraries = [.new Host.libraryPath (.given answering.functions) none] := by
  let h := sessionHost false "/mod.so" "main" (pollingHost interval join)
  obtain ⟨h₁, hspawn, -, -, hshelf⟩ := Handle.spawn_given_watching (g := answering) (h := h) rfl
    Session.look_bare Delay.standard settings.pollInterval
  have hpath : Files.Path.ofString "/mod.so" = Host.libraryPath := by decide
  have hparse : Delay.parse ((Option.map Value.text none).getD (.int settings.reloadDelay)) = .ok Delay.standard := by
    rw [hdelay]
    rfl
  rw [← hpath] at hspawn
  refine ⟨_, h₁, startSession_given (t := .substitute _) hsettings hparse hspawn, rfl, ?_, ?_⟩
  · rw [← hpath]
    rfl
  · rw [← hpath]
    exact congrArg Shelf.libraries hshelf

theorem returns_answering (ha : s.handle.active = 0)
    (hshelf : s.host.shelf.libraries = [.new Host.libraryPath (.given answering.functions) none]) :
    Invocation.Returns "main" s (some .integer) (.int 42) := by
  have hget : s.host.shelf.get? s.handle.active = some (.new Host.libraryPath (.given answering.functions) none) := by
    rw [ha, Shelf.get?, hshelf]
    rfl
  refine ⟨⟨.text "main", [], some (.of "core::i64")⟩, ?_, rfl, ?_⟩
  · rw [Session.definition?, Handle.definition?, Shelf.definition?, hget]
    rfl
  · simp only [Session.call, Handle.call, Shelf.call, hget]
    rfl

/-- A library whose entry point returns an integer is started, and the integer is printed. -/
theorem run_start_integer :
    let h := pollingHost "0.25" fun _ => .ok true
    h.platform.reader.plan startWords = .run false (.start "/mod.so" "main" none) ∧
      (run answeringToolchain startWords h).1 = .ok true ∧
      (run answeringToolchain startWords h).2.stdout = "42\n" ∧
      (run answeringToolchain startWords h).2.shelf.closes 0 = 1 := by
  intro h
  have hw : h.platform.reader.plan startWords = .run false (.start "/mod.so" "main" none) :=
    plan_start "/mod.so" "main" none
  obtain ⟨settings, hload, hdelay⟩ : ∃ settings,
      Settings.load (StandIn.basis "/") [("MUN_WATCH_POLL_INTERVAL", "0.25")] = .ok settings ∧
        settings.reloadDelay = Delay.standard := by
    refine ⟨_, rfl, ?_⟩
    rfl
  obtain ⟨s, h', hs, -, hh, hshelf⟩ := startSession_answering (fun _ => .ok true) hload hdelay
  obtain ⟨-, -, hstarted⟩ := run_start_ends hw answeringToolchain
  obtain ⟨_, w, -, -, -, hlast, hends, -⟩ := hstarted s (congrArg Prod.fst hs)
  obtain ⟨hconcludes, hreleased, -⟩ := hends true rfl
  have hreturns := returns_answering (s := s) (by rw [hh]; rfl) hshelf
  have htext : NativeType.integer.format (.int 42) = .ok "42" :=
    (NativeType.format_integer rfl).trans (NativeType.integerText_of_lt (by decide))
  have hr : (run answeringToolchain startWords h).1 = .ok true := by
    obtain ⟨-, -, -, hplatform, _, w, -, -, hsole⟩ := sole_of_startSession hs
    have hjoin : (Invocation.invoke "main" s).2.host.platform.join w.patience = .ok true := by
      rw [Invocation.platform_invoke, hplatform]
      rfl
    refine run_start_returns hw hs ((hsole.invoke "main").released_close hjoin).1 hreturns (t := some "42") ?_
    rw [Invocation.textOf, htext]
    rfl
  refine ⟨hw, hr, ?_, ?_⟩
  · generalize (run answeringToolchain startWords h).2.stdout = out at hconcludes
    cases hconcludes true hr with
    | @returned as v t hv hprints =>
      obtain ⟨rfl, rfl⟩ := hreturns.eq hv
      cases t with
      | none => cases hprints
      | some t =>
        obtain ⟨_, ⟨⟩, ht⟩ := hprints
        cases htext.symm.trans ht
        rfl
  · rw [hlast]
    exact hreleased.once 0 ⟨Nat.zero_le _, Nat.zero_lt_of_lt hreleased.since.2⟩

/-- Threads end at once, but they cannot be waited for so long that the time is not measured. -/
def measuredJoin : Join := fun x =>
  if External.isUnmeasured x then .error External.unmeasured else .ok true

/-- With a long poll interval the watcher cannot be waited for, and the library stays open. With any, so does a library
whose reload is under way when the owner leaves. -/
theorem run_start_fails :
    ((pollingHost "5e9" measuredJoin).platform.reader.plan startWords = .run false (.start "/mod.so" "main" none) ∧
      (run answeringToolchain startWords (pollingHost "5e9" measuredJoin)).1 = .error External.unmeasured ∧
      0 < (run answeringToolchain startWords (pollingHost "5e9" measuredJoin)).2.shelf.size ∧
      (run answeringToolchain startWords (pollingHost "5e9" measuredJoin)).2.shelf.closes 0 = 0) ∧
    ∃ s h' es v, startSession answeringToolchain "/mod.so" none
        (sessionHost false "/mod.so" "main" (pollingHost "0.25" measuredJoin)) = (.ok s, h') ∧
      Runs Shared.Upkeep.Step (Shared.start s) es v ∧ .shared (.owner .leave) ∈ es ∧ (∀ b, .watch b ∉ es) ∧
      v.shelf.size = 2 ∧ v.shelf.closes 1 = 0 := by
  refine ⟨?_, ?_⟩
  · have hw : (pollingHost "5e9" measuredJoin).platform.reader.plan startWords =
        .run false (.start "/mod.so" "main" none) := plan_start "/mod.so" "main" none
    obtain ⟨settings, hload, hdelay, hlong⟩ : ∃ settings,
        Settings.load (StandIn.basis "/") [("MUN_WATCH_POLL_INTERVAL", "5e9")] = .ok settings ∧
          settings.reloadDelay = Delay.standard ∧ External.isUnmeasured (settings.pollInterval.times 4) = true := by
      refine ⟨_, rfl, rfl, ?_⟩
      decide +kernel
    obtain ⟨s, h', hs, -⟩ := startSession_answering measuredJoin hload hdelay
    obtain ⟨-, -, -, hplatform, _, w, hload', hinterval, hsole⟩ := sole_of_startSession hs
    cases hload.symm.trans hload'
    have hjoin : (Invocation.invoke "main" s).2.host.platform.join w.patience = .error External.unmeasured := by
      rw [Invocation.platform_invoke, hplatform, Watcher.patience, hinterval]
      exact if_pos hlong
    obtain ⟨hclose, habandoned⟩ := (hsole.invoke "main").abandoned_close hjoin
    obtain ⟨hr, -, hlast⟩ := run_start_ok hw hs
    have hactive : (Invocation.invoke "main" s).2.close.2.handle.active = 0 := habandoned.active
    have hopen := habandoned.isOpen
    rw [hactive] at hopen
    refine ⟨hw, ?_, ?_, ?_⟩
    · rw [hr, ended]
      dsimp only
      rw [hclose]
      rfl
    · rw [hlast]
      exact Nat.zero_lt_of_lt habandoned.since.2
    · rw [hlast]
      exact hopen
  · obtain ⟨settings, hload, hdelay, hshort⟩ : ∃ settings,
        Settings.load (StandIn.basis "/") [("MUN_WATCH_POLL_INTERVAL", "0.25")] = .ok settings ∧
          settings.reloadDelay = Delay.standard ∧ External.isUnmeasured (settings.pollInterval.times 4) = false := by
      refine ⟨_, rfl, rfl, ?_⟩
      decide +kernel
    obtain ⟨s, h', hs, hl, -, hshelf⟩ := startSession_answering measuredJoin hload hdelay
    obtain ⟨hfresh, hadd, -, hplatform, _, w, hload', hinterval, hsole⟩ := sole_of_startSession hs
    cases hload.symm.trans hload'
    have hsize : s.host.shelf.size = 1 := by rw [Shelf.size, hshelf]; rfl
    have hjoin : s.host.platform.join w.patience = .ok true := by
      rw [hplatform, Watcher.patience, hinterval]
      exact if_neg (by rw [hshort]; decide)
    obtain ⟨es, v, hrun, hl, hwatch, hv, x, hx, hid⟩ :=
      Shared.exists_under_way hl rfl hfresh.closed hsole.working hjoin
    rw [hsize] at hv hid
    refine ⟨s, h', es, v, hs, hrun, hl, hwatch, hv, ?_⟩
    exact ((Shared.left_of_leave hfresh hadd hrun hl hwatch).under_way 1 ⟨Nat.zero_le _, hv ▸ Nat.one_lt_two⟩).2
      ⟨x, hx, hid⟩

end CommandLine

end Hotload
