import Hotload.Proofs.CommandLine.Start
import Hotload.Proofs.Session.Spawn

/-!
Spawning without looking at the environment. What an action makes of a machine is the same under any environment if each
of its steps leaves the environment alone; so the session of a start depends on the environment by its settings only, and
by these only as to whether there is a toolchain and how long the delay is.
-/
namespace Hotload

variable {α β : Type}

/-- A machine with another environment. -/
def Host.under (h : Host) (e : Environment) : Host :=
  { h with environment := e }

def Session.under (s : Session) (e : Environment) : Session :=
  { s with host := s.host.under e }

namespace Action

/-- An action does the same under any environment. -/
def Overlooks (a : Action α) : Prop :=
  ∀ e h, a (h.under e) = ((a h).1, (a h).2.under e)

theorem Overlooks.bind {x : Action α} {f : α → Action β} (hx : Overlooks x) (hf : ∀ a, Overlooks (f a)) :
    Overlooks (x >>= f) := by
  intro e h
  rw [bind_eq, bind_eq, hx e h]
  rcases x h with ⟨e' | a, h₁⟩
  · rfl
  · exact hf a e h₁

theorem overlooks_pure (a : α) : Overlooks (pure a : Action α) := fun _ _ => rfl

theorem overlooks_throw (f : Failure) : Overlooks (throw f : Action α) := fun _ _ => rfl

theorem overlooks_lift (r : Outcome α) : Overlooks (lift r) := by
  cases r with
  | ok a => exact overlooks_pure a
  | error f => exact overlooks_throw f

theorem overlooks_log (e : Log.Event) : Overlooks (log e) := fun _ _ => rfl

theorem overlooks_forM_log (es : List Log.Event) : Overlooks (es.forM log) := by
  induction es with
  | nil => exact overlooks_pure ()
  | cons e es ih => exact (overlooks_log e).bind fun _ => ih

theorem overlooks_ask (q : Files.Disk → Outcome α) : Overlooks (ask q) := by
  intro e h
  rw [ask_eq, ask_eq]
  rfl

theorem Overlooks.attempt {x : Action α} (hx : Overlooks x) : Overlooks (attempt x) := by
  intro e h
  rw [attempt_eq, attempt_eq, hx e h]

end Action

theorem Loader.overlooks_loadOn (l : Loader) (path : Files.Path) : Action.Overlooks (l.loadOn path) := by
  intro e h
  -- the loader is given the files and the shelf, and these are the same under both environments
  have hrest (loading : Loading) : Action.Overlooks (do
      modify fun h => { h with shelf := loading.shelf }
      loading.events.forM Action.log
      Action.lift loading.outcome) :=
    Action.Overlooks.bind (fun _ _ => rfl) fun _ =>
      (Action.overlooks_forM_log _).bind fun _ => Action.overlooks_lift loading.outcome
  exact hrest (l.load h.disk path h.shelf) e h

theorem Loader.overlooks_loadFile (l : Loader) (path : Files.Path) : Action.Overlooks (l.loadFile path) := by
  refine (Action.overlooks_ask _).bind fun file => ?_
  split
  · refine (overlooks_loadOn l path).attempt.bind fun r => ?_
    cases r with
    | ok id => exact Action.overlooks_pure id
    | error f => exact Action.overlooks_throw _
  · exact Action.overlooks_throw _

theorem Handle.overlooks_spawn (l : Loader) (path : Files.Path) (delay : Int) (interval : Binary64) (watch : Bool) :
    Action.Overlooks (spawn l path delay interval watch) := by
  have hrest (handle : Handle) : Action.Overlooks (do
      Action.log (spawnedEvent path delay watch)
      return handle) :=
    (Action.overlooks_log _).bind fun _ => Action.overlooks_pure handle
  refine (l.overlooks_loadFile path).bind fun id => ?_
  dsimp only
  split
  · exact (Action.overlooks_ask _).bind hrest
  · exact (Action.overlooks_pure _).bind hrest

/-- The delay of a handle is the one that it was spawned with, and so is that of its debouncer. -/
theorem Handle.spawn_delay {l : Loader} {path : Files.Path} {delay : Int} {interval : Binary64} {watch : Bool}
    {h h' : Host} {handle : Handle} (hs : spawn l path delay interval watch h = (.ok handle, h')) :
    handle.delay = delay ∧ handle.debouncer.delay = delay := by
  obtain ⟨f, -, he⟩ | ⟨-, he⟩ | ⟨-, ⟨f, h₁, -, he⟩ | ⟨id, h₁, t, -, he⟩⟩ :=
    Handle.spawn_eq l path delay interval watch h
  · rw [he] at hs
    cases hs
  · rw [he] at hs
    cases hs
  · rw [he] at hs
    cases hs
  · rw [he] at hs
    cases hs
    cases watch <;> exact ⟨rfl, rfl⟩

namespace CommandLine

variable {given : Option Toolchain} {library : String} {delay : Option String} {h : Host} {settings : Settings}

/-- The loader of the toolchain that settings lead to on a platform. -/
def loaderOf (given : Option Toolchain) (p : Platform) (s : Settings) : Outcome Loader :=
  match given with
  | some t => .ok t.loader
  | none => (External.ofSettings s p.loader).map fun x => (Toolchain.external x).loader

theorem loaderOf_delay (given : Option Toolchain) (p : Platform) (s : Settings) (n : Int) :
    loaderOf given p { s with reloadDelay := n } = loaderOf given p s := by
  cases given with
  | some t => rfl
  | none =>
    simp only [loaderOf, External.ofSettings, External.of]
    cases External.words s.compiler with
    | error f => rfl
    | ok compiler => cases External.words s.languageServer <;> rfl

/-- The session of a start whose settings and delay are known. -/
def sessionOn (loader : Outcome Loader) (library : String) (delay : Int) (interval : Binary64) : Action Session := do
  let loader ← Action.lift loader
  let handle ← Handle.spawn loader (Files.Path.ofString library) delay interval true
  return ⟨← get, loader, handle⟩

theorem startSession_eq {millis : Int} (hsettings : Settings.load h.platform.basis h.environment = .ok settings)
    (hdelay : Delay.parse ((delay.map Value.text).getD (.int settings.reloadDelay)) = .ok millis) :
    startSession given library delay h =
      sessionOn (loaderOf given h.platform settings) library millis settings.pollInterval h := by
  simp only [startSession, sessionOn, Action.bind_eq, loadSettings_eq, Action.lift_eq, hsettings, hdelay]
  cases given with
  | some t => rfl
  | none =>
    simp only [toolchain, loaderOf, Action.bind_eq, loadSettings_eq, Action.get_eq, Action.lift_eq, hsettings]
    cases External.ofSettings settings h.platform.loader <;> rfl

theorem sessionOn_under (loader : Outcome Loader) (library : String) (millis : Int) (interval : Binary64)
    (e : Environment) (h : Host) :
    sessionOn loader library millis interval (h.under e) =
      ((sessionOn loader library millis interval h).1.map (·.under e),
        (sessionOn loader library millis interval h).2.under e) := by
  cases loader with
  | error f => rfl
  | ok loader =>
    simp only [sessionOn, Action.bind_eq, Action.lift_eq, Handle.overlooks_spawn loader _ millis interval true e h]
    rcases Handle.spawn loader (Files.Path.ofString library) millis interval true h with ⟨f | handle, h₁⟩ <;> rfl

theorem sessionOn_delay {loader : Outcome Loader} {millis : Int} {interval : Binary64} {s : Session} {h' : Host}
    (hs : sessionOn loader library millis interval h = (.ok s, h')) :
    s.handle.delay = millis ∧ s.handle.debouncer.delay = millis := by
  obtain ⟨l, h₁, -, hs⟩ := Action.bind_ok hs
  obtain ⟨handle, h₂, hspawn, hs⟩ := Action.bind_ok hs
  cases hs
  exact Handle.spawn_delay hspawn

end CommandLine

end Hotload
