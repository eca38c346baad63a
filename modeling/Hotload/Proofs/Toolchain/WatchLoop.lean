import Hotload.Proofs.Toolchain.Vigil

/-!
What is executed is a run. An action on the machine is followed by a watch build if some steps bring it to the machine that
the action leaves behind, and the compilations and polls among them are those that were put down. Actions that are followed
one after another are followed as a whole, so every execution of the watch loop, whatever its ticks are, is among the runs.
-/
namespace Hotload

/-- What can be told of a watch build from outside: that the compiler is started, and what a poll has seen. -/
inductive Told where
  | compiles
  | polls (changed : Bool)

def Effect.told? : Effect → Option Told
  | .run _ _ _ => some .compiles
  | .polled changed => some (.polls changed)
  | _ => none

namespace External

theorem told_compile (x : External) (manifest : Files.Path) (o : CompileOptions) (h : Host) :
    (x.compile manifest o h).2.effects.filterMap Effect.told? = h.effects.filterMap Effect.told? ++ [.compiles] := by
  have hrun : (x.compile manifest o h).2.effects = h.effects ++
      [.run (x.buildCommand manifest o) (some manifest.parent.toString) (changedVariables h.environment [])] := by
    obtain ⟨_, _, _, _, _, _, launches, _⟩ := h
    cases launches with
    | nil => rfl
    | cons l ls => cases l <;> rfl
  rw [hrun, List.filterMap_append]
  rfl

theorem effects_recompile (x : External) (manifest : Files.Path) (o : CompileOptions) (h : Host) :
    (x.recompile manifest o h).2.effects = (x.compile manifest o h).2.effects := by
  have hattempt : Action.attempt (x.compile manifest o) h = (.ok (x.compile manifest o h).1, (x.compile manifest o h).2) := rfl
  rw [recompile, Action.bind_of_ok hattempt]
  cases (x.compile manifest o h).1 with
  | ok _ => rfl
  | error f =>
    dsimp only
    split <;> rfl

end External

namespace Vigil

open Files

variable {x : External} {manifest : Path} {o : CompileOptions} {w : Vigil} {ws : Watching} {α β : Type}

def Event.told? : Event → Option Told
  | .compiled | .compile => some .compiles
  | .poll changed => some (.polls changed)
  | _ => none

/-- What was put down between two states of a machine is what some events tell. -/
def Tells (h h' : Host) (es : List Event) : Prop :=
  h'.effects.filterMap Effect.told? = h.effects.filterMap Effect.told? ++ es.filterMap Event.told?

theorem Tells.trans {h h' h'' : Host} {es fs : List Event} (ht : Tells h h' es) (ht' : Tells h' h'' fs) :
    Tells h h'' (es ++ fs) := by
  unfold Tells at *
  rw [ht', ht, List.filterMap_append, List.append_assoc]

/-- Some steps lead to where an action leads, and then something holds of its result. If it succeeds, they tell what it
puts down. -/
def Follows (x : External) (manifest : Path) (o : CompileOptions) (w : Vigil) (a : Action α)
    (q : Outcome α → Vigil → Prop) : Prop :=
  ∃ es v, Runs (Step x manifest o) w es v ∧ v.host = (a w.host).2 ∧ q (a w.host).1 v ∧
    ∀ b, (a w.host).1 = .ok b → Tells w.host v.host es

theorem follows_bind {a : Action α} {f : α → Action β} {q : Outcome α → Vigil → Prop} {r : Outcome β → Vigil → Prop}
    (ha : Follows x manifest o w a q) (he : ∀ e v, q (.error e) v → r (.error e) v)
    (hf : ∀ b v, q (.ok b) v → Follows x manifest o v (f b) r) : Follows x manifest o w (a >>= f) r := by
  obtain ⟨es, v, hr, hhost, hq, ht⟩ := ha
  unfold Follows
  rcases hx : a w.host with ⟨e | b, h⟩
  · rw [hx] at hhost hq
    rw [Action.bind_of_error hx]
    exact ⟨es, v, hr, hhost, he e v hq, nofun⟩
  · rw [hx] at hhost hq ht
    rw [Action.bind_of_ok hx]
    obtain ⟨fs, u, hr', hhost', hq', ht'⟩ := hf b v hq
    rw [hhost] at hhost' hq' ht' ht
    exact ⟨es ++ fs, u, hr.trans hr', hhost', hq', fun c hc => (ht b rfl).trans (ht' c hc)⟩

theorem follows_pure {b : α} {q : Outcome α → Vigil → Prop} (hq : q (.ok b) w) :
    Follows x manifest o w (pure b) q :=
  ⟨[], w, .none, rfl, hq, fun _ _ => (List.append_nil _).symm⟩

theorem follows_get {f : Host → Action β} {r : Outcome β → Vigil → Prop} (h : Follows x manifest o w (f w.host) r) :
    Follows x manifest o w (get >>= f) r := h

theorem follows_ask {question : Disk → Outcome α} {f : α → Action β} {r : Outcome β → Vigil → Prop}
    (he : ∀ e, question w.host.disk = .error e → r (.error e) w)
    (hf : ∀ b, question w.host.disk = .ok b → Follows x manifest o w (f b) r) :
    Follows x manifest o w (Action.ask question >>= f) r := by
  have ha : Action.ask question w.host = (question w.host.disk, w.host) := by
    change Action.lift (question w.host.disk) w.host = _
    cases question w.host.disk <;> rfl
  have hask : Follows x manifest o w (Action.ask question) fun b v => v = w ∧ question w.host.disk = b := by
    unfold Follows
    rw [ha]
    exact ⟨[], w, .none, rfl, ⟨rfl, rfl⟩, fun _ _ => (List.append_nil _).symm⟩
  refine follows_bind hask (fun e v ⟨hv, hb⟩ => ?_) fun b v ⟨hv, hb⟩ => ?_
  · subst hv
    exact he e hb
  · subst hv
    exact hf b hb

/-- Steps that leave the machine alone and tell nothing may come first. -/
theorem follows_of_run {a : Action α} {q : Outcome α → Vigil → Prop} {es : List Event} {v : Vigil}
    (hr : Runs (Step x manifest o) w es v) (hv : v.host = w.host) (ht : es.filterMap Event.told? = [])
    (h : Follows x manifest o v a q) : Follows x manifest o w a q := by
  obtain ⟨fs, u, hr', hu, hq, ht'⟩ := h
  rw [hv] at hu hq ht'
  refine ⟨es ++ fs, u, hr.trans hr', hu, hq, fun b hb => ?_⟩
  have h := ht' b hb
  unfold Tells at h ⊢
  rw [h, List.filterMap_append, ht, List.nil_append]

/-- What leaves the files and the stop request alone, and puts down nothing that is told, happens elsewhere. -/
theorem follows_then {a : Action Unit} {b : Action β} {r : Outcome β → Vigil → Prop} (hk : Action.Keeps a)
    (ha : (a w.host).1 = .ok ())
    (ht : (a w.host).2.effects.filterMap Effect.told? = w.host.effects.filterMap Effect.told?)
    (hb : ∀ v, v.stage = w.stage → Follows x manifest o v b r) : Follows x manifest o w (a >>= fun _ => b) r := by
  obtain ⟨hd, hs, -⟩ := hk w.host
  have hstep : Step x manifest o w .elsewhere _ := .elsewhere (h := (a w.host).2) hs (by rw [hd])
  refine follows_bind (q := fun r v => r = .ok () ∧ v.stage = w.stage)
    ⟨_, _, .one hstep, rfl, ⟨ha, rfl⟩, fun _ _ => ?_⟩ (fun e v ⟨he, _⟩ => by cases he) fun _ v ⟨_, hs⟩ => hb v hs
  exact ht.trans (List.append_nil _).symm

/-- The loop is not over yet. -/
def Engaged (v : Vigil) : Prop :=
  ∃ g, v.stage = .guarding g ∧ g.phase ≠ .over

theorem engaged_start (h : w.stage = .guarding (.start ws)) : w.Engaged :=
  ⟨_, h, nofun⟩

/-- The loop waits with what an action hands out. -/
def Waits : Outcome Watching → Vigil → Prop
  | .ok ws, v => v.stage = .guarding (.start ws)
  | .error _, v => v.Engaged

theorem follows_advance (h : w.stage = .guarding (.start ws)) (time : Int) :
    Follows x manifest o w (pure (ws.advance time)) Waits := by
  obtain hd | ⟨t, hdeliver, hd⟩ := ws.debouncer.advance_cases time
  · have ha : ws.advance time = ws := by
      unfold Watching.advance
      rw [hd]
      simp
    rw [ha]
    exact follows_pure h
  · have ha : ws.advance time = { ws with debouncer := { ws.debouncer with timer := none }, rebuild := true } := by
      unfold Watching.advance
      rw [hd]
      simp
    have hs := Guard.Step.deliver (h := w.host) (g := .start ws) t.id
    rw [show (Guard.start ws).watching.debouncer.deliver t.id = _ from hdeliver] at hs
    have hr : Runs (Step x manifest o) w _ _ := (Runs.one (.guard h hs)).more (.guard rfl (.signal rfl))
    rw [ha]
    exact follows_of_run hr rfl rfl (follows_pure rfl)

/-- A poll is one step, what follows from a change is another, and both come before the poll is put down. -/
theorem follows_poll (h : w.stage = .guarding (.start ws)) : Follows x manifest o w (External.playAction ws .poll) Waits := by
  refine follows_get ?_
  cases hp : ws.poll w.host.disk with
  | error f => exact ⟨_, _, .one (.guard h (.blind rfl hp)), rfl, ⟨_, rfl, nofun⟩, nofun⟩
  | ok p =>
    obtain ⟨changed, ws'⟩ := p
    have hs : Step x manifest o w (.poll changed) _ := .guard h (.poll rfl hp)
    cases changed with
    | false =>
      refine ⟨_, _, (Runs.one hs).more (.elsewhere (h := (Action.note (.polled false) w.host).2) rfl rfl), rfl, rfl, ?_⟩
      exact fun _ _ => List.filterMap_append
    | true =>
      change Follows x manifest o w (do
        Action.log ws'.watcher.changeEvent
        let ws ← Action.lift (ws'.notice w.host.clock)
        Action.note (.polled true)
        return ws) Waits
      have hseen := Runs.one hs
      cases hn : ws'.notice w.host.clock with
      | error f =>
        have hstall := hseen.more (.guard rfl (.stall rfl hn))
        have hlog := hstall.more (.elsewhere (h := (Action.log ws'.watcher.changeEvent w.host).2) rfl rfl)
        exact ⟨_, _, hlog, rfl, ⟨_, rfl, nofun⟩, nofun⟩
      | ok ws'' =>
        have hnotice := hseen.more (.guard rfl (.notice rfl hn))
        have hlog := hnotice.more
          (.elsewhere (h := (Action.note (.polled true) (Action.log ws'.watcher.changeEvent w.host).2).2) rfl rfl)
        exact ⟨_, _, hlog, rfl, rfl, fun _ _ => List.filterMap_append⟩

theorem follows_playAction (h : w.stage = .guarding (.start ws)) (a : TickAction) :
    Follows x manifest o w (External.playAction ws a) Waits := by
  cases a with
  | edit e =>
    refine follows_ask (fun f _ => engaged_start h) fun d _ => ?_
    exact ⟨_, _, .one (.disturb d), rfl, h, fun _ _ => (List.append_nil _).symm⟩
  | advance millis =>
    refine follows_get (follows_then (fun _ => ⟨rfl, rfl, rfl, rfl⟩) rfl rfl fun v hv => ?_)
    exact follows_advance (hv.trans h) _
  | stop => exact ⟨_, _, .one .stop, rfl, h, fun _ _ => (List.append_nil _).symm⟩
  | poll => exact follows_poll h

theorem follows_playTick (h : w.stage = .guarding (.start ws)) (t : Tick) :
    Follows x manifest o w (External.playTick ws t) Waits := by
  have hfold (t : Tick) (w : Vigil) (ws : Watching) (h : w.stage = .guarding (.start ws)) :
      Follows x manifest o w (t.foldlM External.playAction ws) Waits := by
    induction t generalizing w ws with
    | nil => exact follows_pure h
    | cons a t ih => exact follows_bind (follows_playAction h a) (fun _ _ hv => hv) fun ws v hv => ih v ws hv
  refine follows_then (Action.keeps_note _) rfl ?_ fun v hv => hfold t v ws (hv.trans h)
  exact List.filterMap_append.trans (List.append_nil _)

/-- The loop waits with what an action hands out, or it is about to see that it has to stop. -/
def Attends : Outcome Watching → Vigil → Prop
  | .ok ws, v => v.stage = .guarding (.start ws) ∨ v.host.stopped = true ∧ v.Engaged
  | .error _, v => v.Engaged

theorem Attends.engaged {r : Outcome Watching} (h : Attends r w) : w.Engaged := by
  cases r with
  | ok ws => exact h.elim engaged_start And.right
  | error _ => exact h

/-- A compilation that is due is started, and it comes to its end or fails. -/
theorem follows_recompile (h : w.stage = .guarding (.start ws)) (hr : ws.rebuild = true) (hst : w.host.stopped = false) :
    Follows x manifest o w (x.recompile manifest o) fun r v =>
      (r = .ok () → v.stage = .guarding (.start ws.takeSignal)) ∧ v.Engaged := by
  have hwake : Guard.Step w.host (.start ws) .wake { Guard.start ws with phase := .woken } := .wake rfl hr
  have htake : Guard.Step w.host { Guard.start ws with phase := .woken } .take
      { Guard.start ws.takeSignal with phase := .ready } := .take rfl
  have hrun : Runs (Step x manifest o) w _ _ := run_guard h (((Runs.one hwake).more htake).more (.compile rfl hst))
  have ht : (x.recompile manifest o w.host).2.effects.filterMap Effect.told? =
      w.host.effects.filterMap Effect.told? ++ [.compiles] := by
    rw [External.effects_recompile, External.told_compile]
  rcases hx : x.recompile manifest o w.host with ⟨f | _, h'⟩
  · -- The loop is left later, so a compilation that fails here is one that is still under way.
    have hk := x.keeps_recompile manifest o w.host
    rw [hx] at hk
    have hend := hrun.more (.elsewhere (h := h') hk.2.1 (by rw [hk.1]))
    exact ⟨_, _, hend, by rw [hx], by rw [hx]; exact ⟨nofun, _, rfl, nofun⟩, by rw [hx]; nofun⟩
  · rw [hx] at ht
    have hend := hrun.more (.finish rfl rfl hx)
    exact ⟨_, _, hend, by rw [hx], ⟨fun _ => rfl, _, rfl, nofun⟩, fun _ _ => ht⟩

theorem follows_respond (h : w.stage = .guarding (.start ws)) :
    Follows x manifest o w (x.respond manifest o ws) Attends := by
  unfold External.respond
  cases hr : ws.rebuild with
  | false => exact follows_pure (.inl h)
  | true =>
    rw [if_pos rfl]
    refine follows_get ?_
    cases hst : w.host.stopped with
    | true => exact follows_pure (.inr ⟨hst, engaged_start h⟩)
    | false =>
      rw [if_neg Bool.false_ne_true]
      exact follows_bind (follows_recompile h hr hst) (fun _ _ hv => hv.2) fun _ v hv => follows_pure (.inl (hv.1 rfl))

theorem follows_watchTicks (h : Attends (.ok ws) w) (ts : List Tick) :
    Follows x manifest o w (x.watchTicks manifest o ts ws) fun _ v => v.Engaged := by
  induction ts generalizing w ws with
  | nil =>
    unfold External.watchTicks
    refine follows_get ?_
    cases hst : w.host.stopped with
    | true => exact follows_pure h.engaged
    | false =>
      have hw := h.resolve_right fun hs => by rw [hst] at hs; cases hs.1
      have hstop : Follows x manifest o w Action.requestStop fun _ v => v.stage = .guarding (.start ws) :=
        ⟨_, _, .one .stop, rfl, hw, fun _ _ => (List.append_nil _).symm⟩
      refine follows_bind hstop (fun _ _ => engaged_start) fun _ v hv => ?_
      exact follows_bind (follows_respond hv) (fun _ _ => Attends.engaged) fun _ _ hu => follows_pure hu.engaged
  | cons t ts ih =>
    unfold External.watchTicks
    refine follows_get ?_
    cases hst : w.host.stopped with
    | true => exact follows_pure h.engaged
    | false =>
      have hw := h.resolve_right fun hs => by rw [hst] at hs; cases hs.1
      refine follows_bind (follows_playTick hw t) (fun _ _ hv => hv) fun ws v hv => ?_
      exact follows_bind (follows_respond hv) (fun _ _ => Attends.engaged) fun _ _ hu => ih hu

theorem follows_compile (h : w.stage = .first) :
    Follows x manifest o w (x.compile manifest o) fun r v => ∀ b, r = .ok b → v.stage = .compiled := by
  have ht := x.told_compile manifest o w.host
  rcases hx : x.compile manifest o w.host with ⟨f | _, h'⟩
  · exact ⟨_, _, .one (.fail h hx), by rw [hx], by rw [hx]; nofun, by rw [hx]; nofun⟩
  · rw [hx] at ht
    exact ⟨_, _, .one (.compiled h hx), by rw [hx], fun _ _ => rfl, fun _ _ => ht⟩

theorem follows_start {f : Watching → Action β} {r : Outcome β → Vigil → Prop} (h : w.stage = .compiled)
    (he : ∀ e v, r (.error e) v)
    (hf : ∀ ws v, v.stage = .guarding (.start ws) → Follows x manifest o v (f ws) r) :
    Follows x manifest o w (Action.ask (Watching.start · manifest x.pollInterval x.debounce) >>= f) r := by
  refine follows_ask (fun e _ => he e w) fun ws hx => ?_
  exact follows_of_run (.one (.watch h hx)) rfl rfl (hf ws _ rfl)

/-- Whatever it comes to, the loop is left. -/
theorem follows_andFinally {a : Action α} (ha : Follows x manifest o w a fun _ v => v.Engaged) (e : Log.Event) :
    Follows x manifest o w (a.andFinally do Action.requestStop; Action.log e) fun _ _ => True := by
  obtain ⟨es, v, hr, hhost, ⟨g, hg, hne⟩, ht⟩ := ha
  have hleave := hr.more (.interrupt hg hne)
  have hlog := hleave.more (.elsewhere (h := (Action.log e (v.close g).host).2) rfl rfl)
  have hlast : (a.andFinally do Action.requestStop; Action.log e) w.host =
      ((a w.host).1, (Action.log e (v.close g).host).2) := by
    rw [Action.andFinally_stop, ← hhost]
    rfl
  unfold Follows
  rw [hlast]
  refine ⟨_, _, hlog, rfl, trivial, fun b hb => ?_⟩
  rw [List.append_assoc]
  exact (ht b hb).trans (List.append_nil _).symm

/-- Every execution is a run, and one that raises nothing puts down the compilations and the polls of that run. -/
theorem run_watchBuild (x : External) (manifest : Path) (o : CompileOptions) (h : Host) :
    ∃ es v, Runs (Step x manifest o) (start h) es v ∧ v.host = (x.watchBuild manifest o h).2 ∧
      ∀ b, (x.watchBuild manifest o h).1 = .ok b → Tells h v.host es := by
  suffices Follows x manifest o (start h) (x.watchBuild manifest o) fun _ _ => True by
    obtain ⟨es, v, hr, hv, -, ht⟩ := this
    exact ⟨es, v, hr, hv, ht⟩
  refine follows_bind (follows_compile rfl) (fun _ _ _ => trivial) fun _ v hv => ?_
  refine follows_start (hv _ rfl) (fun _ _ => trivial) fun ws v hv => ?_
  refine follows_then (Action.keeps_log _) rfl rfl fun u hu => follows_get ?_
  have hloop : Follows x manifest o u (x.watchTicks manifest o u.host.ticks ws) _ :=
    follows_watchTicks (.inl (hu.trans hv)) u.host.ticks
  exact follows_bind (follows_andFinally hloop _) (fun _ _ _ => trivial) fun _ _ _ => follows_pure trivial

end Vigil
end Hotload
