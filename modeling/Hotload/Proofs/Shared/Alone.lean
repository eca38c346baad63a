import Hotload.Proofs.Shared.Steps

/-!
Calls that are not disturbed. Taken one after another, the steps of a call come to what the call comes to as a whole, so
a session that is used by one caller at a time is a shared one in which nobody comes in between.
-/
namespace Hotload

/-- A thread takes its steps without a break. -/
inductive Thread.Steps : Session → ReadWriteLock → Thread → List Deed → Thread → Session → ReadWriteLock → Prop where
  | nil {s : Session} {l : ReadWriteLock} {x : Thread} : Steps s l x [] x s l
  | cons {s s' s'' : Session} {l l' l'' : ReadWriteLock} {x y z : Thread} {d : Deed} {ds : List Deed} :
      Step s l x d y s' l' → Steps s' l' y ds z s'' l'' → Steps s l x (d :: ds) z s'' l''

namespace Thread.Steps

open ReadWriteLock

/-- Inside the lock, a visit takes the library that is the active one. -/
theorem take (s : Session) (e : Errand) :
    Steps s free (.visit e .waiting) [.enter .read, .look s.handle.active] (.visit e (.calling s.handle.active)) s
      (free.enter .read) :=
  .cons (.enterRead rfl) (.cons .look .nil)

/-- A visit as a whole asks that library. -/
theorem visit (s : Session) (e : Errand) :
    Steps s free (.visit e .waiting)
      [.enter .read, .look s.handle.active, .answer s.handle.active e.asks, .leave .read]
      (e.conclude (s.answer s.handle.active e.asks).1 (s.answer s.handle.active e.asks).2).1
      (e.conclude (s.answer s.handle.active e.asks).1 (s.answer s.handle.active e.asks).2).2 free :=
  .cons (.enterRead rfl) (.cons .look (.cons .answer (.cons .leaveRead .nil)))

theorem trans {s s' s'' : Session} {l l' l'' : ReadWriteLock} {x y z : Thread} {ds es : List Deed}
    (h : Steps s l x ds y s' l') (h' : Steps s' l' y es z s'' l'') : Steps s l x (ds ++ es) z s'' l'' := by
  induction h with
  | nil => exact h'
  | cons hs _ ih => exact .cons hs (ih h')

/-- An invocation looks its entry point up first. -/
theorem look_up (s : Session) (entry : String) :
    Steps s free (.visit (.entryLookup entry) .waiting)
      [.enter .read, .look s.handle.active, .answer s.handle.active (.lookup entry), .leave .read]
      ((Errand.entryLookup entry).conclude (.definition (s.definition? entry)) s).1
      ((Errand.entryLookup entry).conclude (.definition (s.definition? entry)) s).2 free :=
  visit s (.entryLookup entry)

/-- Then it has a call to make, if that was found. -/
theorem look_up_ok {s : Session} {entry : String} {d : Definition} {as : Option NativeType}
    (hp : Invocation.plan entry (s.definition? entry) = .ok (d, as)) :
    Steps s free (.visit (.entryLookup entry) .waiting)
      [.enter .read, .look s.handle.active, .answer s.handle.active (.lookup entry), .leave .read]
      (.visit (.entryCall entry d as) .waiting) s free := by
  have h := look_up s entry
  simp only [Errand.conclude] at h
  rwa [hp] at h

theorem invoke (s : Session) (entry : String) :
    ∃ ds, Steps s free (.visit (.entryLookup entry) .waiting) ds
      (.invoked (Invocation.invoke entry s).1) (Invocation.invoke entry s).2 free := by
  unfold Invocation.invoke
  cases hp : Invocation.plan entry (s.definition? entry) with
  | error f =>
    have h := look_up s entry
    simp only [Errand.conclude] at h
    rw [hp] at h
    exact ⟨_, h⟩
  | ok p => exact ⟨_, (look_up_ok hp).trans (visit s (.entryCall entry p.1 p.2))⟩

/-- Inside the lock, a reload of an open handle swaps its library in. -/
theorem exchange {s : Session} (ho : s.handle.closed = false) (fresh : LibraryId) :
    Steps s free (.reload (.loaded fresh)) [.enter .write, .install fresh, .leave .write]
      (.reload (.outside fresh s.handle.active)) (s.swap fresh).2 free := by
  have hdropped : (s.swap fresh).1 = s.handle.active := congrArg Prod.fst (s.swap_of_open ho fresh)
  rw [← hdropped]
  exact .cons (.enterWrite rfl) (.cons (.install ho) (.cons .leaveWrite .nil))

/-- Then it closes the former one. -/
theorem install_open {s : Session} (ho : s.handle.closed = false) (fresh : LibraryId) :
    Steps s free (.reload (.loaded fresh)) [.enter .write, .install fresh, .leave .write, .drop s.handle.active]
      (.reload (.ended (.ok (s.install fresh).1))) (s.install fresh).2 free := by
  have hdropped : (s.swap fresh).1 = s.handle.active := congrArg Prod.fst (s.swap_of_open ho fresh)
  have hinstall : s.install fresh = (s.swap fresh).2.settle fresh s.handle.active := by rw [← hdropped]; rfl
  rw [hinstall]
  exact (exchange ho fresh).trans (.cons .drop .nil)

/-- On a handle that is closed it closes its library. -/
theorem install_closed {s : Session} (hc : s.handle.closed = true) (fresh : LibraryId) :
    Steps s free (.reload (.loaded fresh)) [.enter .write, .decline fresh, .leave .write, .drop fresh]
      (.reload (.ended (.ok (s.install fresh).1))) (s.install fresh).2 free := by
  have hdropped : (s.swap fresh).1 = fresh := congrArg Prod.fst (Session.swap_of_closed s hc fresh)
  have h : Steps s free (.reload (.loaded fresh))
      [.enter .write, .decline fresh, .leave .write, .drop (s.swap fresh).1]
      (.reload (.ended (.ok (s.install fresh).1))) (s.install fresh).2 free :=
    .cons (.enterWrite rfl) (.cons (.decline hc) (.cons .leaveWrite (.cons .drop .nil)))
  rwa [hdropped] at h

theorem install (s : Session) (fresh : LibraryId) :
    ∃ ds, Steps s free (.reload (.loaded fresh)) ds (.reload (.ended (.ok (s.install fresh).1)))
      (s.install fresh).2 free := by
  cases hc : s.handle.closed with
  | false => exact ⟨_, install_open hc fresh⟩
  | true => exact ⟨_, install_closed hc fresh⟩

/-- The steps of one of the threads make up a run. -/
theorem run {s s' : Session} {l l' : ReadWriteLock} {x y : Thread} {ds : List Deed} (h : Steps s l x ds y s' l')
    (c : Closing) (ts : List Thread) (t : Nat) (hx : ts[t]? = some x) :
    Shared.Run ⟨s, l, c, ts⟩ (ds.map (.act t)) ⟨s', l', c, ts.set t y⟩ := by
  induction h generalizing ts with
  | nil =>
    obtain ⟨ht, rfl⟩ := List.getElem?_eq_some_iff.1 hx
    rw [List.set_getElem_self]
    exact .none
  | @cons s s₁ s' l l₁ l' x z y d ds hstep _ ih =>
    have ht := (List.getElem?_eq_some_iff.1 hx).1
    have hrest := ih (ts.set t z) (List.getElem?_set_self ht)
    rw [List.set_set] at hrest
    exact (Runs.none.more (.act hx hstep)).trans hrest

/-- The steps of the thread that came in last. -/
theorem run_last {s s' : Session} {l l' : ReadWriteLock} {x y : Thread} {ds : List Deed} (h : Steps s l x ds y s' l')
    (c : Closing) (ts : List Thread) :
    Shared.Run ⟨s, l, c, ts ++ [x]⟩ (ds.map (.act ts.length)) ⟨s', l', c, ts ++ [y]⟩ := by
  have hrun := h.run c (ts ++ [x]) ts.length (by simp)
  simpa using hrun

end Thread.Steps

namespace Shared

open ReadWriteLock

variable (s : Session) (ts : List Thread) {c : Closing}

/-- A demand comes in, and its thread takes its steps without a break. -/
theorem Run.demand {s s' : Session} {y : Thread} {ds : List Deed} {d : Demand} (c : Closing) (ts : List Thread)
    (h : Thread.Steps s free d.thread ds y s' free) :
    Run ⟨s, free, c, ts⟩ (.demand d :: ds.map (.act ts.length)) ⟨s', free, c, ts ++ [y]⟩ :=
  (Runs.none.more (.demand d)).trans (h.run_last c ts)

theorem run_lookup (c : Closing) (name : String) :
    ∃ es, Run ⟨s, free, c, ts⟩ es ⟨s, free, c, ts ++ [.replied (.definition (s.definition? name))]⟩ :=
  ⟨_, Run.demand (d := .request (.lookup name)) c ts (Thread.Steps.visit s (.request (.lookup name)))⟩

theorem run_call (c : Closing) (d : Definition) (as : Option NativeType) :
    ∃ es, Run ⟨s, free, c, ts⟩ es ⟨(s.call d as).2, free, c, ts ++ [.replied (.value (s.call d as).1)]⟩ :=
  ⟨_, Run.demand (d := .request (.call d as)) c ts (Thread.Steps.visit s (.request (.call d as)))⟩

theorem run_invoke (c : Closing) (entry : String) :
    ∃ es, Run ⟨s, free, c, ts⟩ es
      ⟨(Invocation.invoke entry s).2, free, c, ts ++ [.invoked (Invocation.invoke entry s).1]⟩ := by
  obtain ⟨ds, h⟩ := Thread.Steps.invoke s entry
  exact ⟨_, Run.demand (d := .invoke entry) c ts h⟩

/-- An open handle is closed whose watcher can be waited for. -/
theorem run_close_open {s' : Session} (ho : s.handle.closed = false) (hs : s.mark.silence = .ok s') :
    Run ⟨s, free, .resting, ts⟩
      [.owner .mark, .owner .silence, .owner .enter, .owner (.close s.handle.active), .owner .leave]
      ⟨s.close.2, free, .resting, ts⟩ := by
  have hmark := (Runs.none : Run ⟨s, free, .resting, ts⟩ [] _).more (.owner (.mark ho))
  have henter := (hmark.more (.owner (.silence hs))).more (.owner (.enter rfl))
  rw [Session.close_of_ok ho hs]
  obtain ⟨lingering, rfl⟩ := Session.silence_ok hs
  exact (henter.more (.owner .close)).more (.owner .leave)

/-- Where it cannot be waited for, the owner does not come to the lock. -/
theorem run_close (hm : s.handle.closed = false → c = .resting) (hc : c.isIdle = true) :
    ∃ es c', Run ⟨s, free, c, ts⟩ es ⟨s.close.2, free, c', ts⟩ ∧ c'.isIdle = true := by
  cases ho : s.handle.closed with
  | true =>
    rw [Session.close_of_closed ho]
    exact ⟨_, c, Runs.none.more (.owner (.again hc ho)), hc⟩
  | false =>
    obtain rfl := hm ho
    cases hs : s.mark.silence with
    | ok s' => exact ⟨_, _, run_close_open s ts ho hs, rfl⟩
    | error f =>
      have hmark := (Runs.none : Run ⟨s, free, .resting, ts⟩ [] _).more (.owner (.mark ho))
      rw [Session.close_of_error ho hs]
      exact ⟨_, _, hmark.more (.owner (.fail hs)), rfl⟩

/-- A reload as a whole; a loader that interrupts it has the owner close the handle before the lock is taken. -/
theorem run_reload (hm : s.handle.closed = false → c = .resting) (hc : c.isIdle = true) :
    ∃ es c', Run ⟨s, free, c, ts⟩ es ⟨s.reload.2, free, c', ts ++ [.reload (.ended s.reload.1)]⟩ ∧
      c'.isIdle = true := by
  unfold Session.reload
  rcases hl : s.load with ⟨r, s'⟩
  cases r with
  | error f => exact ⟨_, c, Run.demand c ts (d := .reload) (.cons (.fail hl) .nil), hc⟩
  | ok fresh =>
    have hload := Run.demand c ts (d := .reload) (.cons (.load hl) .nil)
    have hm' : s'.handle.closed = false → c = .resting := (Session.load_spec hl).1 ▸ hm
    cases hi : s'.loader.interrupts with
    | false =>
      simp only [hi]
      obtain ⟨ds, h⟩ := Thread.Steps.install s' fresh
      exact ⟨_, c, hload.trans (h.run_last c ts), hc⟩
    | true =>
      simp only [hi]
      obtain ⟨es, c', hclose, hc'⟩ := run_close s' (ts ++ [.reload (.loaded fresh)]) hm' hc
      obtain ⟨ds, h⟩ := Thread.Steps.install s'.close.2 fresh
      exact ⟨_, c', (hload.trans hclose).trans (h.run_last c' ts), hc'⟩

end Shared

end Hotload
