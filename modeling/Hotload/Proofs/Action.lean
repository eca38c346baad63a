import Hotload.Session

/-!
Actions taken apart. An action that succeeds is a first action that succeeds and one after it; asking and logging change
nothing but the log. What leaves the files, the stop request, the output and the platform alone is made of parts that do.
-/
namespace Hotload.Action

variable {α β : Type} {h h' : Host}

theorem bind_ok {x : Action α} {f : α → Action β} {b : β} (hb : (x >>= f) h = (.ok b, h')) :
    ∃ a h₁, x h = (.ok a, h₁) ∧ f a h₁ = (.ok b, h') := by
  change ExceptT.bind x f h = _ at hb
  simp only [ExceptT.bind, ExceptT.mk, bind, StateT.bind] at hb
  rcases hx : x h with ⟨f | a, h₁⟩
  · rw [hx] at hb
    cases hb
  · rw [hx] at hb
    exact ⟨a, h₁, rfl, hb⟩

theorem bind_of_ok {x : Action α} {f : α → Action β} {a : α} (hx : x h = (.ok a, h')) : (x >>= f) h = f a h' := by
  simp only [bind, ExceptT.bind, ExceptT.mk, StateT.bind, hx, ExceptT.bindCont]

theorem bind_of_error {x : Action α} {f : α → Action β} {e : Failure} (hx : x h = (.error e, h')) :
    (x >>= f) h = (.error e, h') := by
  simp only [bind, ExceptT.bind, ExceptT.mk, StateT.bind, hx, ExceptT.bindCont]
  rfl

theorem lift_ok {r : Outcome α} {a : α} (hr : lift r h = (.ok a, h')) : r = .ok a ∧ h' = h := by
  cases r with
  | error f => cases hr
  | ok b =>
    cases hr
    exact ⟨rfl, rfl⟩

theorem ask_ok {q : Files.Disk → Outcome α} {a : α} (hq : ask q h = (.ok a, h')) : q h.disk = .ok a ∧ h' = h := by
  obtain ⟨b, h₁, hg, hl⟩ := bind_ok hq
  cases hg
  exact lift_ok hl

theorem bind_eq (x : Action α) (f : α → Action β) (h : Host) :
    (x >>= f) h = match x h with
      | (.ok a, h₁) => f a h₁
      | (.error e, h₁) => (.error e, h₁) := by
  rcases hx : x h with ⟨e | a, h₁⟩
  · exact bind_of_error hx
  · exact bind_of_ok hx

theorem pure_eq (a : α) (h : Host) : (pure a : Action α) h = (.ok a, h) := rfl

theorem get_eq (h : Host) : (get : Action Host) h = (.ok h, h) := rfl

/-- Actions after one another, whatever comes of them. -/
theorem bind_cases {x : Action α} {f : α → Action β} {r : Outcome β} (hb : (x >>= f) h = (r, h')) :
    (∃ e, x h = (.error e, h') ∧ r = .error e) ∨ ∃ a h₁, x h = (.ok a, h₁) ∧ f a h₁ = (r, h') := by
  rcases hx : x h with ⟨e | a, h₁⟩
  · rw [bind_of_error hx] at hb
    cases hb
    exact .inl ⟨e, rfl, rfl⟩
  · rw [bind_of_ok hx] at hb
    exact .inr ⟨a, h₁, rfl, hb⟩

theorem lift_eq (r : Outcome α) (h : Host) : lift r h = (r, h) := by
  cases r <;> rfl

theorem ask_eq (q : Files.Disk → Outcome α) (h : Host) : ask q h = (q h.disk, h) :=
  lift_eq (q h.disk) h

theorem attempt_eq (a : Action α) (h : Host) : attempt a h = (.ok (a h).1, (a h).2) := rfl

/-- A failure of the last action comes before what came of the first. -/
theorem andFinally_eq (a : Action α) (last : Action Unit) (h : Host) :
    andFinally a last h = ((last (a h).2).1.bind fun _ => (a h).1, (last (a h).2).2) := by
  rw [andFinally, bind_of_ok (attempt_eq a h), bind_eq]
  rcases last (a h).2 with ⟨f | ⟨⟩, h'⟩
  · rfl
  · cases (a h).1 <;> rfl

theorem andFinally_of_ok {a : Action α} {last : Action Unit} (hl : last (a h).2 = (.ok (), h')) :
    andFinally a last h = ((a h).1, h') := by
  rw [andFinally_eq, hl]
  rfl

/-- However an action ends, a stop is requested in the end. -/
theorem andFinally_stop (a : Action α) (e : Log.Event) (h : Host) :
    (andFinally a do requestStop; log e) h = ((a h).1, (log e { (a h).2 with stopped := true }).2) :=
  andFinally_of_ok rfl

/-- Fields are added to the context for as long as an action lasts, however it ends. -/
theorem within_eq (fs : Log.Fields) (a : Action α) (h : Host) :
    within fs a h =
      ((a { h with context := h.context.enter fs }).1,
        { (a { h with context := h.context.enter fs }).2 with context := h.context }) := by
  change andFinally a (modify fun h' => { h' with context := h.context }) { h with context := h.context.enter fs } = _
  exact andFinally_of_ok rfl

theorem ask_of_ok {q : Files.Disk → Outcome α} {a : α} (hq : q h.disk = .ok a) : ask q h = (.ok a, h) := by
  have hg : (get : Action Host) h = (.ok h, h) := rfl
  rw [ask, bind_of_ok hg, hq]
  rfl

theorem forM_log_ok (es : List Log.Event) (h : Host) : ∃ h', es.forM log h = (.ok (), h') ∧ h'.shelf = h.shelf := by
  induction es generalizing h with
  | nil => exact ⟨h, rfl, rfl⟩
  | cons e es ih =>
    obtain ⟨h', hl, hs⟩ := ih (log e h).2
    have hlog : log e h = (.ok (), (log e h).2) := rfl
    exact ⟨h', (bind_of_ok hlog).trans hl, hs⟩

/-- Whatever comes of an action, the files, the stop request, the output and the platform are as they were. -/
def Keeps (a : Action α) : Prop :=
  ∀ h, (a h).2.disk = h.disk ∧ (a h).2.stopped = h.stopped ∧ (a h).2.stdout = h.stdout ∧
    (a h).2.platform = h.platform

theorem Keeps.bind {x : Action α} {f : α → Action β} (hx : Keeps x) (hf : ∀ a, Keeps (f a)) : Keeps (x >>= f) := by
  intro h
  have hfirst := hx h
  rcases hr : x h with ⟨e | a, h₁⟩
  · rw [hr] at hfirst
    rw [bind_of_error hr]
    exact hfirst
  · obtain ⟨hd', hs', ho', hp'⟩ := hf a h₁
    rw [hr] at hfirst
    obtain ⟨hd, hs, ho, hp⟩ := hfirst
    rw [bind_of_ok hr]
    exact ⟨hd'.trans hd, hs'.trans hs, ho'.trans ho, hp'.trans hp⟩

theorem keeps_pure (a : α) : Keeps (pure a : Action α) := fun _ => ⟨rfl, rfl, rfl, rfl⟩

theorem keeps_throw (f : Failure) : Keeps (throw f : Action α) := fun _ => ⟨rfl, rfl, rfl, rfl⟩

theorem keeps_get : Keeps (get : Action Host) := fun _ => ⟨rfl, rfl, rfl, rfl⟩

theorem keeps_lift (r : Outcome α) : Keeps (lift r) := by
  cases r with
  | ok a => exact keeps_pure a
  | error f => exact keeps_throw f

theorem keeps_log (e : Log.Event) : Keeps (log e) := fun _ => ⟨rfl, rfl, rfl, rfl⟩

theorem keeps_note (e : Effect) : Keeps (note e) := fun _ => ⟨rfl, rfl, rfl, rfl⟩

theorem keeps_forM_log (es : List Log.Event) : Keeps (es.forM log) := by
  induction es with
  | nil => exact keeps_pure ()
  | cons e es ih => exact (keeps_log e).bind fun _ => ih

theorem keeps_ask (q : Files.Disk → Outcome α) : Keeps (ask q) :=
  keeps_get.bind fun h => keeps_lift (q h.disk)

theorem Keeps.attempt {x : Action α} (hx : Keeps x) : Keeps (attempt x) := by
  intro h
  have hk := hx h
  unfold Action.attempt
  rcases hr : x h with ⟨r, h₁⟩
  rwa [hr] at hk

end Hotload.Action
