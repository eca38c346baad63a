import Hotload.Debouncer.Race
import Mathlib.Tactic.ByContra

/-!
Which deliveries pass. Whatever the order in which threads come to a debouncer, the timer that is set is the one of the
latest trigger until it is delivered or cancelled, so a delivery passes just if its timer is awaited, no trigger is
answered by two calls, and nothing passes after a cancel.
-/
namespace Hotload.Debouncer

variable {d d' : Debouncer} {id : Nat}

/-- A trigger that returns sets a new timer, unless the debouncer is closed. -/
theorem arm_ok {now : Int} (h : d.arm now = .ok d') :
    d.closed = true ∧ d' = d ∨
      d.closed = false ∧ d' = { d with timer := some ⟨d.issued, now + d.delay⟩, issued := d.issued + 1 } := by
  cases hc : d.closed with
  | true =>
    simp only [arm, hc, if_true] at h
    cases h
    exact .inl ⟨rfl, rfl⟩
  | false =>
    simp only [arm, hc, Bool.false_eq_true, if_false] at h
    cases hs : Delay.seconds d.delay with
    | error f =>
      rw [hs] at h
      cases h
    | ok x =>
      rw [hs] at h
      cases h
      exact .inr ⟨rfl, by simp [trigger, hc]⟩

theorem arm_of_finite (hd : (Binary64.ofInt d.delay).isInfinite = false) (now : Int) : d.arm now = .ok (d.trigger now) := by
  cases hc : d.closed <;> simp [arm, trigger, hc, Delay.seconds, hd, Except.map]

/-- A delivery passes and takes the timer away, or it changes nothing. -/
theorem deliver_cases (d : Debouncer) (id : Nat) :
    d.closed = false ∧ d.isCurrent id = true ∧ d.deliver id = (true, { d with timer := none }) ∨
      (d.closed = true ∨ d.isCurrent id = false) ∧ d.deliver id = (false, d) := by
  cases hc : d.closed <;> cases hi : d.isCurrent id <;> simp [deliver, hc, hi]

/-- The clock reaches the time of the pending timer, which passes then, or it does not. -/
theorem advance_cases (d : Debouncer) (time : Int) :
    d.advance time = (none, d) ∨ ∃ t : Timer, d.deliver t.id = (true, { d with timer := none }) ∧
      d.advance time = (some t.due, { d with timer := none }) := by
  unfold advance
  cases d.due? time with
  | none => exact .inl rfl
  | some t =>
    obtain ⟨-, -, hd⟩ | ⟨-, hd⟩ := d.deliver_cases t.id
    · exact .inr ⟨t, hd, by simp [hd]⟩
    · exact .inl (by simp [hd])

theorem isCurrent_iff : d.isCurrent id = true ↔ ∃ t, d.timer = some t ∧ t.id = id := by
  simp [isCurrent]

theorem isCurrent_of_none (h : d.timer = none) (id : Nat) : d.isCurrent id = false := by
  simp [isCurrent, h]

theorem pending_iff : d.pending = true ↔ ∃ id, d.isCurrent id = true := by
  simp only [isCurrent_iff, pending, Option.isSome_iff_exists]
  constructor
  · rintro ⟨t, h⟩
    exact ⟨t.id, t, h, rfl⟩
  · rintro ⟨-, t, h, -⟩
    exact ⟨t, h⟩

namespace Race

variable {w u v : Race} {es : List Event} {e : Event} {id : Nat}

theorem timers_concat (es : List Event) (e : Event) : timers (es ++ [e]) = timers es ++ e.set?.toList := by
  rw [timers, timers, List.filterMap_append]
  cases h : e.set? <;> simp [h]

theorem passed_concat (es : List Event) (e : Event) : passed (es ++ [e]) = passed es ++ e.passed?.toList := by
  rw [passed, passed, List.filterMap_append]
  cases h : e.passed? <;> simp [h]

theorem calls_concat (es : List Event) (e : Event) : calls (es ++ [e]) = calls es + e.isCall.toNat := by
  rw [calls, calls, List.countP_append]
  cases h : e.isCall <;> simp [h]

/-- An event that sets no timer leaves a timer awaited unless it delivers or cancels it. -/
theorem awaited_concat (he : e.set? = none) :
    Awaited (es ++ [e]) id ↔ Awaited es id ∧ e ≠ .cancel ∧ ∀ b, e ≠ .deliver id b := by
  have hl : timers (es ++ [e]) = timers es := by simp [timers_concat, he]
  constructor
  · rintro ⟨h₁, h₂, h₃⟩
    simp only [List.mem_append, List.mem_singleton, not_or] at h₂ h₃
    exact ⟨⟨hl ▸ h₁, h₂.1, fun b => (h₃ b).1⟩, Ne.symm h₂.2, fun b => Ne.symm (h₃ b).2⟩
  · rintro ⟨⟨h₁, h₂, h₃⟩, hc, hd⟩
    refine ⟨hl.symm ▸ h₁, ?_, fun b => ?_⟩
    · simp only [List.mem_append, List.mem_singleton, not_or]
      exact ⟨h₂, Ne.symm hc⟩
    · simp only [List.mem_append, List.mem_singleton, not_or]
      exact ⟨h₃ b, Ne.symm (hd b)⟩

/-- What a debouncer is after a run, told by the events of the run. -/
structure Follows (es : List Event) (w : Race) : Prop where
  timers : timers es = List.range w.debouncer.issued
  closed : w.debouncer.closed = true ↔ .cancel ∈ es
  delivered : ∀ id b, .deliver id b ∈ es → id < w.debouncer.issued
  current : ∀ id, w.debouncer.isCurrent id = true ↔ Awaited es id
  passed : (passed es).length + w.debouncer.pending.toNat ≤ w.debouncer.issued
  calls : calls es + w.owed = (Race.passed es).length

theorem follows_start (delay : Int) : Follows [] (start delay) where
  timers := rfl
  closed := by simp [start, new]
  delivered _ _ h := by simp at h
  current id := by
    constructor
    · intro h
      simp [start, new, isCurrent] at h
    · rintro ⟨h, -, -⟩
      simp [Race.timers] at h
  passed := by simp [start, new, Race.passed, pending]
  calls := rfl

namespace Follows

/-- An event that is no trigger, cancel or delivery is not seen. -/
theorem pass_over (h : Follows es w) (hd : v.debouncer = w.debouncer) (he : e.set? = none) (hc : e ≠ .cancel)
    (hn : ∀ id b, e ≠ .deliver id b) (hp : e.passed? = none) (ho : e.isCall.toNat + v.owed = w.owed) :
    Follows (es ++ [e]) v where
  timers := by rw [timers_concat, he, hd, h.timers]; simp
  closed := by rw [hd, h.closed]; simp [Ne.symm hc]
  delivered id b hm := by
    rw [hd]
    rw [List.mem_append, List.mem_singleton] at hm
    exact h.delivered id b (hm.resolve_right fun heq => hn id b heq.symm)
  current id := by rw [hd, h.current, awaited_concat he]; simp [hc, hn]
  passed := by rw [passed_concat, hp, hd]; simpa using h.passed
  calls := by
    have := h.calls
    rw [calls_concat, passed_concat, hp, Option.toList_none, List.append_nil]
    omega

theorem set (h : Follows es w) (hc : w.debouncer.closed = false) (due : Int) :
    Follows (es ++ [.trigger (some w.debouncer.issued)])
      { w with debouncer := { w.debouncer with timer := some ⟨w.debouncer.issued, due⟩, issued := w.debouncer.issued + 1 } } where
  timers := by
    rw [timers_concat, h.timers, List.range_succ]
    rfl
  closed := by simpa using h.closed
  delivered id b hm := by
    simp only [List.mem_append, List.mem_singleton, reduceCtorEq, or_false] at hm
    exact Nat.lt_succ_of_lt (h.delivered id b hm)
  current id := by
    have hopen : .cancel ∉ es := fun hm => absurd (h.closed.2 hm) (by simp [hc])
    have hlast : (Race.timers (es ++ [.trigger (some w.debouncer.issued)])).getLast? = some w.debouncer.issued := by
      simp [timers_concat, Event.set?]
    simp only [isCurrent, Option.map_some, Option.some.injEq, decide_eq_true_eq]
    constructor
    · rintro rfl
      refine ⟨hlast, by simpa using hopen, fun b hm => ?_⟩
      simp only [List.mem_append, List.mem_singleton, reduceCtorEq, or_false] at hm
      exact absurd (h.delivered _ b hm) (Nat.lt_irrefl _)
    · rintro ⟨hl, -, -⟩
      exact Option.some.inj (hlast.symm.trans hl)
  passed := by
    have := h.passed
    simp only [passed_concat, Event.passed?, Option.toList_none, List.append_nil, pending, Option.isSome_some,
      Bool.toNat_true]
    omega
  calls := by simpa [calls_concat, passed_concat, Event.passed?, Event.isCall] using h.calls

theorem cancel (h : Follows es w) : Follows (es ++ [.cancel]) { w with debouncer := w.debouncer.cancel } where
  timers := by simpa [timers_concat, Event.set?, Debouncer.cancel] using h.timers
  closed := by simp [Debouncer.cancel]
  delivered id b hm := by
    simp only [List.mem_append, List.mem_singleton, reduceCtorEq, or_false] at hm
    exact h.delivered id b hm
  current id := by
    rw [isCurrent_of_none rfl, awaited_concat rfl]
    simp
  passed := by
    have := h.passed
    simp only [passed_concat, Event.passed?, Option.toList_none, List.append_nil, pending_cancel, Bool.toNat_false]
    exact Nat.le_trans (Nat.le_add_right _ _) this
  calls := by simpa [calls_concat, passed_concat, Event.passed?, Event.isCall] using h.calls

/-- A timer that passes was pending, and no timer is after it. -/
theorem pass (h : Follows es w) (hi : w.debouncer.isCurrent id = true) (hlt : id < w.debouncer.issued) :
    Follows (es ++ [.deliver id true]) ⟨{ w.debouncer with timer := none }, w.owed + 1⟩ where
  timers := by simpa [timers_concat, Event.set?] using h.timers
  closed := by simpa using h.closed
  delivered j b hm := by
    rw [List.mem_append, List.mem_singleton] at hm
    obtain hm | hm := hm
    · exact h.delivered j b hm
    · cases hm
      exact hlt
  current j := by
    rw [isCurrent_of_none rfl, awaited_concat rfl, ← h.current]
    simp only [Bool.false_eq_true, false_iff, not_and]
    intro hj _ hn
    obtain ⟨t, ht, rfl⟩ := isCurrent_iff.1 hi
    obtain ⟨t', ht', rfl⟩ := isCurrent_iff.1 hj
    cases ht.symm.trans ht'
    exact hn true rfl
  passed := by
    have := h.passed
    rw [pending_iff.2 ⟨id, hi⟩] at this
    simpa [passed_concat, Event.passed?, pending] using this
  calls := by
    have := h.calls
    simp only [calls_concat, passed_concat, Event.passed?, Event.isCall, Bool.toNat_false, Option.toList_some,
      List.length_append, List.length_singleton]
    omega

theorem refuse (h : Follows es w) (hr : w.debouncer.closed = true ∨ w.debouncer.isCurrent id = false)
    (hlt : id < w.debouncer.issued) : Follows (es ++ [.deliver id false]) w where
  timers := by simpa [timers_concat, Event.set?] using h.timers
  closed := by simpa using h.closed
  delivered j b hm := by
    rw [List.mem_append, List.mem_singleton] at hm
    obtain hm | hm := hm
    · exact h.delivered j b hm
    · cases hm
      exact hlt
  current j := by
    rw [awaited_concat rfl, h.current]
    refine ⟨fun hj => ⟨hj, by simp, fun b heq => ?_⟩, fun hj => hj.1⟩
    cases heq
    cases hr with
    | inl hc => exact hj.kept (h.closed.1 hc)
    | inr hi => exact absurd ((h.current id).2 hj) (by simp [hi])
  passed := by simpa [passed_concat, Event.passed?] using h.passed
  calls := by simpa [calls_concat, passed_concat, Event.passed?, Event.isCall] using h.calls

theorem step (h : Follows es w) (hs : Step w e v) : Follows (es ++ [e]) v := by
  cases hs with
  | @trigger now d ha =>
    obtain ⟨-, rfl⟩ | ⟨hc, rfl⟩ := arm_ok ha
    · have hn : w.debouncer.setBetween w.debouncer = none := by simp [setBetween]
      rw [hn]
      exact h.pass_over rfl rfl nofun nofun rfl (by simp [Event.isCall])
    · have hn : w.debouncer.setBetween
          { w.debouncer with timer := some ⟨w.debouncer.issued, now + w.debouncer.delay⟩, issued := w.debouncer.issued + 1 } =
          some w.debouncer.issued := by
        simp [setBetween]
      rw [hn]
      exact h.set hc _
  | fail => exact h.pass_over rfl rfl nofun nofun rfl (by simp [Event.isCall])
  | cancel => exact h.cancel
  | @deliver id hlt =>
    obtain ⟨-, hi, hd⟩ | ⟨hr, hd⟩ := w.debouncer.deliver_cases id
    · simp only [Race.deliver, hd]
      exact h.pass hi hlt
    · simp only [Race.deliver, hd]
      exact h.refuse hr hlt
  | call ho => exact h.pass_over rfl rfl nofun nofun rfl (by simp [Event.isCall, ho, Nat.add_comm])

end Follows

/-- A delivery passes just if its timer is awaited, and otherwise it changes nothing. -/
theorem Step.deliver_iff (hf : Follows es w) {b : Bool} (hs : Step w (.deliver id b) v) :
    (b = true ↔ Awaited es id) ∧ (b = false → v = w) := by
  cases hs with
  | deliver hlt =>
    obtain ⟨-, hi, hd⟩ | ⟨hr, hd⟩ := w.debouncer.deliver_cases id
    · rw [hd]
      exact ⟨⟨fun _ => (hf.current id).1 hi, fun _ => rfl⟩, nofun⟩
    · refine ⟨?_, fun _ => by simp [Race.deliver, hd]⟩
      rw [hd]
      refine ⟨nofun, fun ha => ?_⟩
      cases hr with
      | inl hc => exact absurd (hf.closed.1 hc) ha.kept
      | inr hi => exact absurd ((hf.current id).2 ha) (by simp [hi])

variable {delay : Int} {xs ys zs : List Event} {i j : Nat}

theorem Follows.run (h : Runs Step (start delay) es w) : Follows es w := by
  induction h with
  | none => exact follows_start delay
  | more _ hs ih => exact ih.step hs

/-- Whoever passes was awaited. -/
theorem awaited_of_passed (h : Runs Step (start delay) (xs ++ .deliver id true :: ys) v) : Awaited xs id := by
  obtain ⟨u, u', hu, hs, -⟩ := h.split
  exact (hs.deliver_iff (.run hu)).1.1 rfl

/-- Between two calls there was another trigger. -/
theorem trigger_between (h : Runs Step (start delay) (xs ++ .deliver i true :: ys ++ .deliver j true :: zs) v) :
    ∃ id, .trigger (some id) ∈ ys := by
  have hj := awaited_of_passed h
  have hi : Awaited xs i := by
    rw [List.append_assoc] at h
    exact awaited_of_passed h
  by_contra hno
  have hys : timers ys = [] := by
    refine List.filterMap_eq_nil_iff.2 fun e he => ?_
    cases e with
    | trigger t =>
      cases t with
      | none => rfl
      | some id => exact absurd ⟨id, he⟩ hno
    | fail | cancel | deliver | call => rfl
  have hsame : timers (xs ++ .deliver i true :: ys) = timers xs := by
    rw [timers, List.filterMap_append, List.filterMap_cons_none rfl]
    exact (congrArg _ hys).trans (List.append_nil _)
  have hlatest := hj.latest
  rw [hsame, hi.latest] at hlatest
  cases hlatest
  exact hj.undelivered true (List.mem_append_right _ (List.mem_cons_self ..))

theorem calls_le (h : Runs Step (start delay) es w) : calls es ≤ (timers es).length := by
  have hf := Follows.run h
  have hcalls := hf.calls
  have hpassed := hf.passed
  rw [hf.timers, List.length_range]
  omega

/-- Nothing is set and nothing passes once it was cancelled. -/
theorem quiet_of_cancel (h : Runs Step (start delay) (xs ++ .cancel :: ys) v) (id : Nat) :
    .deliver id true ∉ ys ∧ .trigger (some id) ∉ ys := by
  have hmem (zs : List Event) : .cancel ∈ xs ++ .cancel :: zs := List.mem_append_right _ (List.mem_cons_self ..)
  constructor <;> intro hm <;> obtain ⟨zs, zs', rfl⟩ := List.append_of_mem hm
  · rw [← List.cons_append, ← List.append_assoc] at h
    exact (awaited_of_passed h).kept (hmem zs)
  · rw [← List.cons_append, ← List.append_assoc] at h
    obtain ⟨u, u', hu, hs, -⟩ := h.split
    have hclosed := (Follows.run hu).closed.2 (hmem zs)
    generalize he : Event.trigger (some id) = e at hs
    cases hs with
    | trigger ha =>
      obtain ⟨-, rfl⟩ | ⟨ho, -⟩ := arm_ok ha
      · simp [setBetween] at he
      · exact absurd ho (by simp [hclosed])
    | fail | cancel | deliver | call => cases he

/-- A call is pending just while a timer is awaited; a delivery passes just if its timer is the awaited one, and changes
nothing otherwise; calls do not outnumber the timers that were set, and a cancel is the end of both. -/
theorem newest_only (h : Runs Step (start delay) es w) :
    (w.debouncer.pending = true ↔ ∃ id, Awaited es id) ∧
      (∀ id b v, Step w (.deliver id b) v → (b = true ↔ Awaited es id) ∧ (b = false → v = w)) ∧
      (∀ xs ys zs i j, es = xs ++ .deliver i true :: ys ++ .deliver j true :: zs → ∃ id, .trigger (some id) ∈ ys) ∧
      calls es ≤ (timers es).length ∧
      ∀ xs ys, es = xs ++ .cancel :: ys → ∀ id, .deliver id true ∉ ys ∧ .trigger (some id) ∉ ys := by
  have hf := Follows.run h
  refine ⟨?_, fun id b v hs => hs.deliver_iff hf, ?_, calls_le h, ?_⟩
  · simp only [pending_iff, hf.current]
  · rintro xs ys zs i j rfl
    exact trigger_between h
  · rintro xs ys rfl id
    exact quiet_of_cancel h id

/-- A trigger restarts the timer; the old one is delivered all the same, then the new one makes its call. -/
theorem newest_only_restarted :
    ∃ w, Runs Step (start 10) [.trigger (some 0), .trigger (some 1), .deliver 0 false, .deliver 1 true, .call] w ∧
      w.debouncer.pending = false ∧ ∀ id, ¬Awaited [.trigger (some 0), .trigger (some 1), .deliver 0 false,
        .deliver 1 true, .call] id := by
  have harm (d : Debouncer) (hd : d.delay = 10) : d.arm 0 = .ok (d.trigger 0) := arm_of_finite (by rw [hd]; decide) 0
  have hrun : Runs Step (start 10) [.trigger (some 0), .trigger (some 1), .deliver 0 false, .deliver 1 true, .call] _ :=
    ((((Runs.one (.trigger (harm _ rfl))).more (.trigger (harm _ rfl))).more (.deliver (show 0 < 2 by decide))).more
      (.deliver (show 1 < 2 by decide))).more (.call rfl)
  refine ⟨_, hrun, rfl, fun id ha => ?_⟩
  exact absurd ((newest_only hrun).1.2 ⟨id, ha⟩) (by decide)

end Race

end Hotload.Debouncer
