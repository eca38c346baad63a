import Hotload.Debouncer.Clockwork
import Hotload.Proofs.Debouncer.Race
import Hotload.Proofs.Debouncer.Script
import Hotload.Proofs.Waits

/-!
When calls are made. Only the timer that is set makes its call, and it is the one of the trigger that is under way, so
the calls of a script are those that it asks for.
-/
namespace Hotload.Debouncer

variable {delay : Int} {cues : List Cue} {cue : Cue} {n : Nat}

section Advance

variable {d : Debouncer} {t : Timer} {time : Int}

theorem advance_of_none (h : d.timer = none) : d.advance time = (none, d) := by
  simp [advance, due?, h]

theorem advance_of_early (h : d.timer = some t) (hd : ¬t.due ≤ time) : d.advance time = (none, d) := by
  have hdue : d.due? time = none := by simp [due?, h, Option.filter, hd]
  simp [advance, hdue]

theorem advance_of_due (ho : d.closed = false) (h : d.timer = some t) (hd : t.due ≤ time) :
    d.advance time = (some t.due, { d with timer := none }) := by
  have hdue : d.due? time = some t := by simp [due?, h, Option.filter, hd]
  simp [advance, hdue, deliver, ho, isCurrent_iff.2 ⟨t, h, rfl⟩]

end Advance

namespace Clockwork

variable {late : Timer → Bool} {c c' : Clockwork} {t : Timer}

theorem come_stale (h : c.debouncer.isCurrent t.id = false) : c.come late t = c := by
  obtain ⟨-, hi, -⟩ | ⟨-, hd⟩ := c.debouncer.deliver_cases t.id
  · rw [h] at hi
    cases hi
  · rw [come, hd]
    split <;> simp

theorem come_current (ho : c.debouncer.closed = false) (h : c.debouncer.isCurrent t.id = true) :
    c.come late t = { c with debouncer := { c.debouncer with timer := none }, calls := c.calls ++ [t.due] } := by
  simp [come, deliver, ho, h]

theorem foldl_come_stale {ts : List Timer} (h : ∀ t ∈ ts, c.debouncer.isCurrent t.id = false) :
    ts.foldl (come late) c = c := by
  induction ts with
  | nil => rfl
  | cons t ts ih =>
    rw [List.foldl_cons, come_stale (h t List.mem_cons_self)]
    exact ih fun u hu => h u (List.mem_cons_of_mem _ hu)

/-- The queue holds the timer that is set, and each timer once. -/
structure Queued (c : Clockwork) : Prop where
  ids : (c.queue.map (·.id)).Nodup
  issued : ∀ t ∈ c.queue, t.id < c.debouncer.issued
  current : ∀ t, c.debouncer.timer = some t → t ∈ c.queue
  closed : c.debouncer.closed = true → c.debouncer.timer = none

theorem Queued.open_of_timer (h : Queued c) (ht : c.debouncer.timer = some t) : c.debouncer.closed = false := by
  by_contra hclosed
  rw [Bool.not_eq_false] at hclosed
  rw [h.closed hclosed] at ht
  cases ht

/-- Whatever comes late, only the timer that is set makes its call. -/
theorem Queued.reach_eq (h : Queued c) (time : Int) :
    c.reach late time = ⟨(c.debouncer.advance time).2, time, c.queue.filter (time < ·.due),
      c.calls ++ (c.debouncer.advance time).1.toList⟩ := by
  cases ht : c.debouncer.timer with
  | none =>
    have hfold : (c.queue.filter (·.due ≤ time)).foldl (come late) c = c :=
      foldl_come_stale fun t _ => isCurrent_of_none ht t.id
    simp [reach, hfold, advance_of_none ht]
  | some t =>
    have ho := h.open_of_timer ht
    have hstale (u : Timer) (hu : u ∈ c.queue) (hne : u ≠ t) : c.debouncer.isCurrent u.id = false := by
      by_contra hcurrent
      rw [Bool.not_eq_false, isCurrent_iff] at hcurrent
      obtain ⟨t', ht', hid⟩ := hcurrent
      rw [ht, Option.some.injEq] at ht'
      subst ht'
      exact hne (List.inj_on_of_nodup_map h.ids hu (h.current t ht) hid.symm)
    by_cases hdue : t.due ≤ time
    · -- The timers around it change nothing, those before it because they were replaced, those after it as none is set.
      have hmem : t ∈ c.queue.filter (·.due ≤ time) := by
        rw [List.mem_filter]
        exact ⟨h.current t ht, by simpa using hdue⟩
      obtain ⟨xs, ys, hsplit⟩ := List.append_of_mem hmem
      have hnodup : (xs ++ t :: ys).Nodup := hsplit ▸ (List.Nodup.of_map _ h.ids).filter _
      have hxs (u : Timer) (hu : u ∈ xs) : c.debouncer.isCurrent u.id = false := by
        have huq : u ∈ c.queue.filter (·.due ≤ time) := hsplit ▸ List.mem_append_left _ hu
        apply hstale u (List.mem_of_mem_filter huq)
        rintro rfl
        exact List.disjoint_of_nodup_append hnodup hu List.mem_cons_self
      have hcurrent : c.debouncer.isCurrent t.id = true := isCurrent_iff.2 ⟨t, ht, rfl⟩
      have hfold : (c.queue.filter (·.due ≤ time)).foldl (come late) c =
          { c with debouncer := { c.debouncer with timer := none }, calls := c.calls ++ [t.due] } := by
        rw [hsplit, List.foldl_append, foldl_come_stale hxs, List.foldl_cons, come_current ho hcurrent]
        exact foldl_come_stale fun u _ => isCurrent_of_none rfl u.id
      simp [reach, hfold, advance_of_due ho ht hdue]
    · have hfold : (c.queue.filter (·.due ≤ time)).foldl (come late) c = c := by
        apply foldl_come_stale
        intro u hu
        rw [List.mem_filter, decide_eq_true_eq] at hu
        apply hstale u hu.1
        rintro rfl
        exact hdue hu.2
      simp [reach, hfold, advance_of_early ht hdue]

/-- What a debouncer at work is after a script. -/
structure Follows (delay : Int) (cues : List Cue) (c : Clockwork) : Prop extends Queued c where
  setting : c.debouncer.delay = delay
  now : c.now = elapsed cues
  closed_iff : c.debouncer.closed = true ↔ .cancel ∈ cues
  pending : ∀ t, c.debouncer.timer = some t → ∃ i, Waiting delay cues i ∧ t.due = timeAt cues i + delay
  unset : c.debouncer.timer = none → ∀ i, ¬Waiting delay cues i
  answers : Answers delay cues c.calls

theorem follows_start (delay : Int) : Follows delay [] (start delay) where
  ids := List.nodup_nil
  issued _ h := by cases h
  current _ h := by cases h
  closed _ := rfl
  setting := rfl
  now := rfl
  closed_iff := by simp [start, new]
  pending _ h := by cases h
  unset _ i h := by simpa using h.trigger
  answers := by
    refine ⟨[], List.Pairwise.nil, fun i => ?_, rfl⟩
    constructor
    · intro h
      cases h
    · intro h
      simpa using h.trigger

namespace Follows

theorem trigger_closed (h : Follows delay cues c) (hc : c.debouncer.closed = true) :
    Follows delay (cues ++ [.trigger]) c where
  toQueued := h.toQueued
  setting := h.setting
  now := by simp [h.now, elapsed_append, elapsed, Cue.millis]
  closed_iff := by simpa using h.closed_iff
  pending t ht := by
    rw [h.closed hc] at ht
    cases ht
  unset _ i hw := (waiting_trigger.1 hw).2 (h.closed_iff.1 hc)
  answers := h.answers.silent nofun

/-- A trigger replaces the timer that was set, which stays in the queue. -/
theorem trigger_open (h : Follows delay cues c) (ho : c.debouncer.closed = false)
    (ht : t = ⟨c.debouncer.issued, c.now + c.debouncer.delay⟩) :
    Follows delay (cues ++ [.trigger])
      { c with
        debouncer := { c.debouncer with timer := some t, issued := c.debouncer.issued + 1 }
        queue := c.queue ++ [t] } where
  ids := by
    rw [List.map_append, List.nodup_append]
    refine ⟨h.ids, List.nodup_singleton _, fun i hi j hj => ?_⟩
    obtain ⟨u, hu, rfl⟩ := List.mem_map.1 hi
    have hlt := h.issued u hu
    simp only [List.map_cons, List.map_nil, List.mem_singleton, ht] at hj
    omega
  issued u hu := by
    rw [List.mem_append, List.mem_singleton] at hu
    rcases hu with hu | rfl
    · exact (h.issued u hu).trans (Nat.lt_succ_self _)
    · rw [ht]
      exact Nat.lt_succ_self _
  current u hu := by
    rw [Option.some.injEq] at hu
    rw [List.mem_append, List.mem_singleton]
    exact .inr hu.symm
  closed hc := by
    rw [ho] at hc
    cases hc
  setting := h.setting
  now := by simp [h.now, elapsed_append, elapsed, Cue.millis]
  closed_iff := by simpa using h.closed_iff
  pending u hu := by
    have hopen : .cancel ∉ cues := fun hm => absurd (h.closed_iff.2 hm) (by simp [ho])
    rw [Option.some.injEq] at hu
    refine ⟨cues.length, waiting_trigger.2 ⟨rfl, hopen⟩, ?_⟩
    rw [← hu, ht, timeAt_append _ le_rfl, timeAt_length, h.now, h.setting]
  unset hn := by cases hn
  answers := h.answers.silent nofun

theorem cancel (h : Follows delay cues c) : Follows delay (cues ++ [.cancel]) { c with debouncer := c.debouncer.cancel } where
  ids := h.ids
  issued := h.issued
  current t ht := by cases ht
  closed _ := rfl
  setting := h.setting
  now := by simp [h.now, elapsed_append, elapsed, Cue.millis]
  closed_iff := by simp [Debouncer.cancel]
  pending t ht := by cases ht
  unset _ i := not_waiting_cancel
  answers := h.answers.silent nofun

/-- The clock comes to a time before that of the timer that is set, if any is. -/
theorem advance_early (h : Follows delay cues c) (n : Nat)
    (he : ∀ t, c.debouncer.timer = some t → ¬t.due ≤ c.now + n) :
    Follows delay (cues ++ [.advance n]) ⟨c.debouncer, c.now + n, c.queue.filter (c.now + n < ·.due), c.calls⟩ where
  ids := h.ids.sublist (List.filter_sublist.map _)
  issued t ht := h.issued t (List.mem_of_mem_filter ht)
  current t ht := by
    have hlt := he t ht
    rw [List.mem_filter]
    exact ⟨h.current t ht, by simpa using hlt⟩
  closed := h.closed
  setting := h.setting
  now := by rw [h.now, elapsed_advance, Nat.cast_add]
  closed_iff := by simpa using h.closed_iff
  pending t ht := by
    obtain ⟨i, hw, hdue⟩ := h.pending t ht
    have hlt := he t ht
    rw [hdue, h.now] at hlt
    refine ⟨i, waiting_advance.2 ⟨hw, by omega⟩, ?_⟩
    rw [hdue, timeAt_append _ (lt_of_cue hw.trigger).le]
  unset hn i hw := h.unset hn i (waiting_advance.1 hw).1
  answers := by
    apply h.answers.same
    intro i
    rw [undisturbed_concat, or_iff_left]
    rintro ⟨hw, m, hm, hover⟩
    cases hm
    cases ht : c.debouncer.timer with
    | none => exact h.unset ht i hw
    | some t =>
      obtain ⟨k, hk, hdue⟩ := h.pending t ht
      have hlt := he t ht
      rw [hdue, h.now, hk.unique hw] at hlt
      exact hlt hover

/-- The clock comes to the time of the timer that is set, and its call is made. -/
theorem advance_due (h : Follows delay cues c) (n : Nat) (ht : c.debouncer.timer = some t) (hd : t.due ≤ c.now + n) :
    Follows delay (cues ++ [.advance n]) ⟨{ c.debouncer with timer := none }, c.now + n, c.queue.filter (c.now + n < ·.due),
      c.calls ++ [t.due]⟩ where
  ids := h.ids.sublist (List.filter_sublist.map _)
  issued u hu := h.issued u (List.mem_of_mem_filter hu)
  current u hu := by cases hu
  closed _ := rfl
  setting := h.setting
  now := by rw [h.now, elapsed_advance, Nat.cast_add]
  closed_iff := by simpa using h.closed_iff
  pending u hu := by cases hu
  unset _ i hw := by
    obtain ⟨hi, hlt⟩ := waiting_advance.1 hw
    obtain ⟨k, hk, hdue⟩ := h.pending t ht
    rw [hdue, h.now, hk.unique hi] at hd
    omega
  answers := by
    obtain ⟨i, hw, hdue⟩ := h.pending t ht
    rw [hdue]
    apply h.answers.more hw
    rw [hdue, h.now] at hd
    exact hd

theorem step (late : Timer → Bool) (hs : ∃ x, Delay.seconds delay = .ok x) (h : Follows delay cues c) (cue : Cue) :
    ∃ c', c.play late cue = .ok c' ∧ Follows delay (cues ++ [cue]) c' := by
  cases cue with
  | trigger =>
    cases hc : c.debouncer.closed with
    | true => exact ⟨c, by simp [play, arm, hc, newTimers, Except.map], h.trigger_closed hc⟩
    | false =>
      obtain ⟨x, hx⟩ := hs
      have harm : c.debouncer.arm c.now = .ok (c.debouncer.trigger c.now) := by
        simp [arm, hc, h.setting, hx, Except.map]
      exact ⟨_, by simp [play, harm, newTimers, trigger, hc, Except.map], h.trigger_open hc rfl⟩
  | cancel => exact ⟨_, rfl, h.cancel⟩
  | advance n =>
    refine ⟨_, rfl, ?_⟩
    rw [h.reach_eq]
    cases ht : c.debouncer.timer with
    | none =>
      rw [advance_of_none ht]
      simpa using h.advance_early n fun t htimer => by simp [ht] at htimer
    | some t =>
      by_cases hd : t.due ≤ c.now + n
      · rw [advance_of_due (h.open_of_timer ht) ht hd]
        exact h.advance_due n ht hd
      · rw [advance_of_early ht hd]
        simpa using h.advance_early n fun u hu => by
          rw [ht, Option.some.injEq] at hu
          exact hu ▸ hd

end Follows

theorem perform_concat (late : Timer → Bool) (delay : Int) (cues : List Cue) (cue : Cue) :
    perform late delay (cues ++ [cue]) = perform late delay cues >>= fun c => c.play late cue := by
  simp [perform]

/-- A debouncer whose delay a timer can be given plays every script to its end. -/
theorem perform_follows (late : Timer → Bool) (hs : ∃ x, Delay.seconds delay = .ok x) (cues : List Cue) :
    ∃ c, perform late delay cues = .ok c ∧ Follows delay cues c := by
  induction cues using List.reverseRecOn with
  | nil => exact ⟨_, rfl, follows_start delay⟩
  | append_singleton cues cue ih =>
    obtain ⟨c, hc, hf⟩ := ih
    obtain ⟨c', hc', hf'⟩ := hf.step late hs cue
    refine ⟨c', ?_, hf'⟩
    rw [perform_concat, hc]
    exact hc'

end Clockwork

/-- With a delay that was accepted every script is played to its end, and the calls are made a delay after the undisturbed
triggers, whatever timers come late. If each timer comes when the clock reaches its time, then of a burst of triggers the
last one is answered and no other, unless a cancel comes first or the clock never gets there. No trigger after a cancel is
answered. -/
theorem perform_answers {v : Value} (hd : Delay.parse v = .ok delay) (late : Timer → Bool) (cues : List Cue) :
    ∃ c, Clockwork.perform late delay cues = .ok c ∧ Answers delay cues c.calls ∧
      (Prompt delay cues → ∀ first last, Burst delay cues first last → ∀ i, first ≤ i → i ≤ last →
        (Undisturbed delay cues i ↔ i = last ∧ Outlived delay cues last)) ∧
      ∀ before after, cues = before ++ .cancel :: after →
        ∃ c', Clockwork.perform late delay before = .ok c' ∧ c.calls = c'.calls := by
  obtain ⟨h0, hlimit⟩ := Waits.parse_ok hd
  obtain ⟨x, hx, -⟩ := (Waits.debounce_isTimeout_iff h0).2 hlimit
  have hs : ∃ x, Delay.seconds delay = .ok x := ⟨x, hx⟩
  obtain ⟨c, hc, hf⟩ := Clockwork.perform_follows late hs cues
  refine ⟨c, hc, hf.answers, fun hp first last hb i hi hl => hb.undisturbed_iff hp hi hl, ?_⟩
  rintro before after rfl
  obtain ⟨c', hc', hf'⟩ := Clockwork.perform_follows late hs before
  exact ⟨c', hc', hf.answers.unique (answers_cancel hf'.answers after)⟩

/-- A second trigger within the delay takes the call from the first one, whose timer comes all the same. -/
theorem perform_answers_late :
    let cues := [Cue.trigger, .advance 4, .trigger, .advance 10]
    Delay.parse (.int 10) = .ok 10 ∧ Undisturbed 10 cues 2 ∧ ¬Undisturbed 10 cues 0 ∧
      ∃ c, Clockwork.perform (fun _ => true) 10 cues = .ok c ∧ c.calls = [14] := by
  intro cues
  obtain ⟨c, hc, hanswers, hbursts, -⟩ := @perform_answers 10 (.int 10) rfl (fun _ => true) cues
  have hburst : Burst 10 cues 0 2 := by
    refine ⟨rfl, rfl, by decide, fun i k _ hk _ => ?_, fun i hs => absurd hs.before (Nat.not_lt_zero i), fun k hs => ?_⟩
    · have htime : timeAt cues k ≤ 4 := timeAt_mono cues hk
      omega
    · have hlt : k < 4 := lt_of_cue hs.other
      obtain rfl : k = 3 := by
        have := hs.before
        omega
      cases hs.other
  have houtlived : Outlived 10 cues 2 := ⟨3, 10, by decide, rfl, by decide, by decide⟩
  have hburst_iff := hbursts (fun h => absurd h (by decide)) 0 2 hburst
  have hlast : Undisturbed 10 cues 2 := (hburst_iff 2 (by decide) le_rfl).2 ⟨rfl, houtlived⟩
  have hfirst : ¬Undisturbed 10 cues 0 := fun h => absurd ((hburst_iff 0 le_rfl (by decide)).1 h).1 (by decide)
  refine ⟨rfl, hlast, hfirst, c, hc, hanswers.unique ⟨[2], List.pairwise_singleton .., fun i => ?_, rfl⟩⟩
  rw [List.mem_singleton]
  constructor
  · rintro rfl
    exact hlast
  · intro h
    have htriggers : ∀ i, i < 4 → cues[i]? = some .trigger → i = 0 ∨ i = 2 := by decide
    rcases htriggers i (lt_of_cue h.trigger) h.trigger with rfl | rfl
    · exact absurd h hfirst
    · rfl

end Hotload.Debouncer
