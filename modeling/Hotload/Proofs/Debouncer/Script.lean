import Hotload.Debouncer.Script
import Mathlib.Data.List.Induction
import Mathlib.Data.List.Sort

/-!
What a script asks for. At any time at most one trigger is under way; a cue more answers it or disturbs it, or it stays
under way. Of a burst of triggers only the last one is answered, and none is after a cancel.
-/
namespace Hotload.Debouncer

variable {delay : Int} {cues : List Cue} {cue : Cue} {place stop i k n : Nat}

theorem elapsed_append (xs ys : List Cue) : elapsed (xs ++ ys) = elapsed xs + elapsed ys := by
  induction xs with
  | nil => exact (Nat.zero_add _).symm
  | cons cue xs ih => rw [List.cons_append, elapsed, elapsed, ih, Nat.add_assoc]

theorem elapsed_advance (cues : List Cue) (n : Nat) : elapsed (cues ++ [.advance n]) = elapsed cues + n := by
  simp [elapsed_append, elapsed, Cue.millis]

theorem timeAt_length (cues : List Cue) : timeAt cues cues.length = elapsed cues := by
  simp [timeAt]

theorem timeAt_append (ys : List Cue) (h : i ≤ cues.length) : timeAt (cues ++ ys) i = timeAt cues i := by
  rw [timeAt, timeAt, List.take_append_of_le_length h]

theorem timeAt_mono (cues : List Cue) (h : i ≤ k) : timeAt cues i ≤ timeAt cues k := by
  have hk := List.take_append_drop i (cues.take k)
  rw [List.take_take, Nat.min_eq_left h] at hk
  rw [timeAt, timeAt, ← hk, elapsed_append]
  exact Nat.le_add_right _ _

theorem lt_of_cue (h : cues[i]? = some cue) : i < cues.length :=
  (List.getElem?_eq_some_iff.1 h).1

theorem heard_concat (h : place < cues.length) : Heard (cues ++ [cue]) place ↔ Heard cues place := by
  have hsame (j : Nat) (hj : j ≤ place) : (cues ++ [cue])[j]? = cues[j]? :=
    List.getElem?_append_left (by omega)
  constructor
  · intro hh
    exact ⟨hsame place le_rfl ▸ hh.trigger, fun j hj => hsame j hj.le ▸ hh.kept j hj⟩
  · intro hh
    exact ⟨hsame place le_rfl ▸ hh.trigger, fun j hj => hsame j hj.le ▸ hh.kept j hj⟩

theorem heard_length : Heard (cues ++ [cue]) cues.length ↔ cue = .trigger ∧ .cancel ∉ cues := by
  constructor
  · intro h
    have ht := h.trigger
    rw [List.getElem?_concat_length, Option.some.injEq] at ht
    refine ⟨ht, fun hm => ?_⟩
    obtain ⟨j, hj⟩ := List.mem_iff_getElem?.1 hm
    apply h.kept j (lt_of_cue hj)
    rw [List.getElem?_append_left (lt_of_cue hj), hj]
  · rintro ⟨rfl, hc⟩
    refine ⟨List.getElem?_concat_length, fun j hj hcancel => ?_⟩
    rw [List.getElem?_append_left hj] at hcancel
    exact hc (List.mem_of_getElem? hcancel)

theorem idle_concat (cue : Cue) (h : stop ≤ cues.length) : Idle (cues ++ [cue]) place stop ↔ Idle cues place stop := by
  apply forall_congr'
  intro j
  apply forall_congr'
  intro hp
  apply forall_congr'
  intro hs
  rw [List.getElem?_append_left (by omega)]

theorem idle_length (h : place < cues.length) :
    Idle (cues ++ [cue]) place (cues.length + 1) ↔ Idle cues place cues.length ∧ ∃ n, cue = .advance n := by
  rw [← idle_concat cue le_rfl]
  constructor
  · intro hi
    refine ⟨fun j hp hs => hi j hp (by omega), ?_⟩
    obtain ⟨n, hn⟩ := hi cues.length h (by omega)
    rw [List.getElem?_concat_length, Option.some.injEq] at hn
    exact ⟨n, hn⟩
  · rintro ⟨hi, n, rfl⟩ j hp hs
    rcases Nat.lt_or_ge j cues.length with hlt | hge
    · exact hi j hp hlt
    · rw [show j = cues.length by omega, List.getElem?_concat_length]
      exact ⟨n, rfl⟩

/-- A trigger is no place of idle time. -/
theorem Idle.le_of_trigger (h : Idle cues place stop) (ht : cues[k]? = some .trigger) (hp : place < k) : stop ≤ k := by
  by_contra hlt
  obtain ⟨n, hn⟩ := h k hp (by omega)
  rw [ht] at hn
  simp at hn

theorem Idle.le_length (h : Idle cues place stop) (hp : place + 1 < stop) : stop ≤ cues.length := by
  obtain ⟨n, hn⟩ := h (stop - 1) (by omega) (by omega)
  have := lt_of_cue hn
  omega

/-- A trigger that no cancel comes before and whose delay is still under way at the end of a script. -/
structure Waiting (delay : Int) (cues : List Cue) (place : Nat) : Prop extends Heard cues place where
  idle : Idle cues place cues.length
  early : place + 1 = cues.length ∨ elapsed cues < timeAt cues place + delay

theorem Waiting.unique (h : Waiting delay cues i) (h' : Waiting delay cues k) : i = k := by
  have hi := lt_of_cue h.trigger
  have hk := lt_of_cue h'.trigger
  rcases Nat.lt_trichotomy i k with hlt | heq | hlt
  · have := h.idle.le_of_trigger h'.trigger hlt
    omega
  · exact heq
  · have := h'.idle.le_of_trigger h.trigger hlt
    omega

/-- A trigger whose delay is over comes before the one whose timer is set. -/
theorem Waiting.lt (h : Waiting delay cues i) (hu : Undisturbed delay cues k) : k < i := by
  obtain ⟨stop, hw, hidle, hover⟩ := hu.elapses
  have hk := lt_of_cue hu.trigger
  have hle := hidle.le_length hw
  rcases Nat.lt_trichotomy i k with hlt | heq | hlt
  · have := h.idle.le_of_trigger hu.trigger hlt
    omega
  · subst heq
    have ht := timeAt_mono cues hle
    rw [timeAt_length] at ht
    rcases h.early with hl | hl <;> omega
  · exact hlt

theorem waiting_trigger : Waiting delay (cues ++ [.trigger]) place ↔ place = cues.length ∧ .cancel ∉ cues := by
  constructor
  · intro h
    have hlt := lt_of_cue h.trigger
    simp only [List.length_append, List.length_singleton] at hlt
    have hp : place = cues.length := by
      by_contra hne
      have hle := h.idle.le_of_trigger List.getElem?_concat_length (by omega)
      rw [List.length_append, List.length_singleton] at hle
      omega
    exact ⟨hp, (heard_length.1 (hp ▸ h.toHeard)).2⟩
  · rintro ⟨rfl, hc⟩
    refine ⟨heard_length.2 ⟨rfl, hc⟩, fun j hj hl => ?_, .inl (by simp)⟩
    simp only [List.length_append, List.length_singleton] at hl
    omega

theorem not_waiting_cancel : ¬Waiting delay (cues ++ [.cancel]) place := by
  intro h
  have hlt := lt_of_cue h.trigger
  simp only [List.length_append, List.length_singleton] at hlt
  rcases Nat.lt_or_ge place cues.length with hp | hp
  · have hidle := h.idle
    rw [List.length_append, List.length_singleton, idle_length hp] at hidle
    obtain ⟨-, n, hn⟩ := hidle
    cases hn
  · have hh := h.toHeard
    rw [show place = cues.length by omega, heard_length] at hh
    cases hh.1

theorem waiting_advance : Waiting delay (cues ++ [.advance n]) place ↔
    Waiting delay cues place ∧ elapsed cues + n < timeAt cues place + delay := by
  constructor
  · intro h
    have hlt := lt_of_cue h.trigger
    simp only [List.length_append, List.length_singleton] at hlt
    have hp : place < cues.length := by
      by_contra hge
      have hh := h.toHeard
      rw [show place = cues.length by omega, heard_length] at hh
      cases hh.1
    have hidle := h.idle
    rw [List.length_append, List.length_singleton, idle_length hp] at hidle
    have hearly : elapsed cues + n < timeAt cues place + delay := by
      rcases h.early with hl | hl
      · simp only [List.length_append, List.length_singleton] at hl
        omega
      · rw [elapsed_advance, timeAt_append _ hp.le] at hl
        exact_mod_cast hl
    exact ⟨⟨(heard_concat hp).1 h.toHeard, hidle.1, .inr (by omega)⟩, hearly⟩
  · rintro ⟨h, hearly⟩
    have hp := lt_of_cue h.trigger
    refine ⟨(heard_concat hp).2 h.toHeard, ?_, .inr ?_⟩
    · rw [List.length_append, List.length_singleton, idle_length hp]
      exact ⟨h.idle, n, rfl⟩
    · rw [elapsed_advance, timeAt_append _ hp.le]
      exact_mod_cast hearly

/-- One cue more ends the delay of the trigger whose timer is set, or of none. -/
theorem undisturbed_concat : Undisturbed delay (cues ++ [cue]) place ↔
    Undisturbed delay cues place ∨
      Waiting delay cues place ∧ ∃ n, cue = .advance n ∧ timeAt cues place + delay ≤ elapsed cues + n := by
  constructor
  · intro h
    obtain ⟨stop, hw, hidle, hover⟩ := h.elapses
    have hle := hidle.le_length hw
    simp only [List.length_append, List.length_singleton] at hle
    have hp : place < cues.length := by omega
    have hh := (heard_concat hp).1 h.toHeard
    rw [timeAt_append _ hp.le] at hover
    rcases Nat.lt_or_ge cues.length stop with hs | hs
    · -- The delay ends with the last cue, unless it was over before it.
      obtain rfl : stop = cues.length + 1 := by omega
      obtain ⟨hstill, n, rfl⟩ := (idle_length hp).1 hidle
      have hend := timeAt_length (cues ++ [.advance n])
      rw [elapsed_advance, List.length_append, List.length_singleton] at hend
      rw [hend, Int.natCast_add] at hover
      by_cases hearly : place + 1 = cues.length ∨ elapsed cues < timeAt cues place + delay
      · exact .inr ⟨⟨hh, hstill, hearly⟩, n, rfl, hover⟩
      · rw [not_or, not_lt] at hearly
        refine .inl ⟨hh, cues.length, by omega, hstill, ?_⟩
        rw [timeAt_length]
        exact hearly.2
    · rw [timeAt_append _ hs] at hover
      exact .inl ⟨hh, stop, hw, (idle_concat cue hs).1 hidle, hover⟩
  · rintro (h | ⟨h, n, rfl, hover⟩)
    · obtain ⟨stop, hw, hidle, hover⟩ := h.elapses
      have hp := lt_of_cue h.trigger
      have hle := hidle.le_length hw
      refine ⟨(heard_concat hp).2 h.toHeard, stop, hw, (idle_concat cue hle).2 hidle, ?_⟩
      rw [timeAt_append _ hp.le, timeAt_append _ hle]
      exact hover
    · have hp := lt_of_cue h.trigger
      refine ⟨(heard_concat hp).2 h.toHeard, cues.length + 1, by omega, (idle_length hp).2 ⟨h.idle, n, rfl⟩, ?_⟩
      have hend := timeAt_length (cues ++ [.advance n])
      rw [elapsed_advance, List.length_append, List.length_singleton] at hend
      rw [hend, timeAt_append _ hp.le, Int.natCast_add]
      exact hover

theorem Answers.same {calls : List Int} (h : Answers delay cues calls)
    (hn : ∀ i, Undisturbed delay (cues ++ [cue]) i ↔ Undisturbed delay cues i) : Answers delay (cues ++ [cue]) calls := by
  obtain ⟨places, hsorted, hmem, hcalls⟩ := h
  refine ⟨places, hsorted, fun i => (hmem i).trans (hn i).symm, ?_⟩
  rw [hcalls]
  apply List.map_congr_left
  intro i hi
  rw [timeAt_append _ (lt_of_cue ((hmem i).1 hi).trigger).le]

/-- A cue that is no advance ends no delay. -/
theorem Answers.silent {calls : List Int} (h : Answers delay cues calls) (hc : ∀ n, cue ≠ .advance n) :
    Answers delay (cues ++ [cue]) calls := by
  apply h.same
  intro i
  rw [undisturbed_concat, or_iff_left]
  rintro ⟨-, n, hn, -⟩
  exact hc n hn

/-- The trigger whose timer is set is answered when the clock comes to its time. -/
theorem Answers.more {calls : List Int} (h : Answers delay cues calls) (hw : Waiting delay cues i)
    (hover : timeAt cues i + delay ≤ elapsed cues + n) :
    Answers delay (cues ++ [.advance n]) (calls ++ [timeAt cues i + delay]) := by
  obtain ⟨places, hsorted, hmem, hcalls⟩ := h
  refine ⟨places ++ [i], ?_, fun k => ?_, ?_⟩
  · rw [List.pairwise_append]
    refine ⟨hsorted, List.pairwise_singleton .., fun k hk j hj => ?_⟩
    rw [List.mem_singleton] at hj
    subst hj
    exact hw.lt ((hmem k).1 hk)
  · rw [List.mem_append, List.mem_singleton, undisturbed_concat, hmem]
    apply or_congr_right
    constructor
    · rintro rfl
      exact ⟨hw, n, rfl, hover⟩
    · rintro ⟨hk, -⟩
      exact hk.unique hw
  · rw [hcalls, List.map_append, List.map_singleton, timeAt_append _ (lt_of_cue hw.trigger).le]
    congr 1
    apply List.map_congr_left
    intro k hk
    rw [timeAt_append _ (lt_of_cue ((hmem k).1 hk).trigger).le]

theorem timeAt_succ (h : cues[i]? = some cue) : timeAt cues (i + 1) = timeAt cues i + cue.millis := by
  simp [timeAt, List.take_add_one, h, elapsed_append, elapsed]

theorem exists_successive (hi : cues[i]? = some .trigger) (hk : cues[k]? = some .trigger) (h : i < k) :
    ∃ m, m ≤ k ∧ Successive cues i m := by
  have hex : ∃ m, i < m ∧ cues[m]? = some .trigger := ⟨k, h, hk⟩
  refine ⟨Nat.find hex, Nat.find_min' hex ⟨h, hk⟩, (Nat.find_spec hex).1, hi, (Nat.find_spec hex).2, fun j hj hlt ht => ?_⟩
  exact Nat.find_min hex hlt ⟨hj, ht⟩

/-- A trigger that is followed by another one within the delay is disturbed. -/
theorem Undisturbed.not_close (h : Undisturbed delay cues i) (hs : Successive cues i k) :
    timeAt cues i + delay ≤ timeAt cues k := by
  obtain ⟨stop, -, hidle, hover⟩ := h.elapses
  have hle := timeAt_mono cues (hidle.le_of_trigger hs.other hs.before)
  omega

theorem Undisturbed.outlived (h : Undisturbed delay cues i) : Outlived delay cues i := by
  obtain ⟨stop, hw, hidle, hover⟩ := h.elapses
  obtain ⟨n, hn⟩ := hidle (stop - 1) (by omega) (by omega)
  refine ⟨stop - 1, n, by omega, hn, ?_, fun k hk hc => ?_⟩
  · rw [show stop - 1 + 1 = stop by omega]
    exact hover
  · rcases Nat.lt_trichotomy k i with hlt | rfl | hlt
    · exact h.kept k hlt hc
    · rw [h.trigger] at hc
      cases hc
    · obtain ⟨m, hm⟩ := hidle k hlt (by omega)
      rw [hm] at hc
      cases hc

theorem idle_of_not {j : Nat} (hj : j ≤ cues.length) (ht : ∀ m, i < m → m < j → cues[m]? ≠ some .trigger)
    (hc : ∀ m, m < j → cues[m]? ≠ some .cancel) : Idle cues i j := by
  intro m hm hlt
  have hsome : cues[m]? = some cues[m] := List.getElem?_eq_getElem (by omega)
  cases hcue : cues[m] with
  | trigger => exact absurd (hcue ▸ hsome) (ht m hm hlt)
  | cancel => exact absurd (hcue ▸ hsome) (hc m hlt)
  | advance n => exact ⟨n, hcue ▸ hsome⟩

/-- The last trigger of a burst is undisturbed if the clock comes to the end of its delay. -/
theorem Burst.undisturbed {first last : Nat} (hp : Prompt delay cues) (hb : Burst delay cues first last)
    (ho : Outlived delay cues last) : Undisturbed delay cues last := by
  obtain ⟨j, n, hlt, hn, hover, hkept⟩ := ho
  refine ⟨⟨hb.final, fun k hk => hkept k (hk.trans hlt)⟩, ?_⟩
  have hj := lt_of_cue hn
  by_cases hex : ∃ m, last < m ∧ m < j ∧ cues[m]? = some .trigger
  · -- The next trigger comes when the delay is over already.
    obtain ⟨m, hm, hmj, ht⟩ := hex
    obtain ⟨k, hk, hs⟩ := exists_successive hb.final ht hm
    have hends := hb.ends k hs
    have hbefore := hs.before
    refine ⟨k, ?_, idle_of_not (by omega) hs.between fun l hl => hkept l (by omega), hends⟩
    by_contra hnext
    obtain rfl : k = last + 1 := by omega
    have htime := timeAt_succ hb.final
    change timeAt cues (last + 1) = timeAt cues last at htime
    obtain ⟨l, hl⟩ := hp (by omega) last .trigger hb.final hs.other
    cases hl
  · refine ⟨j + 1, by omega, ?_, hover⟩
    have hidle : Idle cues last j :=
      idle_of_not hj.le (fun m hm hmj ht => hex ⟨m, hm, hmj, ht⟩) hkept
    intro m hm hmj
    rcases Nat.lt_or_ge m j with hlt' | hge
    · exact hidle m hm hlt'
    · exact ⟨n, by rw [show m = j by omega, hn]⟩

theorem Burst.undisturbed_iff {first last : Nat} (hp : Prompt delay cues) (hb : Burst delay cues first last)
    (hi : first ≤ i) (hl : i ≤ last) : Undisturbed delay cues i ↔ i = last ∧ Outlived delay cues last := by
  constructor
  · intro h
    obtain rfl : i = last := by
      by_contra hne
      obtain ⟨k, hk, hs⟩ := exists_successive h.trigger hb.final (by omega)
      have hclose := hb.close i k hi hk hs
      have hnot := h.not_close hs
      omega
    exact ⟨rfl, h.outlived⟩
  · rintro ⟨rfl, ho⟩
    exact hb.undisturbed hp ho

theorem undisturbed_cancel (before after : List Cue) :
    Undisturbed delay (before ++ .cancel :: after) i ↔ Undisturbed delay before i := by
  induction after using List.reverseRecOn with
  | nil =>
    rw [undisturbed_concat, or_iff_left]
    rintro ⟨-, n, hn, -⟩
    cases hn
  | append_singleton after cue ih =>
    rw [← List.cons_append, ← List.append_assoc, undisturbed_concat, ih, or_iff_left]
    rintro ⟨hw, -⟩
    have hcancel : (before ++ .cancel :: after)[before.length]? = some .cancel := by simp
    have hplace := lt_of_cue hw.trigger
    rcases Nat.lt_trichotomy before.length i with hlt | rfl | hlt
    · exact hw.kept _ hlt hcancel
    · have ht := hw.trigger
      rw [hcancel] at ht
      cases ht
    · obtain ⟨n, hn⟩ := hw.idle before.length hlt (lt_of_cue hcancel)
      rw [hcancel] at hn
      cases hn

theorem answers_cancel {calls : List Int} {before : List Cue} (h : Answers delay before calls) (after : List Cue) :
    Answers delay (before ++ .cancel :: after) calls := by
  obtain ⟨places, hsorted, hmem, hcalls⟩ := h
  refine ⟨places, hsorted, fun i => (hmem i).trans (undisturbed_cancel before after).symm, ?_⟩
  rw [hcalls]
  apply List.map_congr_left
  intro i hi
  rw [timeAt_append _ (lt_of_cue ((hmem i).1 hi).trigger).le]

theorem Answers.unique {calls calls' : List Int} (h : Answers delay cues calls) (h' : Answers delay cues calls') :
    calls = calls' := by
  obtain ⟨places, hsorted, hmem, hcalls⟩ := h
  obtain ⟨places', hsorted', hmem', hcalls'⟩ := h'
  rw [hcalls, hcalls', hsorted.eq_of_mem_iff hsorted' fun i => (hmem i).trans (hmem' i).symm]

end Hotload.Debouncer
