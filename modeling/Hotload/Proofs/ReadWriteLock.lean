import Hotload.ReadWriteLock.Crowd
import Mathlib.Data.List.Count

/-!
Who is inside a lock and who waits for it, whatever the order in which threads come, try again and leave. The lock counts
its readers and knows of its writer, a writer is alone, and nobody waits in vain: as long as a thread that waits was not
told to try again, somebody is inside who keeps it out, and the last one of those to leave tells it.
-/
namespace Hotload.ReadWriteLock

variable {l : ReadWriteLock} {a side : Side}

/-- A reader who leaves others inside tells nobody, and nobody could enter who could not before. -/
theorem admits_leave (h : (l.leave a).2 = false) (hb : l.admits side = false) : (l.leave a).1.admits side = false := by
  cases a with
  | write => cases h
  | read =>
    have hr : l.readers - 1 ≠ 0 := by simpa [leave] using h
    cases side with
    | read => exact hb
    | write => simp [admits, leave, hr]

/-- Nobody who is kept out is let in by others coming in. -/
theorem admits_enter (h : l.admits side = false) : (l.enter a).admits side = false := by
  cases a <;> cases side <;> simp_all [admits, enter]

namespace Crowd

variable {w v : Crowd} {e : Event} {es : List Event} {who : String × Side} {actor : String} {r : Room}
  {line : List (String × Side)}

/-- How many of those on a list are on one side. -/
def tally (side : Side) (line : List (String × Side)) : Nat :=
  line.countP (·.2 = side)

theorem tally_pos (h : who ∈ line) : 0 < tally who.2 line :=
  List.countP_pos_iff.2 ⟨who, h, decide_eq_true rfl⟩

theorem exists_of_tally (h : tally side line ≠ 0) : ∃ actor, (actor, side) ∈ line := by
  obtain ⟨⟨actor, b⟩, hmem, hb⟩ := List.countP_pos_iff.1 (Nat.pos_of_ne_zero h)
  obtain rfl : b = side := of_decide_eq_true hb
  exact ⟨actor, hmem⟩

theorem tally_concat (side : Side) (line : List (String × Side)) (who : String × Side) :
    tally side (line ++ [who]) = tally side line + (decide (who.2 = side)).toNat := by
  rw [tally, tally, List.countP_append]
  cases h : decide (who.2 = side) <;> simp [h]

theorem tally_erase (side : Side) (h : who ∈ line) :
    tally side (line.erase who) + (decide (who.2 = side)).toNat = tally side line := by
  have hpos : who.2 = side → 0 < tally side line := fun hs => hs ▸ tally_pos h
  rw [tally, List.countP_erase]
  by_cases hs : who.2 = side
  · have := hpos hs
    simp only [h, hs, decide_true, and_self, if_true, Bool.toNat_true]
    exact Nat.sub_add_cancel this
  · simp [hs, tally]

theorem tally_add (line : List (String × Side)) : tally .read line + tally .write line = line.length := by
  induction line with
  | nil => rfl
  | cons who line ih =>
    obtain ⟨actor, side⟩ := who
    cases side <;> simp_all [tally] <;> omega

/-- What a room is like that is entered by this lock alone. -/
structure Guarded (r : Room) : Prop where
  readers : r.lock.readers = tally .read r.inside
  writer : r.lock.writer.toNat = tally .write r.inside
  apart : r.lock.writer = true → r.lock.readers = 0
  kept : ∀ who ∈ r.waiting, r.lock.admits who.2 = false

theorem guarded_empty : Guarded .empty :=
  ⟨rfl, rfl, nofun, nofun⟩

namespace Guarded

theorem letIn (h : Guarded r) (ha : r.lock.admits who.2 = true) : Guarded (r.letIn who) := by
  have hr := h.readers
  have hw := h.writer
  obtain ⟨actor, side⟩ := who
  have hkept : ∀ other ∈ r.waiting, (r.lock.enter side).admits other.2 = false :=
    fun other hm => admits_enter (h.kept other hm)
  cases side with
  | read =>
    have hf : r.lock.writer = false := by simpa [admits] using ha
    refine ⟨?_, ?_, fun hg => absurd (hf.symm.trans hg) nofun, hkept⟩
    · simp only [Room.letIn, enter, tally_concat, hr]
      rfl
    · simp only [Room.letIn, enter, tally_concat, hw]
      rfl
  | write =>
    obtain ⟨hf, hz⟩ : r.lock.writer = false ∧ r.lock.readers = 0 := by simpa [admits] using ha
    rw [hf] at hw
    refine ⟨?_, ?_, fun _ => hz, hkept⟩
    · simp only [Room.letIn, enter, tally_concat, hr]
      rfl
    · simp only [Room.letIn, enter, tally_concat, ← hw]
      rfl

theorem wait (h : Guarded r) (ha : r.lock.admits who.2 = false) : Guarded (r.wait who) where
  readers := h.readers
  writer := h.writer
  apart := h.apart
  kept other hm := by
    obtain hm | hm := List.mem_append.1 hm
    · exact h.kept other hm
    · rw [List.mem_singleton.1 hm]
      exact ha

theorem request (h : Guarded r) (actor : String) (side : Side) : Guarded (r.request actor side) := by
  unfold Room.request
  split
  · rename_i ha
    exact h.letIn ha
  · rename_i ha
    exact h.wait (Bool.eq_false_iff.2 ha)

/-- While somebody reads nobody writes. -/
theorem writer_of_reader (h : Guarded r) (hm : (actor, .read) ∈ r.inside) : r.lock.writer = false ∧ 0 < r.lock.readers := by
  have hpos : 0 < r.lock.readers := h.readers ▸ tally_pos hm
  refine ⟨Bool.eq_false_iff.2 fun hw => ?_, hpos⟩
  exact absurd (h.apart hw) (Nat.ne_of_gt hpos)

theorem writer_of_writer (h : Guarded r) (hm : (actor, .write) ∈ r.inside) : r.lock.writer = true := by
  have hpos : 0 < tally .write r.inside := tally_pos hm
  rw [← h.writer] at hpos
  cases hw : r.lock.writer with
  | true => rfl
  | false =>
    rw [hw] at hpos
    cases hpos

/-- The lock of those who stay is right, whoever of them waits. -/
theorem without (h : Guarded r) (hm : who ∈ r.inside) (hk : ∀ other ∈ line, (r.lock.leave who.2).1.admits other.2 = false) :
    Guarded { Crowd.without r who with waiting := line } := by
  have hr := tally_erase .read hm
  have hw := tally_erase .write hm
  rw [← h.readers] at hr
  rw [← h.writer] at hw
  obtain ⟨actor, side⟩ := who
  cases side with
  | read =>
    obtain ⟨hf, hpos⟩ := h.writer_of_reader hm
    exact ⟨Nat.sub_eq_of_eq_add hr.symm, hw.symm, fun hg => absurd (hf.symm.trans hg) nofun, hk⟩
  | write =>
    have hf := h.writer_of_writer hm
    rw [hf] at hw
    exact ⟨hr.symm, (Nat.succ.inj hw).symm, nofun, hk⟩

theorem leave (h : Guarded w.room) (hm : who ∈ w.room.inside) : Guarded (w.leave who).room := by
  unfold Crowd.leave
  split
  · exact h.without hm nofun
  · rename_i ht
    exact h.without hm fun other ho => admits_leave (Bool.eq_false_iff.2 ht) (h.kept other ho)

theorem step (h : Guarded w.room) (hs : Step w e v) : Guarded v.room := by
  cases hs with
  | request => exact h.request _ _
  | retry _ => exact h.request _ _
  | leave hm => exact h.leave hm

theorem run (h : Runs Step start es w) : Guarded w.room := by
  induction h with
  | none => exact guarded_empty
  | more _ hs ih => exact ih.step hs

/-- A writer is alone. -/
theorem alone (h : Guarded r) (hm : (actor, .write) ∈ r.inside) : r.inside = [(actor, .write)] := by
  have hf := h.writer_of_writer hm
  have hr := h.readers
  have hw := h.writer
  rw [h.apart hf] at hr
  rw [hf] at hw
  -- One writer and no reader: there is nobody else.
  have hlength : r.inside.length = 1 := by rw [← tally_add, ← hr, ← hw, Bool.toNat_true]
  obtain ⟨only, hinside⟩ := List.length_eq_one_iff.1 hlength
  rw [hinside] at hm ⊢
  rw [List.mem_singleton.1 hm]

/-- Whoever waits is kept out by somebody. -/
theorem conflict (h : Guarded r) (hm : who ∈ r.waiting) : ∃ other ∈ r.inside, who.2.Conflicts other.2 := by
  have hk := h.kept who hm
  cases hf : r.lock.writer with
  | true =>
    have hw : tally .write r.inside ≠ 0 := by
      rw [← h.writer, hf]
      exact Nat.one_ne_zero
    obtain ⟨actor, hin⟩ := exists_of_tally hw
    exact ⟨_, hin, .inr rfl⟩
  | false =>
    obtain ⟨name, side⟩ := who
    cases side with
    | read => simp [admits, hf] at hk
    | write =>
      have hr : tally .read r.inside ≠ 0 := by
        rw [← h.readers]
        simpa [admits, hf] using hk
      obtain ⟨actor, hin⟩ := exists_of_tally hr
      exact ⟨_, hin, .inl rfl⟩

/-- The counter goes down by one with each reader who leaves, as a whole number does. -/
theorem readers_leave (h : Guarded w.room) {broken : Bool} (hs : Step w (.leave (actor, .read) broken) v) :
    (v.room.lock.readers : Int) = w.room.lock.readers - 1 := by
  cases hs with
  | leave hm =>
    have hpos := (h.writer_of_reader hm).2
    have hv : (w.leave (actor, .read)).room.lock.readers = w.room.lock.readers - 1 := by
      unfold Crowd.leave
      split <;> rfl
    rw [hv]
    omega

end Guarded

/-- Trying again one after another, those of a line do what they do in a room. -/
theorem runs_retry (r : Room) (line : List (String × Side)) :
    Runs Step ⟨r, line⟩ (line.map .retry) ⟨r.retry line, []⟩ := by
  induction line generalizing r with
  | nil => exact .none
  | cons who line ih =>
    have hstep : Step ⟨r, who :: line⟩ (.retry who) ⟨r.request who.1 who.2, line⟩ := by
      have hs : Step ⟨r, who :: line⟩ (.retry who) _ := .retry List.mem_cons_self
      rwa [List.erase_cons_head] at hs
    exact (Runs.one hstep).trans (ih _)

/-- Whoever leaves a room leaves the crowd in it, and then those who were told try again. -/
theorem runs_release (h : r.inside.find? (·.1 = actor) = some who) (broken : Bool) :
    ∃ line : List (String × Side), Runs Step ⟨r, []⟩ (.leave who broken :: line.map .retry) ⟨(r.release actor).1, []⟩ := by
  have hs : Step ⟨r, []⟩ (.leave who broken) (leave ⟨r, []⟩ who) := .leave (List.mem_of_find?_eq_some h)
  cases ht : (r.lock.leave who.2).2 with
  | true =>
    have hv : leave ⟨r, []⟩ who = ⟨{ without r who with waiting := [] }, r.waiting⟩ := by simp [leave, ht]
    have hr : (r.release actor).1 = Room.retry { without r who with waiting := [] } r.waiting := by
      simp [Room.release, h, ht, Room.wake, without]
    rw [hv] at hs
    exact ⟨r.waiting, hr ▸ (Runs.one hs).trans (runs_retry _ _)⟩
  | false =>
    have hv : leave ⟨r, []⟩ who = ⟨without r who, []⟩ := by simp [leave, ht]
    have hr : (r.release actor).1 = without r who := by simp [Room.release, h, ht, without]
    rw [hv] at hs
    exact ⟨[], hr ▸ Runs.one hs⟩

/-- In whatever order threads come, try again and leave, a writer who is inside is alone, the counter is the number of
readers inside and goes down with them as a whole number does, the flag is set just while one writer is inside, and
whoever waits and was not told to try again is kept out by somebody inside. -/
theorem excludes_and_wakes (h : Runs Step start es w) :
    (∀ actor, (actor, Side.write) ∈ w.room.inside → w.room.inside = [(actor, .write)]) ∧
      w.room.lock.readers = tally .read w.room.inside ∧
      (∀ actor broken v, Step w (.leave (actor, .read) broken) v →
        (v.room.lock.readers : Int) = w.room.lock.readers - 1) ∧
      (w.room.lock.writer = true ↔ tally .write w.room.inside = 1) ∧
      ∀ who ∈ w.room.waiting, ∃ other ∈ w.room.inside, who.2.Conflicts other.2 := by
  have hg := Guarded.run h
  refine ⟨fun actor => hg.alone, hg.readers, fun actor broken v => hg.readers_leave, ?_, fun who => hg.conflict⟩
  rw [← hg.writer]
  cases w.room.lock.writer <;> simp

/-- The writer breaks off and those who wait are told: the reader enters, and the other writer waits again, for it. -/
theorem excludes_and_wakes_again :
    ∃ w, Runs Step start [.request ("a", .write), .request ("b", .read), .request ("c", .write), .leave ("a", .write) true,
        .retry ("b", .read), .retry ("c", .write)] w ∧
      w.room.waiting = [("c", .write)] ∧ w.told = [] ∧ w.room.lock.readers = 1 ∧ w.room.lock.writer = false ∧
      ∃ other ∈ w.room.inside, Side.write.Conflicts other.2 := by
  have hrun : Runs Step start [.request ("a", .write), .request ("b", .read), .request ("c", .write),
      .leave ("a", .write) true, .retry ("b", .read), .retry ("c", .write)] _ :=
    (((((Runs.one .request).more .request).more .request).more (.leave (by decide))).more (.retry (by decide))).more
      (.retry (by decide))
  obtain ⟨-, hreaders, -, -, hwaiting⟩ := excludes_and_wakes hrun
  exact ⟨_, hrun, by decide, by decide, hreaders, by decide, hwaiting ("c", .write) (by decide)⟩

end Crowd

end Hotload.ReadWriteLock
