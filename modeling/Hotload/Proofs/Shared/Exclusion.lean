import Hotload.Proofs.Shared.Steps

/-!
The lock of a shared session. It counts the threads that are on the reading side, its flag says that one thread or the
owner is on the writing side, and who is on the writing side is there alone.
-/
namespace Hotload

theorem Errand.side?_conclude (e : Errand) (a : Reply) (s : Session) : (e.conclude a s).1.side? = none := by
  unfold conclude
  split
  · split <;> rfl
  · rfl
  · rfl

theorem Demand.side?_thread (d : Demand) : d.thread.side? = none := by
  cases d <;> rfl

/-- The count of readers and the flag of a lock follow the sides that a thread enters and leaves. -/
theorem Thread.Step.lock {s s' : Session} {l l' : ReadWriteLock} {x y : Thread} {d : Deed}
    (h : Step s l x d y s' l') (hr : x.isOn .read = true → 0 < l.readers) (hw : x.isOn .write = true → l.writer = true)
    (ha : l.writer = true → l.readers = 0) :
    l'.readers + (x.isOn .read).toNat = l.readers + (y.isOn .read).toNat ∧
      l'.writer.toNat + (x.isOn .write).toNat = l.writer.toNat + (y.isOn .write).toNat ∧
      (l'.writer = true → l'.readers = 0) := by
  cases h with
  | enterWrite hadm =>
    obtain ⟨hf, hz⟩ : l.writer = false ∧ l.readers = 0 := by simpa [ReadWriteLock.admits] using hadm
    exact ⟨rfl, by rw [hf]; rfl, fun _ => hz⟩
  | leaveWrite =>
    have hf : l.writer = true := hw rfl
    exact ⟨rfl, by rw [hf]; rfl, nofun⟩
  | enterRead hadm =>
    have hf : l.writer = false := by simpa [ReadWriteLock.admits] using hadm
    exact ⟨rfl, rfl, fun hg => absurd (hg.symm.trans hf) nofun⟩
  | @leaveRead e a =>
    have hpos : 0 < l.readers := hr rfl
    have hf : l.writer = false := by
      cases hg : l.writer with
      | false => rfl
      | true => exact absurd (ha hg) (Nat.ne_of_gt hpos)
    have hy : ∀ side, (e.conclude a s).1.isOn side = false := fun side => by
      simp [Thread.isOn, e.side?_conclude a s]
    refine ⟨?_, ?_, fun hg => absurd (hg.symm.trans hf) nofun⟩
    · rw [hy]
      exact Nat.sub_add_cancel hpos
    · rw [hy]
      rfl
  | load | fail | install | decline | drop | look | answer => exact ⟨rfl, rfl, ha⟩

namespace Shared

structure Guarded (w : Shared) : Prop where
  readers : w.lock.readers = w.threads.countP (·.isOn .read)
  writer : w.lock.writer.toNat = w.threads.countP (·.isOn .write) + w.closing.isInside.toNat
  apart : w.lock.writer = true → w.lock.readers = 0

theorem guarded_start (s : Session) : (start s).Guarded := ⟨rfl, rfl, nofun⟩

variable {w v : Shared} {e : Event} {es : List Event}

namespace Guarded

theorem readers_pos (h : w.Guarded) {x : Thread} (hx : x ∈ w.threads) (hr : x.isOn .read = true) :
    0 < w.lock.readers := by
  rw [h.readers]
  exact List.countP_pos_iff.2 ⟨x, hx, hr⟩

theorem writer_of_mem (h : w.Guarded) {x : Thread} (hx : x ∈ w.threads) (hw : x.isOn .write = true) :
    w.lock.writer = true := by
  have hpos : 0 < w.threads.countP (·.isOn .write) := List.countP_pos_iff.2 ⟨x, hx, hw⟩
  have := h.writer
  cases hf : w.lock.writer with
  | true => rfl
  | false =>
    rw [hf, Bool.toNat_false] at this
    omega

/-- While somebody reads, nobody is on the writing side. -/
theorem no_writer (h : w.Guarded) {x : Thread} (hx : x ∈ w.threads) (hr : x.isOn .read = true) :
    w.lock.writer = false ∧ w.closing.isInside = false ∧ ∀ y ∈ w.threads, y.isOn .write = false := by
  have hpos := h.readers_pos hx hr
  have hf : w.lock.writer = false := by
    cases hg : w.lock.writer with
    | false => rfl
    | true => exact absurd (h.apart hg) (Nat.ne_of_gt hpos)
  have hw := h.writer
  rw [hf, Bool.toNat_false] at hw
  refine ⟨hf, ?_, fun y hy => ?_⟩
  · cases hi : w.closing.isInside with
    | false => rfl
    | true =>
      rw [hi, Bool.toNat_true] at hw
      omega
  · cases hy' : y.isOn .write with
    | false => rfl
    | true =>
      have : 0 < w.threads.countP (·.isOn .write) := List.countP_pos_iff.2 ⟨y, hy, hy'⟩
      omega

theorem step (h : w.Guarded) (hs : Step w e v) : v.Guarded := by
  cases hs with
  | demand d =>
    have hd : ∀ side, d.thread.isOn side = false := fun side => by simp [Thread.isOn, d.side?_thread]
    exact ⟨by simpa [hd] using h.readers, by simpa [hd] using h.writer, h.apart⟩
  | elsewhere => exact ⟨h.readers, h.writer, h.apart⟩
  | @act t x y d s l hx hs =>
    have hm : x ∈ w.threads := List.mem_of_getElem? hx
    obtain ⟨hr, hw, ha⟩ := hs.lock (h.readers_pos hm) (h.writer_of_mem hm) h.apart
    have hcr := countP_set_add (·.isOn .read) hx y
    have hcw := countP_set_add (·.isOn .write) hx y
    have h₁ := h.readers
    have h₂ := h.writer
    exact ⟨by simp only [move]; omega, by simp only [move]; omega, ha⟩
  | @owner d c s l hs =>
    have h₁ := h.readers
    have h₂ := h.writer
    generalize hc : w.closing = c₀ at hs h₂
    cases hs with
    | enter hadm =>
      obtain ⟨hf, hz⟩ : w.lock.writer = false ∧ w.lock.readers = 0 := by simpa [ReadWriteLock.admits] using hadm
      refine ⟨h₁, ?_, fun _ => hz⟩
      simp only [hf, ReadWriteLock.enter, Closing.isInside, Bool.toNat_true, Bool.toNat_false] at h₂ ⊢
      omega
    | leave =>
      have hb : w.lock.writer.toNat ≤ 1 := Bool.toNat_le _
      refine ⟨h₁, ?_, nofun⟩
      simp only [ReadWriteLock.leave, Closing.isInside, Bool.toNat_true, Bool.toNat_false] at h₂ ⊢
      omega
    | mark | again | silence | fail | close => exact ⟨h₁, h₂, h.apart⟩

end Guarded

theorem Run.guarded (h : Run w es v) (hw : w.Guarded) : v.Guarded := by
  induction h with
  | none => exact hw
  | more _ hs ih => exact ih.step hs

end Shared

end Hotload
