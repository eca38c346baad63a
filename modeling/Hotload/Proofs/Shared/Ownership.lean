import Hotload.Proofs.Shared.Exclusion

/-!
Who has to close which library. Each one that was loaded is in the hands of the handle, of one reload or of nobody, and
the last means that it was closed. Reloads pass libraries on and never share them, so whatever the order of the steps
no library is closed twice and none is forgotten.
-/
namespace Hotload

theorem Errand.library?_conclude (e : Errand) (a : Reply) (s : Session) : (e.conclude a s).1.library? = none := by
  unfold conclude
  split
  · split <;> rfl
  · rfl
  · rfl

theorem Demand.library?_thread (d : Demand) : d.thread.library? = none := by
  cases d <;> rfl

/-- What a step of a thread does with libraries: it takes a fresh one, exchanges it, closes what it has, or none of it. -/
inductive Thread.Handover (s : Session) (x y : Thread) (s' : Session) : Prop where
  | nothing : y.library? = x.library? → s'.handle.active = s.handle.active →
      s'.host.shelf.size = s.host.shelf.size → (∀ id, s'.host.shelf.closes id = s.host.shelf.closes id) →
      Handover s x y s'
  | taken : x.library? = none → y.library? = some s.host.shelf.size → s'.handle.active = s.handle.active →
      s'.host.shelf.size = s.host.shelf.size + 1 →
      (∀ id, s'.host.shelf.closes id = s.host.shelf.closes id) → Handover s x y s'
  | exchanged {fresh : LibraryId} : x.library? = some fresh → y.library? = some s.handle.active →
      s.handle.closed = false → s'.handle.active = fresh → s'.host.shelf = s.host.shelf → Handover s x y s'
  | closed {id : LibraryId} : x.library? = some id → y.library? = none → s'.handle.active = s.handle.active →
      s'.host.shelf = s.host.shelf.close id → Handover s x y s'

theorem Thread.Step.handover {s s' : Session} {l l' : ReadWriteLock} {x y : Thread} {d : Deed}
    (h : Step s l x d y s' l') : Handover s x y s' := by
  cases h with
  | @load fresh _ h =>
    obtain ⟨hh, ha⟩ := Session.load_spec h
    obtain ⟨hid, hsize⟩ := ha.size_eq
    exact .taken rfl (congrArg some hid) (congrArg Handle.active hh) hsize ha.closes_eq
  | fail h =>
    obtain ⟨hh, ha⟩ := Session.load_spec h
    exact .nothing rfl (by simp [hh]) (by simpa using Shelf.size_congr ha) (by simpa using Shelf.closes_congr ha)
  | install hc =>
    rw [Session.swap_of_open _ hc]
    exact .exchanged rfl rfl hc rfl rfl
  | decline hc =>
    rw [Session.swap_of_closed _ hc]
    exact .nothing rfl rfl rfl fun _ => rfl
  | drop => exact .closed rfl rfl (by simp) (by simp)
  | @answer e id => exact .nothing rfl (by simp) (by simp) (by simp)
  | @leaveRead e a =>
    exact .nothing (e.library?_conclude a s) (by simp) (by simp) (by simp)
  | enterWrite | leaveWrite | enterRead | look => exact .nothing rfl rfl rfl fun _ => rfl

/-- Whether the owner is through with the active library, on a handle that is marked or not. -/
def Closing.isOver (marked : Bool) : Closing → Bool
  | .released => true
  | .resting => marked
  | .marked | .broken | .silenced | .inside => false

namespace Closing.Step

variable {s s' : Session} {l l' : ReadWriteLock} {c c' : Closing} {d : Deed}

theorem marked (h : Step s l c d c' s' l') (hm : c ≠ .resting → s.handle.closed = true) (hc : c' ≠ .resting) :
    s'.handle.closed = true := by
  cases h with
  | mark => rfl
  | again _ ho => exact ho
  | silence h =>
    obtain ⟨lingering, rfl⟩ := Session.silence_ok h
    exact hm (by decide)
  | fail | enter | close => exact hm (by decide)
  | leave => exact absurd rfl hc

theorem isOver_eq (h : Step s l c d c' s' l') (hm : c ≠ .resting → s.handle.closed = true)
    (hd : ∀ id, d ≠ .close id) : c'.isOver s'.handle.closed = c.isOver s.handle.closed := by
  cases h with
  | mark ho => exact ho.symm
  | close => exact absurd rfl (hd _)
  | leave => exact hm (by decide)
  | again | silence | fail | enter => rfl

end Closing.Step

namespace Shared

/-- Whether the owner has closed the active library. -/
def released (w : Shared) : Bool :=
  w.closing.isOver w.closed

/-- How many have a library on their hands: the handle until it is released, reloads, and each time that it was closed. -/
def holds (w : Shared) (id : LibraryId) : Nat :=
  (w.active = id && !w.released).toNat + w.threads.countP (·.has id) + w.shelf.closes id

/-- Each library from a first one on is held once. -/
structure Owned (first : Nat) (w : Shared) : Prop where
  first_le : first ≤ w.active
  active_lt : w.active < w.shelf.size
  held : ∀ x ∈ w.threads, ∀ id : Nat, x.library? = some id → first ≤ id ∧ id < w.shelf.size
  once : ∀ id : Nat, first ≤ id → id < w.shelf.size → w.holds id = 1
  marked : w.closing ≠ .resting → w.closed = true

variable {w v : Shared} {e : Event} {es : List Event} {first : Nat}

theorem owned_start {s : Session} (h : s.Fresh) : Owned s.handle.active (start s) where
  first_le := Nat.le_refl _
  active_lt := Nat.lt_of_lt_of_eq (Nat.lt_succ_self _) h.size.symm
  held := nofun
  once id hf hs := by
    obtain rfl : id = s.handle.active := Nat.le_antisymm (Nat.le_of_lt_succ (Nat.lt_of_lt_of_eq hs h.size)) hf
    simp [holds, active, shelf, released, closed, Closing.isOver, start, h.closed, h.closes]
  marked h := absurd rfl h

variable {t : Nat} {x y : Thread} {s : Session} {l : ReadWriteLock}

/-- What a thread has on its hands before and after a step makes up for the difference elsewhere. -/
theorem holds_move (hx : w.threads[t]? = some x) (hc : s.handle.closed = w.closed) (id : Nat) :
    (w.move t y s l).holds id + (w.active = id && !w.released).toNat + (x.has id).toNat + w.shelf.closes id =
      w.holds id + (s.handle.active = id && !w.released).toNat + (y.has id).toNat + s.host.shelf.closes id := by
  have hr : (w.move t y s l).released = w.released := by simp only [released, closed, move, hc]
  have hcount := countP_set_add (·.has id) hx y
  have hh : (w.move t y s l).holds id = (s.handle.active = id && !w.released).toNat +
      (w.threads.set t y).countP (·.has id) + s.host.shelf.closes id := by
    rw [holds, hr]
    rfl
  rw [hh, holds]
  omega

namespace Owned

theorem released_of_open (h : Owned first w) (hc : w.closed = false) : w.released = false := by
  unfold released
  cases hw : w.closing with
  | resting => exact hc
  | released => exact absurd ((h.marked (by simp [hw])).symm.trans hc) nofun
  | marked | broken | silenced | inside => rfl

/-- Nobody has a library that was not loaded yet. -/
theorem holds_eq_zero (h : Owned first w) {id : Nat} (hid : w.shelf.size ≤ id) : w.holds id = 0 := by
  have hact : w.active ≠ id := Nat.ne_of_lt (Nat.lt_of_lt_of_le h.active_lt hid)
  have hcount : w.threads.countP (·.has id) = 0 := by
    rw [List.countP_eq_zero]
    intro x hx hh
    have := (h.held x hx id (of_decide_eq_true hh)).2
    omega
  simp [holds, hact, hcount, Shelf.closes_of_size_le hid]

/-- The active library is open until it is released. -/
theorem active_open (h : Owned first w) (hr : w.released = false) : w.shelf.closes w.active = 0 := by
  have hone := h.once w.active h.first_le h.active_lt
  simp only [holds, hr, decide_true, Bool.not_false, Bool.and_true, Bool.toNat_true] at hone
  omega

/-- It is enough to look at the thread that goes on and at the count of each library. -/
theorem move_of (h : Owned first w) (hc : s.handle.closed = w.closed)
    (ha : first ≤ s.handle.active ∧ s.handle.active < s.host.shelf.size) (hs : w.shelf.size ≤ s.host.shelf.size)
    (hy : ∀ id : Nat, y.library? = some id → first ≤ id ∧ id < s.host.shelf.size)
    (ho : ∀ id : Nat, first ≤ id → id < s.host.shelf.size → (w.move t y s l).holds id = 1) :
    Owned first (w.move t y s l) where
  first_le := ha.1
  active_lt := ha.2
  held z hz id hid := by
    cases List.mem_or_eq_of_mem_set hz with
    | inl hz =>
      obtain ⟨hf, hlt⟩ := h.held z hz id hid
      exact ⟨hf, Nat.lt_of_lt_of_le hlt hs⟩
    | inr hz =>
      rw [hz] at hid
      exact hy id hid
  once := ho
  marked hr := hc.trans (h.marked hr)

/-- A thread keeps what it has. -/
theorem move_nothing (h : Owned first w) (hx : w.threads[t]? = some x) (hc : s.handle.closed = w.closed)
    (hl : y.library? = x.library?) (ha : s.handle.active = w.active) (hs : s.host.shelf.size = w.shelf.size)
    (hcl : ∀ id, s.host.shelf.closes id = w.shelf.closes id) : Owned first (w.move t y s l) := by
  refine h.move_of hc ?_ (Nat.le_of_eq hs.symm) ?_ ?_
  · rw [ha, hs]
    exact ⟨h.first_le, h.active_lt⟩
  · intro id hid
    rw [hs]
    exact h.held x (List.mem_of_getElem? hx) id (hl ▸ hid)
  · intro id hf hlt
    have hxy : y.has id = x.has id := by simp only [Thread.has, hl]
    have hnew := holds_move (y := y) (l := l) hx hc id
    rw [h.once id hf (hs ▸ hlt), hxy, ha, hcl] at hnew
    omega

/-- A thread takes a fresh library, which nobody else has. -/
theorem move_taken (h : Owned first w) (hx : w.threads[t]? = some x) (hc : s.handle.closed = w.closed)
    (hl : x.library? = none) (hl' : y.library? = some w.shelf.size) (ha : s.handle.active = w.active)
    (hs : s.host.shelf.size = w.shelf.size + 1) (hcl : ∀ id, s.host.shelf.closes id = w.shelf.closes id) :
    Owned first (w.move t y s l) := by
  refine h.move_of hc ?_ (hs ▸ Nat.le_succ _) ?_ ?_
  · rw [ha, hs]
    exact ⟨h.first_le, Nat.lt_succ_of_lt h.active_lt⟩
  · intro id hid
    obtain rfl : w.shelf.size = id := Option.some.inj (hl'.symm.trans hid)
    exact ⟨Nat.le_of_lt (Nat.lt_of_le_of_lt h.first_le h.active_lt), hs ▸ Nat.lt_succ_self _⟩
  · intro id hf hlt
    have hnone : x.has id = false := by simp [Thread.has, hl]
    have hnew := holds_move (y := y) (l := l) hx hc id
    rw [hnone, ha, hcl, Bool.toNat_false] at hnew
    cases Nat.lt_succ_iff_lt_or_eq.1 (hs ▸ hlt) with
    | inl hlt =>
      have hy : y.has id = false := by simp [Thread.has, hl', Nat.ne_of_gt hlt]
      rw [hy, h.once id hf hlt, Bool.toNat_false] at hnew
      omega
    | inr heq =>
      have hy : y.has id = true := by simp [Thread.has, hl', heq]
      rw [hy, h.holds_eq_zero (Nat.le_of_eq heq.symm), Bool.toNat_true] at hnew
      omega

/-- A thread gives its library to the handle and gets the active one for it. -/
theorem move_exchanged (h : Owned first w) (hx : w.threads[t]? = some x) (hc : s.handle.closed = w.closed)
    {fresh : LibraryId} (hl : x.library? = some fresh) (hl' : y.library? = some w.active) (ho : w.closed = false)
    (ha : s.handle.active = fresh) (hs : s.host.shelf = w.shelf) : Owned first (w.move t y s l) := by
  have hfresh := h.held x (List.mem_of_getElem? hx) fresh hl
  refine h.move_of hc ?_ (Nat.le_of_eq (congrArg Shelf.size hs.symm)) ?_ ?_
  · rw [ha, hs]
    exact hfresh
  · intro id hid
    obtain rfl : w.active = id := Option.some.inj (hl'.symm.trans hid)
    exact ⟨h.first_le, hs ▸ h.active_lt⟩
  · intro id hf hlt
    have hnew := holds_move (y := y) (l := l) hx hc id
    have hx : x.has id = decide (fresh = id) := by simp [Thread.has, hl]
    have hy : y.has id = decide (w.active = id) := by simp [Thread.has, hl']
    rw [hx, hy, ha, hs, h.once id hf (hs ▸ hlt), h.released_of_open ho] at hnew
    simp only [Bool.not_false, Bool.and_true] at hnew
    omega

/-- A thread closes what it has. -/
theorem move_closed (h : Owned first w) (hx : w.threads[t]? = some x) (hc : s.handle.closed = w.closed)
    {own : LibraryId} (hl : x.library? = some own) (hl' : y.library? = none) (ha : s.handle.active = w.active)
    (hs : s.host.shelf = w.shelf.close own) : Owned first (w.move t y s l) := by
  have hown := h.held x (List.mem_of_getElem? hx) own hl
  have hsize : s.host.shelf.size = w.shelf.size := by rw [hs, Shelf.size_close]
  refine h.move_of hc ?_ (Nat.le_of_eq hsize.symm) ?_ ?_
  · rw [ha, hsize]
    exact ⟨h.first_le, h.active_lt⟩
  · intro id hid
    rw [hl'] at hid
    cases hid
  · intro id hf hlt
    have hnew := holds_move (y := y) (l := l) hx hc id
    have hx : (x.has id).toNat = if own = id then 1 else 0 := by
      by_cases hid : own = id <;> simp [Thread.has, hl, hid]
    have hy : y.has id = false := by simp [Thread.has, hl']
    rw [hx, hy, ha, hs, Shelf.closes_close hown.2, h.once id hf (hsize ▸ hlt), Bool.toNat_false] at hnew
    omega

theorem move (h : Owned first w) (hx : w.threads[t]? = some x) (hc : s.handle.closed = w.closed)
    (hs : Thread.Handover w.session x y s) : Owned first (w.move t y s l) := by
  cases hs with
  | nothing hl ha hs hcl => exact h.move_nothing hx hc hl ha hs hcl
  | taken hl hl' ha hs hcl => exact h.move_taken hx hc hl hl' ha hs hcl
  | exchanged hl hl' ho ha hs => exact h.move_exchanged hx hc hl hl' ho ha hs
  | closed hl hl' ha hs => exact h.move_closed hx hc hl hl' ha hs

theorem congr (h : Owned first w) (ha : v.active = w.active) (hr : v.released = w.released)
    (ht : v.threads = w.threads) (hs : v.shelf = w.shelf) (hm : v.closing ≠ .resting → v.closed = true) :
    Owned first v where
  first_le := ha ▸ h.first_le
  active_lt := ha ▸ hs ▸ h.active_lt
  held := ht ▸ hs ▸ h.held
  once id hf hlt := by
    simp only [holds, ha, hr, ht, hs]
    exact h.once id hf (hs ▸ hlt)
  marked := hm

/-- The owner closes the active library in place of the handle that held it. -/
theorem close (h : Owned first w) (ha : v.active = w.active) (hr : w.released = false) (hr' : v.released = true)
    (ht : v.threads = w.threads) (hs : v.shelf = w.shelf.close w.active) (hm : v.closed = true) : Owned first v := by
  have hsize : v.shelf.size = w.shelf.size := by rw [hs, Shelf.size_close]
  refine ⟨ha ▸ h.first_le, ha ▸ hsize ▸ h.active_lt, ?_, ?_, fun _ => hm⟩
  · rw [ht, hsize]
    exact h.held
  · intro id hf hlt
    have hold := h.once id hf (hsize ▸ hlt)
    rw [holds, hr] at hold
    rw [holds, hr', ht, hs, Shelf.closes_close h.active_lt]
    by_cases hid : w.active = id
    · simp only [hid, decide_true, Bool.not_false, Bool.and_true, Bool.toNat_true] at hold
      simp only [hid, Bool.not_true, Bool.and_false, Bool.toNat_false, if_true]
      omega
    · simp only [hid, decide_false, Bool.false_and, Bool.toNat_false] at hold
      simp only [hid, Bool.not_true, Bool.and_false, Bool.toNat_false, if_false]
      omega

theorem step (h : Owned first w) (hs : Step w e v) : Owned first v := by
  cases hs with
  | demand d =>
    have hcount (id : Nat) : (w.threads ++ [d.thread]).countP (·.has id) = w.threads.countP (·.has id) := by
      simp [Thread.has, d.library?_thread]
    refine ⟨h.first_le, h.active_lt, ?_, ?_, h.marked⟩
    · intro x hx id hid
      cases List.mem_append.1 hx with
      | inl hx => exact h.held x hx id hid
      | inr hx =>
        rw [List.mem_singleton.1 hx, d.library?_thread] at hid
        cases hid
    · intro id hf hlt
      rw [← h.once id hf hlt]
      simp only [holds, hcount]
      rfl
  | act hx hs => exact h.move hx hs.closed_eq hs.handover
  | elsewhere ha =>
    refine h.congr ha.active ?_ rfl ha.shelf fun hr => ha.closed.trans (h.marked hr)
    simp only [released, closed, ha.closed]
  | @owner d c s l hs =>
    by_cases hd : ∃ id, d = .close id
    · obtain ⟨id, rfl⟩ := hd
      obtain ⟨hin, rfl, rfl, hh, hsh⟩ := hs.close_spec
      have hr : w.released = false := by rw [released, hin]; rfl
      exact h.close (congrArg Handle.active hh) hr rfl rfl hsh
        ((congrArg Handle.closed hh).trans (h.marked (by rw [hin]; decide)))
    · have hd : ∀ id, d ≠ .close id := fun id hid => hd ⟨id, hid⟩
      exact h.congr hs.hold_eq.1 (hs.isOver_eq h.marked hd) rfl (hs.shelf_eq hd) (hs.marked h.marked)

theorem released_eq (h : Owned first w) (hs : Step w e v) (he : ∀ id, e ≠ .owner (.close id)) :
    v.released = w.released := by
  cases hs with
  | demand => rfl
  | act hx hs => simp only [released, Shared.move, closed, hs.closed_eq]
  | elsewhere ha => simp only [released, closed, ha.closed]
  | owner hs => exact hs.isOver_eq h.marked fun id hd => he id (congrArg Event.owner hd)

/-- The active library is released by closing it, and from then on it stays so. -/
theorem released_step (h : Owned first w) (hs : Step w e v) :
    v.released = true ↔ w.released = true ∨ ∃ id, e = .owner (.close id) := by
  by_cases he : ∃ id, e = .owner (.close id)
  · obtain ⟨id, rfl⟩ := he
    cases hs with
    | owner hs =>
      obtain ⟨-, rfl, -⟩ := hs.close_spec
      simp [released, Closing.isOver]
  · rw [h.released_eq hs fun id hid => he ⟨id, hid⟩]
    simp [he]

theorem closed_of_released (h : Owned first w) (hr : w.released = true) : w.closed = true := by
  by_cases hw : w.closing = .resting
  · rwa [released, hw] at hr
  · exact h.marked hw

/-- A library that was released stays the active one, and it stays closed. -/
theorem spent_step (h : Owned first w) (hs : Step w e v) (hw : w.released = true → 0 < w.shelf.closes w.active)
    (hr : v.released = true) : 0 < v.shelf.closes v.active := by
  cases (h.released_step hs).1 hr with
  | inl hr =>
    have he : e.installed? = none := by
      cases he : e.installed? with
      | none => rfl
      | some fresh => exact absurd ((h.closed_of_released hr).symm.trans (hs.hold_install he).1) nofun
    rw [(hs.hold_eq he).1]
    exact Nat.lt_of_lt_of_le (hw hr) (hs.keeps.closes_le _)
  | inr hc =>
    obtain ⟨id, rfl⟩ := hc
    cases hs with
    | owner hs =>
      obtain ⟨-, -, rfl, hh, hsh⟩ := hs.close_spec
      have hcl := Shelf.closes_close h.active_lt w.active
      rw [if_pos rfl] at hcl
      rw [active, shelf, hh, hsh]
      exact hcl ▸ Nat.succ_pos _

end Owned

/-- Whatever happens, each library stays in one pair of hands until it is closed. -/
theorem Run.owned (h : Run w es v) (hw : Owned first w) : Owned first v := by
  induction h with
  | none => exact hw
  | more _ hs ih => exact ih.step hs

theorem Run.spent (h : Run w es v) (hw : Owned first w) (ho : w.released = false) :
    v.released = true → 0 < v.shelf.closes v.active := by
  induction h with
  | none => exact fun hr => absurd (ho.symm.trans hr) nofun
  | more h hs ih => exact (Run.owned h hw).spent_step hs ih

theorem Run.released (h : Run w es v) (hw : Owned first w) :
    v.released = true ↔ w.released = true ∨ ∃ id, .owner (.close id) ∈ es := by
  induction h with
  | none => simp
  | more h hs ih =>
    rw [(Run.owned h hw).released_step hs, ih, or_assoc, ← exists_or]
    simp only [List.mem_append, List.mem_singleton, eq_comm]

end Shared

end Hotload
