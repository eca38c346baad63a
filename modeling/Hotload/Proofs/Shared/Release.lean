import Hotload.Proofs.Shared.Upkeep

/-!
What is left of a shared session when its owner has gone. If the watcher could be waited for, nothing is watched, no timer
is set, and each library was closed once or is on the hands of a reload that is still under way. If it could not, closing
was broken off and the active library stays open.
-/
namespace Hotload

namespace Shared

variable {s : Session} {w v : Shared} {e : Event} {es : List Event} {first id : Nat} {f : Failure}

/-- Nobody closes a library that was there before the first one. -/
theorem Owned.older_step (h : Owned first w) (hs : Step w e v) (hid : id < first) :
    v.shelf.closes id = w.shelf.closes id := by
  have other {k : Nat} (hk : first ≤ k ∧ k < w.shelf.size) : (w.shelf.close k).closes id = w.shelf.closes id := by
    rw [Shelf.closes_close hk.2, if_neg (Nat.ne_of_gt (Nat.lt_of_lt_of_le hid hk.1)), Nat.add_zero]
  cases hs with
  | demand => rfl
  | elsewhere ha => exact congrArg (Shelf.closes · id) ha.shelf
  | act hx hs =>
    cases hs.handover with
    | nothing _ _ _ hc | taken _ _ _ _ hc => exact hc id
    | exchanged _ _ _ _ hsh => exact congrArg (Shelf.closes · id) hsh
    | closed hk _ _ hsh => exact (congrArg (Shelf.closes · id) hsh).trans (other (h.held _ (List.mem_of_getElem? hx) _ hk))
  | @owner d c s l hs =>
    by_cases hd : ∃ k, d = .close k
    · obtain ⟨k, rfl⟩ := hd
      obtain ⟨-, -, rfl, -, hsh⟩ := hs.close_spec
      exact (congrArg (Shelf.closes · id) hsh).trans (other ⟨h.first_le, h.active_lt⟩)
    · exact congrArg (Shelf.closes · id) (hs.shelf_eq fun k hk => hd ⟨k, hk⟩)

theorem Run.older (h : Run w es v) (hw : Owned first w) (hid : id < first) : v.shelf.closes id = w.shelf.closes id := by
  induction h with
  | none => rfl
  | more h hs ih => exact ((Run.owned h hw).older_step hs hid).trans ih

/-- Closing that was broken off is not taken up again. -/
theorem Step.broken (hs : Step w e v) (hw : w.closing = .broken) : v.closing = .broken := by
  cases hs with
  | demand | act | elsewhere => exact hw
  | owner hs =>
    rw [hw] at hs
    cases hs
    rfl

theorem Run.broken (h : Run w es v) (hw : w.closing = .broken) : v.closing = .broken := by
  induction h with
  | none => exact hw
  | more _ hs ih => exact hs.broken ih

theorem Run.broken_of_fail (h : Run w es v) (hf : .owner (.fail f) ∈ es) : v.closing = .broken := by
  obtain ⟨es₁, es₂, u, u', rfl, -, hs, h₂⟩ := h.at_mem hf
  refine Run.broken h₂ ?_
  cases hs with
  | owner hs =>
    generalize u.closing = c at hs
    cases hs
    rfl

/-- The active library stays open if the watcher could not be waited for. -/
theorem Run.open_of_fail (h : Run (start s) es v) (hs : s.Fresh) (hf : .owner (.fail f) ∈ es) :
    v.shelf.closes v.active = 0 := by
  refine (h.owned (owned_start hs)).active_open ?_
  rw [Shared.released, h.broken_of_fail hf]
  rfl

/-- What is left once the owner has left the lock. -/
structure Left (s₀ : Shelf) (v : Shared) : Prop where
  watching : v.session.handle.watching = false
  pending : v.session.handle.debouncer.pending = false
  once : ∀ id, s₀.Since v.shelf id → v.shelf.closes id ≤ 1
  under_way : ∀ id, s₀.Since v.shelf id → (v.shelf.closes id = 0 ↔ ∃ x ∈ v.threads, x.library? = some id)
  older : ∀ id < s₀.size, v.shelf.closes id = s₀.closes id

/-- Unless a watcher is asked for once more, what is left are libraries on the hands of reloads. -/
theorem left_of_leave {s₀ : Shelf} {es : List Upkeep.Event} (hs : s.Fresh)
    (hadd : s₀.AddedTo (.ok s.handle.active) s.host.shelf) (h : Runs Upkeep.Step (start s) es v)
    (hl : .shared (.owner .leave) ∈ es) (hwatch : ∀ b, .watch b ∉ es) : Left s₀ v := by
  have hrun := Upkeep.seen_run h
  have howned := hrun.owned (owned_start hs)
  have hfirst : s.handle.active = s₀.size := hadd.size_eq.1
  obtain ⟨hsilenced, xs, ys, rfl, hwatching⟩ := Upkeep.silenced_of_leave h hs hl
  have hreleased : v.released = true :=
    hrun.released_of_leave hs ((Upkeep.mem_seen (a := .owner .leave) nofun nofun).2 hl)
  have hone (id : Nat) (hid : s₀.Since v.shelf id) : v.threads.countP (·.has id) + v.shelf.closes id = 1 := by
    have h := howned.once id (hfirst ▸ hid.1) hid.2
    rw [holds, hreleased] at h
    simpa using h
  refine ⟨?_, ?_, fun id hid => ?_, fun id hid => ?_, fun id hid => ?_⟩
  · rw [Bool.eq_false_iff]
    intro hw
    exact hwatch true (List.mem_append_right xs (List.mem_cons_of_mem _ (hwatching.1 hw)))
  · rw [Debouncer.pending, hsilenced.unset]
    rfl
  · have := hone id hid
    omega
  · rw [← Lies, ← countP_pos_iff_held]
    have := hone id hid
    omega
  · rw [hrun.older (owned_start hs) (hfirst ▸ hid)]
    exact hadd.closes_eq id

/-- A reload may be under way when the owner leaves. -/
theorem exists_under_way {g : GivenLoader} {x : Watcher} {ended : Bool} (hl : s.loader = .given g)
    (hg : g.failure = none) (ho : s.handle.closed = false) (hx : s.handle.working? = some x)
    (hj : s.host.platform.join x.patience = .ok ended) :
    ∃ es v, Runs Upkeep.Step (start s) es v ∧ .shared (.owner .leave) ∈ es ∧ (∀ b, .watch b ∉ es) ∧
      v.shelf.size = s.host.shelf.size + 1 ∧ ∃ x ∈ v.threads, x.library? = some s.host.shelf.size := by
  have hload := Session.load_given hl hg
  generalize hs₁ : Session.mk _ _ _ = s₁ at hload
  have hsilence : s₁.mark.silence = .ok { s₁.mark with handle := s₁.mark.handle.still !ended } := by
    rw [Session.silence_of_working (s := s₁.mark) (w := x) (by rw [← hs₁]; exact hx)]
    have hj₁ : s₁.mark.host.platform.join x.patience = .ok ended := by rw [← hs₁]; exact hj
    rw [hj₁]
    rfl
  have hclosed : s₁.handle.closed = false := by rw [← hs₁]; exact ho
  have hrun := (Run.demand .resting [] (d := .reload) (.cons (.load hload) .nil)).trans
    (run_close_open s₁ [.reload (.loaded s.host.shelf.size)] hclosed hsilence)
  refine ⟨_, _, Upkeep.of_run hrun (by simp), by simp, by simp, ?_, _, List.mem_singleton_self _, rfl⟩
  exact Run.size hrun

end Shared

end Hotload
