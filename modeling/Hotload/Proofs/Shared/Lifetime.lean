import Hotload.Proofs.Shared.Alone
import Hotload.Proofs.Shared.Ownership
import Hotload.Proofs.Shared.Paths
import Mathlib.Logic.ExistsUnique

/-!
The lifetime of a library. At any time it is the active one, on the hands of a reload or closed, and it is closed once. A
reload whose load fails and a reload that finds the handle closed change nothing, and when the handle was closed and all
reloads are over nothing is left open.
-/
namespace Hotload

/-- A reload that found the handle closed, on its way to tell so. -/
inductive Thread.Refused : Thread → Prop where
  | swapped (fresh : LibraryId) : Refused (.reload (.swapped fresh fresh))
  | outside (fresh : LibraryId) : Refused (.reload (.outside fresh fresh))
  | ended : Refused (.reload (.ended (.ok false)))

/-- It waits for nobody any more. -/
theorem Thread.Refused.finish {x : Thread} (h : x.Refused) (s : Session) (l : ReadWriteLock) :
    ∃ ds s' l', Steps s l x ds (.reload (.ended (.ok false))) s' l' := by
  have hdrop (fresh : LibraryId) (l : ReadWriteLock) : Step s l (.reload (.outside fresh fresh)) (.drop fresh)
      (.reload (.ended (.ok false))) (s.settle fresh fresh).2 l := by
    have hfalse : (s.settle fresh fresh).1 = false := by simp [Session.settle_eq]
    rw [← hfalse]
    exact .drop
  cases h with
  | swapped fresh => exact ⟨_, _, _, .cons .leaveWrite (.cons (hdrop fresh _) .nil)⟩
  | outside fresh => exact ⟨_, _, _, .cons (hdrop fresh _) .nil⟩
  | ended => exact ⟨_, _, _, .nil⟩

namespace Thread.Past

variable {y : Thread} {ds : List Deed}

theorem of_fail (h : y.Past ds) {f : Failure} (hf : .fail f ∈ ds) :
    y = .reload (.ended (if f.isOrdinary then .ok false else .error f)) ∧ ds = [.fail f] := by
  cases y with
  | visit | replied | invoked => exact absurd (h _ hf) nofun
  | reload r =>
    cases r with
    | begun | loaded | inside =>
      obtain rfl : ds = _ := h
      simp at hf
    | swapped | outside => obtain rfl | ⟨rfl, -⟩ := h <;> simp at hf
    | ended r =>
      obtain ⟨g, rfl, rfl⟩ | ⟨i, j, rfl, -⟩ | ⟨i, rfl, -⟩ := h
      · obtain rfl : f = g := by simpa using hf
        exact ⟨rfl, rfl⟩
      · simp at hf
      · simp at hf

theorem of_decline (h : y.Past ds) {i : LibraryId} (hi : .decline i ∈ ds) : y.Refused ∧ ∀ j, .install j ∉ ds := by
  cases y with
  | visit | replied | invoked => exact absurd (h _ hi) nofun
  | reload r =>
    cases r with
    | begun | loaded | inside =>
      obtain rfl : ds = _ := h
      simp at hi
    | swapped fresh dropped =>
      obtain rfl | ⟨rfl, rfl⟩ := h
      · simp at hi
      · exact ⟨.swapped dropped, by simp⟩
    | outside fresh dropped =>
      obtain rfl | ⟨rfl, rfl⟩ := h
      · simp at hi
      · exact ⟨.outside dropped, by simp⟩
    | ended r =>
      obtain ⟨g, rfl, -⟩ | ⟨j, k, rfl, -⟩ | ⟨j, rfl, rfl⟩ := h
      · simp at hi
      · simp at hi
      · exact ⟨.ended, by simp⟩

end Thread.Past

/-- The places where a library can be. -/
inductive Place where
  | active
  | held
  | closed

namespace Shared

/-- A library is the active one until the owner has closed that, a reload has it on its hands, or it was closed once. -/
def Lies (w : Shared) (id : LibraryId) : Place → Prop
  | .active => w.active = id ∧ w.released = false
  | .held => ∃ x ∈ w.threads, x.library? = some id
  | .closed => w.shelf.closes id = 1

variable {s : Session} {w v : Shared} {es : List Event} {first id : Nat}

theorem countP_pos_iff_held (w : Shared) (id : Nat) : 0 < w.threads.countP (·.has id) ↔ w.Lies id .held := by
  simp only [List.countP_pos_iff, Thread.has, decide_eq_true_eq, Lies]

namespace Owned

theorem closes_le (h : Owned first w) (hf : first ≤ id) (hlt : id < w.shelf.size) : w.shelf.closes id ≤ 1 := by
  have hone := h.once id hf hlt
  unfold holds at hone
  omega

/-- No library is in two places. -/
theorem place (h : Owned first w) (hf : first ≤ id) (hlt : id < w.shelf.size) : ∃! p, w.Lies id p := by
  have hone := h.once id hf hlt
  have hheld := countP_pos_iff_held w id
  have hactive : (w.active = id && !w.released) = true ↔ w.Lies id .active := by simp [Lies]
  unfold holds at hone
  by_cases hc : w.shelf.closes id = 1
  · refine ⟨.closed, hc, fun p hp => ?_⟩
    cases p with
    | closed => rfl
    | held =>
      have := hheld.2 hp
      omega
    | active =>
      rw [hactive.2 hp, Bool.toNat_true] at hone
      omega
  · by_cases hh : w.Lies id .held
    · refine ⟨.held, hh, fun p hp => ?_⟩
      have hpos := hheld.2 hh
      cases p with
      | closed => exact absurd hp hc
      | held => rfl
      | active =>
        rw [hactive.2 hp, Bool.toNat_true] at hone
        omega
    · have hz : ¬0 < w.threads.countP (·.has id) := fun hp => hh (hheld.1 hp)
      refine ⟨.active, hactive.1 ?_, fun p hp => ?_⟩
      · cases ha : (w.active = id && !w.released) with
        | true => rfl
        | false =>
          rw [ha, Bool.toNat_false] at hone
          have := h.closes_le hf hlt
          omega
      · cases p with
        | closed => exact absurd hp hc
        | held => exact absurd hp hh
        | active => rfl

/-- What nobody has any more was closed. -/
theorem closes_eq_one (h : Owned first w) (hr : w.released = true) (hq : w.Quiet) (hf : first ≤ id)
    (hlt : id < w.shelf.size) : w.shelf.closes id = 1 := by
  have hone := h.once id hf hlt
  have hheld : w.threads.countP (·.has id) = 0 := by
    refine List.countP_eq_zero.2 fun x hx hh => ?_
    have hid : x.library? = some id := of_decide_eq_true hh
    cases x with
    | visit | replied | invoked => cases hid
    | reload r =>
      obtain ⟨o, rfl⟩ := hq r hx
      cases hid
  simp only [holds, hr, hheld, Bool.not_true, Bool.and_false, Bool.toNat_false] at hone
  omega

end Owned

/-- A reload that had nothing to install: its load failed, or it found the handle closed. -/
def Futile (es : List Event) (t : Nat) : Prop :=
  (∃ f, .act t (.fail f) ∈ es) ∨ ∃ i, .act t (.decline i) ∈ es

theorem Run.not_install (h : Run (start s) es v) {t : Nat} (ht : Futile es t) (i : LibraryId) :
    .act t (.install i) ∉ es := by
  rw [← mem_deeds]
  obtain ⟨f, hf⟩ | ⟨j, hj⟩ := ht
  · obtain ⟨y, -, hp, hm⟩ := h.past_of_mem hf
    rw [(hp.of_fail hm).2]
    simp
  · obtain ⟨y, -, hp, hm⟩ := h.past_of_mem hj
    exact (hp.of_decline hm).2 i

/-- From here on a thread comes to an end by itself, whatever the others are at. -/
def Ends (v : Shared) (t : Nat) (y : Thread) : Prop :=
  ∃ (ds : List Deed) (v' : Shared), Run v (ds.map (.act t)) v' ∧ v'.threads[t]? = some y

/-- What can be said of the libraries at the end of a run. -/
structure Tended (s : Session) (es : List Event) (v : Shared) : Prop where
  place : ∀ id ∈ s.handle.active :: loads es, ∃! p, v.Lies id p
  once : ∀ id ∈ s.handle.active :: loads es, v.shelf.closes id ≤ 1
  active_open : (∀ id, .owner (.close id) ∉ es) → v.shelf.closes v.active = 0
  reloads : v.reloads = (installs es).length
  unchanged : ∀ t, Futile es t → ∀ es₁ d es₂ u u', es = es₁ ++ .act t d :: es₂ → Run (start s) es₁ u →
    Step u (.act t d) u' → u'.active = u.active ∧ u'.reloads = u.reloads
  failed : ∀ t f, .act t (.fail f) ∈ es →
    v.threads[t]? = some (.reload (.ended (if f.isOrdinary then .ok false else .error f)))
  declined : ∀ t i, .act t (.decline i) ∈ es → v.Ends t (.reload (.ended (.ok false))) ∧
    ∀ r, v.threads[t]? = some (.reload (.ended r)) → r = .ok false
  all_closed : .owner .leave ∈ es → v.Quiet → ∀ id ∈ s.handle.active :: loads es, v.shelf.closes id = 1

theorem Run.mem_loaded (h : Run (start s) es v) (hs : s.Fresh) :
    id ∈ s.handle.active :: loads es ↔ s.handle.active ≤ id ∧ id < v.shelf.size := by
  have hsize : (start s).shelf.size = s.handle.active + 1 := hs.size
  have hlt : (start s).shelf.size ≤ v.shelf.size := h.keeps.size_le
  rw [List.mem_cons, h.mem_loads, hsize]
  rw [hsize] at hlt
  constructor
  · rintro (rfl | ⟨hle, hid⟩)
    · exact ⟨Nat.le_refl _, hlt⟩
    · exact ⟨Nat.le_of_succ_le hle, hid⟩
  · rintro ⟨hle, hid⟩
    cases Nat.eq_or_lt_of_le hle with
    | inl heq => exact .inl heq.symm
    | inr hgt => exact .inr ⟨hgt, hid⟩

theorem Run.released_of_leave (h : Run (start s) es v) (hs : s.Fresh) (hl : .owner .leave ∈ es) :
    v.released = true := by
  obtain ⟨es₁, es₂, u, u', rfl, h₁, hstep, h₂⟩ := h.at_mem hl
  have howned := Run.owned h₁ (owned_start hs)
  have hu : u.released = true := by
    cases hstep with
    | owner hstep =>
      unfold Shared.released
      generalize u.closing = c at hstep
      cases hstep
      rfl
  exact (Run.released h₂ (howned.step hstep)).2 (.inl ((howned.released_step hstep).2 (.inl hu)))

/-- Threads may do as they like: each library is in one place, closed once at the most and in the end closed. -/
theorem Run.tended (hs : Spawned s) (h : Run (start s) es v) : Tended s es v := by
  have howned := h.owned (owned_start hs.fresh)
  have hmem {id : Nat} (hid : id ∈ s.handle.active :: loads es) := (h.mem_loaded hs.fresh).1 hid
  constructor
  case place =>
    intro id hid
    exact howned.place (hmem hid).1 (hmem hid).2
  case once =>
    intro id hid
    exact howned.closes_le (hmem hid).1 (hmem hid).2
  case active_open =>
    intro hclose
    apply howned.active_open
    cases hv : v.released with
    | false => rfl
    | true =>
      obtain hr | ⟨id, hid⟩ := (h.released (owned_start hs.fresh)).1 hv
      · exact absurd (hs.fresh.closed.symm.trans hr) nofun
      · exact absurd hid (hclose id)
  case reloads => rw [h.hold.2, show (start s).reloads = 0 from hs.fresh.reloads, Nat.zero_add]
  case unchanged =>
    intro t ht es₁ d es₂ u u' hes hu hstep
    apply hstep.hold_eq
    cases d with
    | install i => exact absurd (hes ▸ List.mem_append_right _ (List.mem_cons_self ..)) (h.not_install ht i)
    | load | fail | enter | decline | leave | drop | look | answer => rfl
  case failed =>
    intro t f hf
    obtain ⟨y, hy, hp, hm⟩ := h.past_of_mem hf
    rw [hy, (hp.of_fail hm).1]
  case declined =>
    intro t i hi
    obtain ⟨y, hy, hp, hm⟩ := h.past_of_mem hi
    have hrefused := (hp.of_decline hm).1
    constructor
    · obtain ⟨ds, s', l', hsteps⟩ := hrefused.finish v.session v.lock
      have ht := (List.getElem?_eq_some_iff.1 hy).1
      exact ⟨ds, _, hsteps.run v.closing v.threads t hy, List.getElem?_set_self ht⟩
    · intro r hr
      obtain rfl := Option.some.inj (hy.symm.trans hr)
      cases hrefused
      rfl
  case all_closed =>
    intro hl hq id hid
    exact howned.closes_eq_one (h.released_of_leave hs.fresh hl) hq (hmem hid).1 (hmem hid).2

/-- The owner closes the handle while a reload has its library loaded: both are closed, and the reload tells so. -/
theorem tended_interrupted :
    ∃ s es v, Spawned s ∧ Run (start s) es v ∧ loads es = [1] ∧ v.reloads = 0 ∧ v.shelf.closes 0 = 1 ∧
      v.shelf.closes 1 = 1 ∧ v.threads[0]? = some (.reload (.ended (.ok false))) := by
  obtain ⟨s, hs, hl, hh, hsh⟩ := exists_spawned (g := ⟨[], none, false⟩) rfl
  have hsize : s.host.shelf.size = 1 := by rw [Shelf.size, hsh]; rfl
  have h₁ := Session.load_given hl rfl
  rw [hsize] at h₁
  have ho : s.handle.closed = false := hs.fresh.closed
  generalize Session.mk _ _ _ = s₁ at h₁
  have hh₁ : s₁.handle = s.handle := (Session.load_spec h₁).1
  have hidle : s₁.mark.silence = .ok _ := Session.silence_of_idle (by rw [Session.mark, hh₁, hh]; rfl)
  have hc : s₁.close.2.handle.closed = true := by
    rw [Session.close_of_ok (hh₁ ▸ ho) hidle]
    rfl
  have hload := Run.demand (d := .reload) .resting [] (.cons (.load h₁) .nil)
  have hclose := hload.trans (run_close_open s₁ [.reload (.loaded 1)] (hh₁ ▸ ho) hidle)
  have h := hclose.trans ((Thread.Steps.install_closed hc 1).run_last .resting [])
  have ht := Run.tended hs h
  have hquiet : Quiet ⟨(s₁.close.2.install 1).2, .free, .resting, [.reload (.ended (.ok (s₁.close.2.install 1).1))]⟩ := by
    intro r hr
    obtain rfl := Thread.reload.inj (List.mem_singleton.1 hr)
    exact ⟨_, rfl⟩
  have hall := ht.all_closed (by simp) hquiet
  refine ⟨s, _, _, hs, h, rfl, ht.reloads, hall 0 ?_, hall 1 ?_, ?_⟩
  · rw [hh]
    exact List.mem_cons_self ..
  · exact List.mem_cons_of_mem _ (List.mem_singleton_self 1)
  · exact congrArg (fun r => some (Thread.reload (.ended r))) ((ht.declined 0 1 (by simp)).2 _ rfl)

end Shared

end Hotload
