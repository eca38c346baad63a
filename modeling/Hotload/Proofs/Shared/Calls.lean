import Hotload.Proofs.Shared.Alone
import Hotload.Proofs.Shared.Ownership
import Hotload.Proofs.Shared.Paths
import Mathlib.Tactic.ByContra

/-!
Calls into libraries. A call goes to the active library, and as long as it lasts nobody replaces that, so a library that
is closed after a reload has no call in it. The owner waits for the calls before closing the active library.
-/
namespace Hotload.Shared

variable {s : Session} {w v : Shared} {e : Event} {es : List Event} {first : Nat}

/-- Each call in progress is one into the active library. -/
def Current (w : Shared) : Prop :=
  ∀ e id, .visit e (.calling id) ∈ w.threads → id = w.active

/-- An installation would have to be made inside the lock, where nobody is while somebody reads. -/
theorem Current.step (h : w.Current) (hg : w.Guarded) (hs : Step w e v) : v.Current := by
  intro e id hm
  cases hs with
  | demand d =>
    cases List.mem_append.1 hm with
    | inl hm => exact h e id hm
    | inr hm => cases d <;> exact absurd (List.mem_singleton.1 hm) nofun
  | owner hs => exact (h e id hm).trans hs.hold_eq.1.symm
  | elsewhere ha => exact (h e id hm).trans ha.active.symm
  | @act t x y d s l hx hs =>
    cases List.mem_or_eq_of_mem_set hm with
    | inl hm =>
      have hd : ∀ fresh, d ≠ .install fresh := by
        rintro fresh rfl
        have hwrite := (hg.no_writer hm rfl).2.2 x (List.mem_of_getElem? hx)
        cases hs
        exact absurd hwrite nofun
      exact (h e id hm).trans (congrArg Handle.active (hs.handle_eq hd)).symm
    | inr hy =>
      have hside := congrArg Thread.side? hy
      cases hs with
      | look =>
        cases hy
        rfl
      | leaveRead =>
        rw [Errand.side?_conclude] at hside
        cases hside
      | load | fail | enterWrite | install | decline | leaveWrite | drop | enterRead | answer => cases hy

theorem Run.current (h : Run (start s) es v) : v.Current := by
  induction h with
  | none => exact nofun
  | more h hs ih => exact ih.step (Run.guarded h (guarded_start s)) hs

/-- A library is closed by the reload that has it, or by the owner if it is the active one. -/
theorem Owned.closed_step (h : Owned first w) (hs : Step w e v) {id : Nat} (hc : w.shelf.closes id < v.shelf.closes id) :
    (∃ x ∈ w.threads, x.library? = some id) ∨ w.closing = .inside ∧ id = w.active := by
  -- If only another library is closed, this one is not.
  have other {k : Nat} (hk : k < w.shelf.size) (hv : v.shelf = w.shelf.close k) : k = id := by
    by_contra hne
    rw [hv, Shelf.closes_close hk, if_neg hne] at hc
    exact absurd hc (Nat.lt_irrefl _)
  cases hs with
  | demand => exact absurd hc (Nat.lt_irrefl _)
  | elsewhere ha => exact absurd (congrArg (Shelf.closes · id) ha.shelf) (Nat.ne_of_gt hc)
  | act hx hs =>
    cases hs.handover with
    | nothing _ _ _ hcl | taken _ _ _ _ hcl => exact absurd (hcl id) (Nat.ne_of_gt hc)
    | exchanged _ _ _ _ hsh => exact absurd (congrArg (Shelf.closes · id) hsh) (Nat.ne_of_gt hc)
    | @closed own hl _ _ hsh =>
      have hm := List.mem_of_getElem? hx
      obtain rfl := other (h.held _ hm own hl).2 hsh
      exact .inl ⟨_, hm, hl⟩
  | @owner d _ _ _ hs =>
    by_cases hd : ∃ k, d = .close k
    · obtain ⟨k, rfl⟩ := hd
      obtain ⟨hin, -, rfl, -, hsh⟩ := hs.close_spec
      exact .inr ⟨hin, (other h.active_lt hsh).symm⟩
    · have hsh := hs.shelf_eq fun k hk => hd ⟨k, hk⟩
      exact absurd (congrArg (Shelf.closes · id) hsh) (Nat.ne_of_gt hc)

/-- A library that a reload has on its hands is not the active one, not even after that was closed. -/
theorem Owned.ne_active (h : Owned first w) (hspent : w.released = true → 0 < w.shelf.closes w.active) {x : Thread}
    (hx : x ∈ w.threads) {id : Nat} (hid : x.library? = some id) : id ≠ w.active := by
  rintro rfl
  have hone := h.once w.active h.first_le h.active_lt
  have hpos : 0 < w.threads.countP (·.has w.active) :=
    List.countP_pos_iff.2 ⟨x, hx, by simp [Thread.has, hid]⟩
  unfold holds at hone
  cases hr : w.released with
  | true =>
    have := hspent hr
    omega
  | false =>
    simp only [hr, decide_true, Bool.not_false, Bool.and_true, Bool.toNat_true] at hone
    omega

theorem Step.isInside (hs : Step w e v) (hv : v.closing.isInside = true) :
    e = .owner .enter ∨ w.closing.isInside = true := by
  cases hs with
  | demand | act | elsewhere => exact .inr hv
  | owner hs =>
    generalize w.closing = c at hs
    cases hs with
    | enter => exact .inl rfl
    | close => exact .inr rfl
    | again => exact .inr hv
    | mark | silence | fail | leave => cases hv

theorem Step.isInside_of_close {id : LibraryId} (hs : Step w (.owner (.close id)) v) :
    w.closing.isInside = true := by
  cases hs with
  | owner hs =>
    rw [hs.close_spec.1]
    rfl

/-- The owner comes to the active library only through the lock. -/
theorem Run.entered (h : Run (start s) es v) (hs : s.Fresh) (hv : v.closing.isInside = true ∨ v.released = true) :
    .owner .enter ∈ es := by
  induction h with
  | none =>
    obtain hv | hv := hv
    · cases hv
    · exact absurd (hs.closed.symm.trans hv) nofun
  | @more es e u v h hstep ih =>
    rw [List.mem_append, List.mem_singleton, eq_comm, or_comm]
    obtain hv | hv := hv
    · exact (hstep.isInside hv).imp_right fun hu => ih (.inl hu)
    · obtain hu | ⟨id, rfl⟩ := ((Run.owned h (owned_start hs)).released_step hstep).1 hv
      · exact .inr (ih (.inr hu))
      · exact .inr (ih (.inl hstep.isInside_of_close))

/-- A thread that reads goes on reading until it leaves. -/
theorem Advance.reading {t : Nat} {o : Option Deed} (h : Advance w v t o) {x : Thread} (hx : w.threads[t]? = some x)
    (hr : x.isOn .read = true) (hl : o ≠ some (.leave .read)) :
    ∃ y, v.threads[t]? = some y ∧ y.isOn .read = true := by
  cases h with
  | rests hv => exact ⟨x, hv.trans hx, hr⟩
  | comes _ hw => exact absurd (hw.symm.trans hx) nofun
  | @goes x' y d hw hv hs =>
    obtain rfl := Option.some.inj (hw.symm.trans hx)
    refine ⟨y, hv, ?_⟩
    generalize v.session = s', v.lock = l' at hs
    cases hs with
    | look | answer => rfl
    | leaveRead => exact absurd rfl hl
    | load | fail | enterWrite | install | decline | leaveWrite | drop | enterRead => cases hr

theorem Step.reading_of_enter {t : Nat} (hs : Step w (.act t (.enter .read)) v) :
    ∃ x, v.threads[t]? = some x ∧ x.isOn .read = true := by
  have ha := hs.advance t
  rw [Event.deed?, if_pos rfl] at ha
  cases ha with
  | @goes x y d _ hv hs =>
    refine ⟨y, hv, ?_⟩
    generalize v.session = s', v.lock = l' at hs
    cases hs
    rfl

/-- While somebody reads, the owner does not come in. -/
theorem Run.reading (h : Run w es v) (hg : w.Guarded) {t : Nat} {x : Thread} (hx : w.threads[t]? = some x)
    (hr : x.isOn .read = true) (hl : .act t (.leave .read) ∉ es) :
    (∃ y, v.threads[t]? = some y ∧ y.isOn .read = true) ∧ .owner .enter ∉ es := by
  induction h with
  | none => exact ⟨⟨x, hx, hr⟩, List.not_mem_nil⟩
  | @more es e u v h hstep ih =>
    rw [List.mem_append, List.mem_singleton, not_or] at hl
    obtain ⟨⟨y, hy, hyr⟩, hes⟩ := ih hl.1
    refine ⟨(hstep.advance t).reading hy hyr fun he => hl.2 ?_, ?_⟩
    · exact (List.mem_singleton.1 (mem_deeds.1 (by rw [deeds_singleton, he]; exact List.mem_singleton_self _)))
    · rw [List.mem_append, List.mem_singleton, not_or]
      refine ⟨hes, ?_⟩
      rintro rfl
      have hpos := (Run.guarded h hg).readers_pos (List.mem_of_getElem? hy) hyr
      cases hstep with
      | owner hs =>
        generalize u.closing = c at hs
        cases hs with
        | enter hadm =>
          have hz : u.lock.writer = false ∧ u.lock.readers = 0 := by simpa [ReadWriteLock.admits] using hadm
          exact absurd hz.2 (Nat.ne_of_gt hpos)

/-- No library is closed while a call into it is in progress, and a call that was let in before the owner came for the
active library is one into a library that is open. -/
theorem Run.calls_open (hs : Spawned s) (h : Run (start s) es v) :
    (∀ e v' id, Step v e v' → v.shelf.closes id < v'.shelf.closes id → ∀ f, .visit f (.calling id) ∉ v.threads) ∧
      ∀ es₁ es₂ t f id, es = es₁ ++ .act t (.enter .read) :: es₂ → .owner .enter ∉ es₁ →
        .act t (.leave .read) ∉ es₂ → v.threads[t]? = some (.visit f (.calling id)) → v.shelf.closes id = 0 := by
  have howned := h.owned (owned_start hs.fresh)
  have hguarded := h.guarded (guarded_start s)
  constructor
  · intro e v' id hstep hc f hf
    have hid := h.current f id hf
    obtain ⟨x, hx, hlib⟩ | ⟨hin, -⟩ := howned.closed_step hstep hc
    · exact howned.ne_active (h.spent (owned_start hs.fresh) hs.fresh.closed) hx hlib hid
    · have hout := (hguarded.no_writer hf rfl).2.1
      rw [hin] at hout
      cases hout
  · intro es₁ es₂ t f id hes hbefore hstay hcall
    have hnot : .owner .enter ∉ es := by
      subst hes
      obtain ⟨u, u', hu, hstep, hrest⟩ := h.split
      have hg := Run.guarded hu (guarded_start s)
      obtain ⟨x, hx, hr⟩ := hstep.reading_of_enter
      have hlast := (Run.reading hrest (hg.step hstep) hx hr hstay).2
      simp only [List.mem_append, List.mem_cons, hbefore, hlast, or_false, false_or]
      nofun
    have hr : v.released = false := by
      cases hv : v.released with
      | false => rfl
      | true => exact absurd (h.entered hs.fresh (.inr hv)) hnot
    rw [h.current f id (List.mem_of_getElem? hcall)]
    exact howned.active_open hr

/-- A reload closes the library that it dropped while somebody calls the one that it installed. -/
theorem calls_open_overlapping :
    ∃ s es v v', Spawned s ∧ Run (start s) es v ∧ Step v (.act 0 (.drop 0)) v' ∧
      v.shelf.closes 0 < v'.shelf.closes 0 ∧ (∀ f, .visit f (.calling 0) ∉ v.threads) ∧
      (∃ f, v.threads[1]? = some (.visit f (.calling 1))) ∧ v.shelf.closes 1 = 0 := by
  obtain ⟨s, hs, hl, hh, hsh⟩ := exists_spawned (g := ⟨[], none, false⟩) rfl
  have hsize : s.host.shelf.size = 1 := by rw [Shelf.size, hsh]; rfl
  have h₁ := Session.load_given hl rfl
  rw [hsize] at h₁
  have ho : s.handle.closed = false := hs.fresh.closed
  generalize Session.mk _ _ _ = s₁ at h₁
  obtain ⟨hh₁, hadd⟩ := Session.load_spec h₁
  have ho₁ : s₁.handle.closed = false := hh₁ ▸ ho
  have hsize₁ : s₁.host.shelf.size = 2 := hadd.size_eq.2.trans (congrArg (· + 1) hsize)
  have hactive : s₁.handle.active = 0 := by rw [hh₁, hh]; rfl
  have hswap : (s₁.swap 1).2.handle.active = 1 ∧ (s₁.swap 1).2.host.shelf = s₁.host.shelf := by
    rw [s₁.swap_of_open ho₁]
    exact ⟨rfl, rfl⟩
  have hexchange := Thread.Steps.exchange ho₁ 1
  have htake := Thread.Steps.take (s₁.swap 1).2 (.request (.lookup "main"))
  rw [hactive] at hexchange
  rw [hswap.1] at htake
  have hload := Run.demand (d := .reload) .resting [] (.cons (.load h₁) .nil)
  have houtside := (hload.trans (hexchange.run_last .resting [])).more (.demand (.request (.lookup "main")))
  have h := houtside.trans (htake.run .resting _ 1 rfl)
  obtain ⟨hclosing, hcalling⟩ := Run.calls_open hs h
  have hdrop := Step.act (t := 0) (w := ⟨(s₁.swap 1).2, ReadWriteLock.free.enter .read, .resting,
    [.reload (.outside 1 0), .visit (.request (.lookup "main")) (.calling 1)]⟩) rfl .drop
  have hlt : (s₁.swap 1).2.host.shelf.closes 0 < ((s₁.swap 1).2.settle 1 0).2.host.shelf.closes 0 := by
    rw [Session.shelf_settle, hswap.2, Shelf.closes_close (hsize₁ ▸ Nat.succ_pos 1), if_pos rfl]
    exact Nat.lt_succ_self _
  refine ⟨s, _, _, _, hs, h, hdrop, hlt, hclosing _ _ 0 hdrop hlt, ⟨_, rfl⟩, ?_⟩
  exact hcalling [.demand .reload, .act 0 (.load 1), .act 0 (.enter .write), .act 0 (.install 1), .act 0 (.leave .write),
    .demand (.request (.lookup "main"))] [.act 1 (.look 1)] 1 _ 1 rfl (by simp) (by simp) rfl

end Hotload.Shared
