import Hotload.Proofs.Shared.Alone
import Hotload.Proofs.Shared.Ownership
import Hotload.Proofs.Shared.Paths
import Mathlib.Data.List.Nodup

/-!
In which order libraries become the active one. They are numbered as they are loaded, outside the lock, and installed as
their reloads come to it. A reload that is overtaken between the two puts an older library in the place of a newer one,
and there is no other way back.
-/
namespace Hotload.Shared

variable {s : Session} {u v : Shared} {e : Event} {es fs : List Event} {t t' i j : Nat}

/-- A reload loads one library, then another reload loads and installs a second one, and then the first is installed. -/
def Overtaken (es : List Event) (i j : LibraryId) : Prop :=
  ∃ t u, List.Sublist [.act t (.load i), .act u (.load j), .act u (.install j), .act t (.install i)] es

theorem Overtaken.append (h : Overtaken es i j) (fs : List Event) : Overtaken (es ++ fs) i j := by
  obtain ⟨t, u, h⟩ := h
  exact ⟨t, u, h.trans (List.sublist_append_left es fs)⟩

/-- What a reload installs it has loaded, and it has installed nothing before. -/
theorem Run.deeds_of_install (h : Run (start s) es u) (hstep : Step u (.act t (.install i)) v) :
    deeds t es = [.load i, .enter .write] := by
  cases hstep with
  | act hx hs =>
    cases hs with
    | install => exact h.past hx

theorem Run.load_mem (h : Run (start s) es u) (hstep : Step u (.act t (.install i)) v) : .act t (.load i) ∈ es := by
  rw [← mem_deeds, h.deeds_of_install hstep]
  exact List.mem_cons_self ..

/-- What is loaded earlier has the smaller number. -/
theorem Run.mem_left_of_lt (h : Run (start s) (es ++ .act t' (.load j) :: fs) v)
    (hi : .act t (.load i) ∈ es ++ .act t' (.load j) :: fs) (hlt : i < j) : .act t (.load i) ∈ es := by
  obtain ⟨u, u', -, hstep, hrest⟩ := h.split
  have hsize := hstep.size_load rfl
  rw [List.mem_append, List.mem_cons] at hi
  obtain hi | hi | hi := hi
  · exact hi
  · cases hi
    exact absurd hlt (Nat.lt_irrefl _)
  · have hle := ((Run.mem_loads hrest).1 (mem_loads_iff.2 ⟨t, hi⟩)).1
    have hj : j = u.shelf.size := hsize.1
    omega

/-- A library is loaded by one reload only. -/
theorem Run.load_inj (h : Run (start s) es v) (ht : .act t (.load i) ∈ es) (ht' : .act t' (.load i) ∈ es) : t = t' := by
  obtain ⟨es₁, es₂, u, u', rfl, h₁, hstep, h₂⟩ := h.at_mem ht'
  have hsize := hstep.size_load rfl
  have hi : i = u.shelf.size := hsize.1
  rw [List.mem_append, List.mem_cons] at ht
  obtain ht | ht | ht := ht
  · have := ((Run.mem_loads h₁).1 (mem_loads_iff.2 ⟨t, ht⟩)).2
    omega
  · cases ht
    rfl
  · have := ((Run.mem_loads h₂).1 (mem_loads_iff.2 ⟨t, ht⟩)).1
    omega

/-- An installation of an older library than one that was installed before means that it was overtaken. -/
theorem Run.overtaken_of_install (h : Run (start s) es u) (hstep : Step u (.act t (.install i)) v)
    (hj : j ∈ installs es) (hlt : i < j) : Overtaken (es ++ [.act t (.install i)]) i j := by
  obtain ⟨t', hj⟩ := mem_installs_iff.1 hj
  have hload := h.load_mem hstep
  obtain ⟨es₁, es₂, u₁, u₂, rfl, h₁, hinstall, h₂⟩ := h.at_mem hj
  obtain ⟨fs₁, fs₂, rfl⟩ := List.append_of_mem (Run.load_mem h₁ hinstall)
  rw [List.append_assoc, List.cons_append] at h hload
  have hfirst := h.mem_left_of_lt hload hlt
  refine ⟨t, t', ?_⟩
  have hone {e : Event} {es : List Event} (he : e ∈ es) : List.Sublist [e] es := List.singleton_sublist.2 he
  have hfs := (hone hfirst).append (hone (List.mem_cons_self (a := Event.act t' (.load j)) (l := fs₂)))
  have hes := hfs.append (hone (List.mem_cons_self (a := Event.act t' (.install j)) (l := es₂)))
  exact hes.append (List.Sublist.refl [Event.act t (.install i)])

theorem Run.overtaken_of_lt (h : Run (start s) es v) (hj : j ∈ installs es) (hlt : v.active < j) :
    Overtaken es v.active j := by
  induction h with
  | none => cases hj
  | @more es e u v h hstep ih =>
    rw [installs_concat, List.mem_append, Option.mem_toList] at hj
    cases he : e.installed? with
    | none =>
      rw [he] at hj
      rw [(hstep.hold_eq he).1] at hlt ⊢
      exact (ih (hj.resolve_right nofun) hlt).append [e]
    | some i =>
      obtain ⟨t, rfl⟩ := Event.installed?_eq_some.1 he
      rw [(hstep.hold_install he).2.1] at hlt ⊢
      cases hj with
      | inl hj => exact Run.overtaken_of_install h hstep hj hlt
      | inr hj =>
        cases hj
        exact absurd hlt (Nat.lt_irrefl _)

theorem Overtaken.lt (h : Overtaken es i j) (hr : Run (start s) es v) : i < j := by
  obtain ⟨t, u, h⟩ := h
  have hsub : List.Sublist [i, j] (loads es) := h.filterMap Event.loaded?
  rw [hr.loads_eq] at hsub
  have hsorted := (List.pairwise_lt_range' (s := (start s).shelf.size) (n := (loads es).length)).sublist hsub
  exact (List.pairwise_cons.1 hsorted).1 j (List.mem_singleton_self j)

theorem Overtaken.installs (h : Overtaken es i j) : List.Sublist [j, i] (installs es) := by
  obtain ⟨t, u, h⟩ := h
  exact h.filterMap Event.installed?

/-- No library is installed twice. -/
theorem Run.nodup_installs (h : Run (start s) es v) : (installs es).Nodup := by
  induction h with
  | none => exact .nil
  | @more es e u v h hstep ih =>
    rw [installs_concat]
    cases he : e.installed? with
    | none => simpa using ih
    | some i =>
      obtain ⟨t, rfl⟩ := Event.installed?_eq_some.1 he
      rw [Option.toList_some, List.nodup_append]
      refine ⟨ih, List.nodup_singleton i, fun a ha b hb => ?_⟩
      obtain rfl := List.mem_singleton.1 hb
      rintro rfl
      obtain ⟨t', ht'⟩ := mem_installs_iff.1 ha
      -- The reload that installed it before is the one that loaded it, which is this one.
      obtain ⟨es₁, es₂, u₁, u₂, rfl, h₁, hinstall, -⟩ := h.at_mem ht'
      obtain rfl := Run.load_inj h (Run.load_mem h hstep) (List.mem_append_left _ (Run.load_mem h₁ hinstall))
      have hm := mem_deeds.2 ht'
      rw [Run.deeds_of_install h hstep] at hm
      simp at hm

/-- The libraries that become the active one get ever newer just if no reload is overtaken. -/
theorem Run.installs_sorted (hs : s.Fresh) (h : Run (start s) es v) :
    (s.handle.active :: installs es).Pairwise (· ≤ ·) ↔ ¬∃ i j, Overtaken es i j := by
  constructor
  · rintro hp ⟨i, j, ho⟩
    have hji := hp.tail.sublist ho.installs
    have hle := (List.pairwise_cons.1 hji).1 i (List.mem_singleton_self i)
    exact absurd (ho.lt h) (Nat.not_lt.2 hle)
  · intro hno
    induction h with
    | none => exact List.pairwise_singleton _ _
    | @more es e u v h hstep ih =>
      have hsorted := ih fun ⟨i, j, ho⟩ => hno ⟨i, j, ho.append [e]⟩
      rw [installs_concat]
      cases he : e.installed? with
      | none => simpa using hsorted
      | some i =>
        obtain ⟨t, rfl⟩ := Event.installed?_eq_some.1 he
        rw [Option.toList_some, ← List.cons_append, List.pairwise_append]
        refine ⟨hsorted, List.pairwise_singleton _ _, fun a ha b hb => ?_⟩
        obtain rfl := List.mem_singleton.1 hb
        cases List.mem_cons.1 ha with
        | inl ha =>
          have hle := ((Run.mem_loads h).1 (mem_loads_iff.2 ⟨t, Run.load_mem h hstep⟩)).1
          have hsize : (start s).shelf.size = s.handle.active + 1 := hs.size
          rw [hsize] at hle
          exact ha ▸ Nat.le_of_succ_le hle
        | inr ha => exact Nat.le_of_not_lt fun hlt => hno ⟨b, a, Run.overtaken_of_install h hstep ha hlt⟩

theorem Step.closed_of_decline (h : Step u (.act t (.decline i)) v) : v.closed = true := by
  cases h with
  | act _ hs =>
    have hc := hs.closed_eq
    cases hs with
    | decline ho => exact hc.trans ho

/-- On an open handle each library that was loaded is installed in the end. -/
theorem Run.installs_of_loads (h : Run (start s) es v) (ho : v.closed = false) (hq : v.Quiet) (hi : i ∈ loads es) :
    i ∈ installs es := by
  obtain ⟨t, ht⟩ := mem_loads_iff.1 hi
  obtain ⟨y, hy, hp, hm⟩ := h.past_of_mem ht
  cases y with
  | visit | replied | invoked => exact absurd (hp _ hm) nofun
  | reload r =>
    obtain ⟨o, rfl⟩ := hq r (List.mem_of_getElem? hy)
    obtain ⟨f, hds, -⟩ | ⟨fresh, dropped, hds, -⟩ | ⟨fresh, hds, -⟩ := hp
    · simp [hds] at hm
    · obtain rfl : i = fresh := by simpa [hds] using hm
      exact mem_installs_iff.2 ⟨t, mem_deeds.1 (by simp [hds])⟩
    · have hd : .act t (.decline fresh) ∈ es := mem_deeds.1 (by simp [hds])
      obtain ⟨es₁, es₂, u, u', -, -, hstep, hrest⟩ := h.at_mem hd
      exact absurd ((Run.closed_of_closed hrest hstep.closed_of_decline).symm.trans ho) nofun

/-- The library that was loaded last is the last one on the shelf. -/
theorem Run.latest (hs : s.Fresh) (h : Run (start s) es v) :
    (loads es).getLastD s.handle.active + 1 = v.shelf.size := by
  have hsize : (start s).shelf.size = s.handle.active + 1 := hs.size
  have hlast (n : Nat) : (List.range' (s.handle.active + 1) n).getLastD s.handle.active = s.handle.active + n := by
    cases n with
    | zero => rfl
    | succ n =>
      rw [List.range'_concat, List.getLastD_concat]
      omega
  rw [h.loads_eq, h.size, hsize, hlast, Nat.add_right_comm]

/-- In a list without repetitions, what stands before something else does not stand at the end. -/
theorem getLastD_ne {xs : List Nat} {a b d : Nat} (hn : xs.Nodup) (hs : List.Sublist [a, b] xs) :
    xs.getLastD d ≠ a := by
  obtain ⟨r₁, r₂, rfl, ha, hb⟩ := List.cons_sublist_iff.1 hs
  have hne : r₂ ≠ [] := List.ne_nil_of_mem (List.singleton_sublist.1 hb)
  rw [List.getLastD_eq_getLast?, List.getLast?_append_of_ne_nil _ hne, List.getLast?_eq_some_getLast hne]
  exact fun heq => (List.nodup_append.1 hn).2.2 a ha _ (List.getLast_mem hne) heq.symm

/-- An open handle comes to rest with the library that was loaded last just if that one overtook no other. -/
theorem Run.active_eq_latest (hs : s.Fresh) (h : Run (start s) es v) (ho : v.closed = false) (hq : v.Quiet) :
    v.active = (loads es).getLastD s.handle.active ↔ ¬∃ i, Overtaken es i ((loads es).getLastD s.handle.active) := by
  have howned := h.owned (owned_start hs)
  have hlatest := h.latest hs
  constructor
  · rintro heq ⟨i, hover⟩
    exact getLastD_ne h.nodup_installs hover.installs (h.hold.1.symm.trans heq)
  · intro hno
    by_contra hne
    have hle : v.active ≤ (loads es).getLastD s.handle.active :=
      Nat.le_of_lt_succ (Nat.lt_of_lt_of_eq howned.active_lt hlatest.symm)
    have hlt := Nat.lt_of_le_of_ne hle hne
    refine hno ⟨v.active, h.overtaken_of_lt (h.installs_of_loads ho hq ?_) hlt⟩
    cases hl : (loads es).getLast? with
    | none =>
      rw [List.getLastD_eq_getLast?, hl] at hlt
      exact absurd howned.first_le (Nat.not_le.2 hlt)
    | some id =>
      rw [List.getLastD_eq_getLast?, hl]
      exact List.mem_of_getLast? hl

/-- On every open handle a reload can be overtaken, and then the older library of two is the one that stays. -/
theorem exists_overtaken {s₁ s₂ : Session} (ho : s.handle.closed = false) (h₁ : s.load = (.ok i, s₁))
    (h₂ : s₁.load = (.ok j, s₂)) :
    ∃ es v, Run (start s) es v ∧ v.closed = false ∧ v.Quiet ∧ v.active = i ∧ loads es = [i, j] ∧ installs es = [j, i] := by
  have hh : s₂.handle = s.handle := (Session.load_spec h₂).1.trans (Session.load_spec h₁).1
  have ho₂ : s₂.handle.closed = false := hh ▸ ho
  have hh₃ := s₂.handle_install_of_open ho₂ j
  have ho₃ : (s₂.install j).2.handle.closed = false := hh₃ ▸ ho₂
  have hh₄ := (s₂.install j).2.handle_install_of_open ho₃ i
  have hcome := ((Runs.none : Run (start s) [] _).more (.demand .reload)).more (.demand .reload)
  have hload := (hcome.more (.act (t := 0) rfl (.load h₁))).more (.act (t := 1) rfl (.load h₂))
  have hnewer := hload.trans ((Thread.Steps.install_open ho₂ j).run .resting _ 1 rfl)
  have holder := hnewer.trans ((Thread.Steps.install_open ho₃ i).run .resting _ 0 rfl)
  refine ⟨_, _, holder, ?_, ?_, ?_, rfl, rfl⟩
  · exact (congrArg Handle.closed hh₄).trans ho₃
  · intro r hr
    change Thread.reload r ∈ [.reload (.ended _), .reload (.ended _)] at hr
    simp only [List.mem_cons, List.not_mem_nil, or_false, Thread.reload.injEq] at hr
    obtain rfl | rfl := hr <;> exact ⟨_, rfl⟩
  · exact congrArg Handle.active hh₄

/-- On a handle that was just spawned two reloads are enough. -/
theorem spawned_overtaken :
    ∃ s es v, Spawned s ∧ Run (start s) es v ∧ v.closed = false ∧ v.Quiet ∧ v.active = 1 ∧ loads es = [1, 2] ∧
      installs es = [2, 1] := by
  obtain ⟨s, hs, hl, -, hsh⟩ := exists_spawned (g := ⟨[], none, false⟩) rfl
  have h₁ := Session.load_given hl rfl
  have h₂ := Session.load_given (s := s.load.2) (by rw [h₁]; exact hl) rfl
  have hsize : s.host.shelf.size = 1 := by rw [Shelf.size, hsh]; rfl
  have hsize' : s.load.2.host.shelf.size = 2 := by
    rw [h₁]
    simp [Shelf.size, Shelf.add, hsh]
  rw [hsize] at h₁
  rw [hsize'] at h₂
  obtain ⟨es, v, h⟩ := exists_overtaken hs.fresh.closed (h₁.trans (congrArg (_, ·) (congrArg Prod.snd h₁).symm)) h₂
  exact ⟨s, es, v, hs, h⟩

/-- Libraries are numbered as they are loaded. They are installed in that order just if no reload is overtaken, and an
open handle comes to rest with the newest one just if that overtook no other. -/
theorem Run.succession (hs : Spawned s) (h : Run (start s) es v) :
    loads es = List.range' (s.handle.active + 1) (loads es).length ∧
      ((s.handle.active :: installs es).Pairwise (· ≤ ·) ↔ ¬∃ i j, Overtaken es i j) ∧
      (v.closed = false → v.Quiet →
        (v.active = (loads es).getLastD s.handle.active ↔
          ¬∃ i, Overtaken es i ((loads es).getLastD s.handle.active))) := by
  have hsize : (start s).shelf.size = s.handle.active + 1 := hs.fresh.size
  exact ⟨hsize ▸ h.loads_eq, h.installs_sorted hs.fresh, h.active_eq_latest hs.fresh⟩

/-- Two reloads after which the older of their libraries is the active one for good. -/
theorem succession_older_stays :
    ∃ s es v, Spawned s ∧ Run (start s) es v ∧ v.closed = false ∧ v.Quiet ∧
      ¬(s.handle.active :: installs es).Pairwise (· ≤ ·) ∧ v.active ≠ (loads es).getLastD s.handle.active := by
  obtain ⟨s, es, v, hs, h, ho, hq, ha, hl, hi⟩ := spawned_overtaken
  refine ⟨s, es, v, hs, h, ho, hq, ?_, ?_⟩
  · rw [hi]
    intro hp
    have hle := (List.pairwise_cons.1 hp.tail).1 1 (List.mem_singleton_self 1)
    exact absurd hle (by decide)
  · rw [ha, hl]
    simp

/-- The theorem tells why: the newer library overtook the older one. -/
theorem succession_overtaken :
    ∃ s es v, Spawned s ∧ Run (start s) es v ∧ v.closed = false ∧ v.Quiet ∧ ∃ i, Overtaken es i 2 := by
  obtain ⟨s, es, v, hs, h, ho, hq, ha, hl, hi⟩ := spawned_overtaken
  refine ⟨s, es, v, hs, h, ho, hq, ?_⟩
  have hlatest := (h.succession hs).2.2 ho hq
  rw [ha, hl] at hlatest
  by_contra hno
  exact absurd (hlatest.2 hno) (by simp)

end Hotload.Shared
