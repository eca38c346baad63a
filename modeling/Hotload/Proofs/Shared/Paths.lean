import Hotload.Proofs.Shared.Steps

/-!
What one thread does in a run. Its own steps, taken from the run in their order, make up a path; for a reload the path
is known from where it ends.
-/
namespace Hotload

/-- A thread goes from one point to another, whatever the others do. -/
inductive Thread.Path (x : Thread) : List Deed → Thread → Prop where
  | none : Path x [] x
  | step {ds : List Deed} {d : Deed} {y z : Thread} {s s' : Session} {l l' : ReadWriteLock} :
      Path x ds y → Step s l y d z s' l' → Path x (ds ++ [d]) z

namespace Shared

/-- What a thread does in an event. -/
def Event.deed? (t : Nat) : Event → Option Deed
  | .act u d => if u = t then some d else none
  | _ => none

def deeds (t : Nat) (es : List Event) : List Deed :=
  es.filterMap (Event.deed? t)

theorem deeds_append (t : Nat) (es fs : List Event) : deeds t (es ++ fs) = deeds t es ++ deeds t fs :=
  List.filterMap_append

theorem mem_deeds {t : Nat} {d : Deed} {es : List Event} : d ∈ deeds t es ↔ .act t d ∈ es := by
  rw [deeds, List.mem_filterMap]
  constructor
  · rintro ⟨e, he, hd⟩
    cases e with
    | act u d' =>
      simp only [Event.deed?, Option.ite_none_right_eq_some, Option.some.injEq] at hd
      obtain ⟨rfl, rfl⟩ := hd
      exact he
    | demand | owner | elsewhere => cases hd
  · exact fun he => ⟨_, he, if_pos rfl⟩

/-- What a step means for one thread: it rests, comes in or goes on. -/
inductive Advance (w v : Shared) (t : Nat) : Option Deed → Prop where
  | rests : v.threads[t]? = w.threads[t]? → Advance w v t none
  | comes (d : Demand) : w.threads[t]? = none → v.threads[t]? = some d.thread → Advance w v t none
  | goes {x y : Thread} {d : Deed} : w.threads[t]? = some x → v.threads[t]? = some y →
      Thread.Step w.session w.lock x d y v.session v.lock → Advance w v t (some d)

variable {w v : Shared} {e : Event} {es : List Event} {t : Nat}

theorem Step.advance (h : Step w e v) (t : Nat) : Advance w v t (e.deed? t) := by
  cases h with
  | demand d =>
    obtain ht | ht | ht := Nat.lt_trichotomy t w.threads.length
    · exact .rests (List.getElem?_append_left ht)
    · exact .comes d (by simp [ht]) (by simp [ht])
    · have hw : w.threads[t]? = none := List.getElem?_eq_none (Nat.le_of_lt ht)
      exact .rests (by rw [hw]; exact List.getElem?_eq_none (by simp; omega))
  | @act u x y d s l hx hs =>
    by_cases hu : u = t
    · subst hu
      have ht : u < w.threads.length := (List.getElem?_eq_some_iff.1 hx).1
      rw [Event.deed?, if_pos rfl]
      exact .goes hx (List.getElem?_set_self ht) hs
    · rw [Event.deed?, if_neg hu]
      exact .rests (List.getElem?_set_ne hu)
  | owner | elsewhere => exact .rests rfl

theorem deeds_singleton (t : Nat) (e : Event) : deeds t [e] = (e.deed? t).toList := by
  cases h : e.deed? t <;> simp [deeds, h]

theorem deeds_concat (t : Nat) (es : List Event) (e : Event) :
    deeds t (es ++ [e]) = deeds t es ++ (e.deed? t).toList := by
  rw [deeds_append, deeds_singleton]

/-- A thread that is there follows a path. -/
theorem Run.path (h : Run w es v) {x : Thread} (hx : w.threads[t]? = some x) :
    ∃ y, v.threads[t]? = some y ∧ Thread.Path x (deeds t es) y := by
  induction h with
  | none => exact ⟨x, hx, .none⟩
  | @more es e u v _ hs ih =>
    obtain ⟨y, hy, hp⟩ := ih
    have ha := hs.advance t
    rw [deeds_concat]
    generalize e.deed? t = o at ha
    cases ha with
    | rests hv => exact ⟨y, hv.trans hy, by simpa using hp⟩
    | comes d hu => exact absurd (hu.symm.trans hy) nofun
    | goes hu hv hs =>
      obtain rfl := Option.some.inj (hu.symm.trans hy)
      exact ⟨_, hv, hp.step hs⟩

/-- Any other thread comes in with a demand, if it comes at all. -/
theorem Run.path_of_le (h : Run w es v) (hw : w.threads.length ≤ t) :
    v.threads.length ≤ t ∧ deeds t es = [] ∨
      ∃ d : Demand, ∃ y, v.threads[t]? = some y ∧ Thread.Path d.thread (deeds t es) y := by
  induction h with
  | none => exact .inl ⟨hw, rfl⟩
  | @more es e u v _ hs ih =>
    have ha := hs.advance t
    rw [deeds_concat]
    generalize e.deed? t = o at ha
    obtain ⟨hu, hd⟩ | ⟨d, y, hy, hp⟩ := ih
    · rw [← List.getElem?_eq_none_iff] at hu ⊢
      rw [hd]
      cases ha with
      | rests hv => exact .inl ⟨hv.trans hu, rfl⟩
      | comes d _ hv => exact .inr ⟨d, _, hv, .none⟩
      | goes hu' => exact absurd (hu'.symm.trans hu) nofun
    · refine .inr ⟨d, ?_⟩
      cases ha with
      | rests hv => exact ⟨y, hv.trans hy, by simpa using hp⟩
      | comes d hu => exact absurd (hu.symm.trans hy) nofun
      | goes hu hv hs =>
        obtain rfl := Option.some.inj (hu.symm.trans hy)
        exact ⟨_, hv, hp.step hs⟩

end Shared

/-- What a thread does that is no reload. -/
def Deed.isVisit : Deed → Bool
  | .enter .read | .look _ | .answer _ _ | .leave .read => true
  | .load _ | .fail _ | .enter .write | .install _ | .decline _ | .leave .write | .drop _ => false

/-- All that a reload has done when it has come so far. -/
def Reload.Past : Reload → List Deed → Prop
  | .begun, ds => ds = []
  | .loaded fresh, ds => ds = [.load fresh]
  | .inside fresh, ds => ds = [.load fresh, .enter .write]
  | .swapped fresh dropped, ds =>
    ds = [.load fresh, .enter .write, .install fresh] ∨
      ds = [.load fresh, .enter .write, .decline fresh] ∧ dropped = fresh
  | .outside fresh dropped, ds =>
    ds = [.load fresh, .enter .write, .install fresh, .leave .write] ∨
      ds = [.load fresh, .enter .write, .decline fresh, .leave .write] ∧ dropped = fresh
  | .ended r, ds =>
    (∃ f : Failure, ds = [.fail f] ∧ r = if f.isOrdinary then .ok false else .error f) ∨
      (∃ fresh dropped, ds = [.load fresh, .enter .write, .install fresh, .leave .write, .drop dropped] ∧
        r = .ok (decide (dropped ≠ fresh))) ∨
      ∃ fresh, ds = [.load fresh, .enter .write, .decline fresh, .leave .write, .drop fresh] ∧ r = .ok false

def Thread.Past : Thread → List Deed → Prop
  | .reload r, ds => r.Past ds
  | .visit _ _, ds | .replied _, ds | .invoked _, ds => ∀ d ∈ ds, d.isVisit = true

theorem Session.abandon_eq (s : Session) (f : Failure) :
    (s.abandon f).1 = if f.isOrdinary then .ok false else .error f := by
  unfold abandon
  split <;> rfl

theorem Demand.past_thread (d : Demand) : d.thread.Past [] := by
  cases d with
  | reload => rfl
  | request | invoke => exact List.forall_mem_nil _

theorem Errand.past_conclude (e : Errand) (a : Reply) (s : Session) {ds : List Deed}
    (h : ∀ d ∈ ds, d.isVisit = true) : (e.conclude a s).1.Past ds := by
  unfold conclude
  split
  · split <;> exact h
  · exact h
  · exact h

theorem Thread.Step.past {s s' : Session} {l l' : ReadWriteLock} {x y : Thread} {d : Deed} {ds : List Deed}
    (h : Step s l x d y s' l') (hx : x.Past ds) : y.Past (ds ++ [d]) := by
  have visits (hd : d.isVisit = true) (hds : ∀ d ∈ ds, d.isVisit = true) : ∀ e ∈ ds ++ [d], e.isVisit = true :=
    List.forall_mem_append.2 ⟨hds, List.forall_mem_singleton.2 hd⟩
  cases h with
  | load =>
    obtain rfl : ds = [] := hx
    rfl
  | @fail f s' =>
    obtain rfl : ds = [] := hx
    exact .inl ⟨f, rfl, s'.abandon_eq f⟩
  | enterWrite =>
    obtain rfl : ds = _ := hx
    rfl
  | install =>
    obtain rfl : ds = _ := hx
    exact .inl rfl
  | decline hc =>
    obtain rfl : ds = _ := hx
    exact .inr ⟨rfl, by rw [Session.swap_of_closed _ hc]⟩
  | leaveWrite =>
    obtain rfl | ⟨rfl, rfl⟩ := hx
    · exact .inl rfl
    · exact .inr ⟨rfl, rfl⟩
  | @drop fresh dropped =>
    obtain rfl | ⟨rfl, rfl⟩ := hx
    · exact .inr (.inl ⟨fresh, dropped, rfl, by rw [Session.settle_eq]⟩)
    · exact .inr (.inr ⟨dropped, rfl, by simp [Session.settle_eq]⟩)
  | enterRead | look | answer => exact visits rfl hx
  | @leaveRead e a => exact e.past_conclude a s (visits rfl hx)

/-- Where a thread has come to tells what it has done, and for a reload in which order. -/
theorem Thread.Path.past {x y : Thread} {ds : List Deed} (h : Path x ds y) (hx : x.Past []) : y.Past ds := by
  induction h with
  | none => exact hx
  | step _ hs ih => exact hs.past ih

namespace Shared

/-- No reload is in flight. -/
def Quiet (w : Shared) : Prop :=
  ∀ r, .reload r ∈ w.threads → ∃ o, r = .ended o

variable {s : Session} {v : Shared} {es : List Event} {t : Nat}

theorem Run.past (h : Run (start s) es v) {y : Thread} (hy : v.threads[t]? = some y) : y.Past (deeds t es) := by
  obtain ⟨hv, -⟩ | ⟨d, z, hz, hp⟩ := h.path_of_le (Nat.zero_le t)
  · rw [List.getElem?_eq_none hv] at hy
    cases hy
  · obtain rfl := Option.some.inj (hz.symm.trans hy)
    exact hp.past d.past_thread

/-- A thread that did something is there. -/
theorem Run.past_of_mem (h : Run (start s) es v) {d : Deed} (hd : .act t d ∈ es) :
    ∃ y, v.threads[t]? = some y ∧ y.Past (deeds t es) ∧ d ∈ deeds t es := by
  have hm := mem_deeds.2 hd
  obtain ⟨-, hnil⟩ | ⟨-, y, hy, -⟩ := h.path_of_le (Nat.zero_le t)
  · rw [hnil] at hm
    cases hm
  · exact ⟨y, hy, h.past hy, hm⟩

end Shared

end Hotload
