import Hotload.Proofs.Session
import Hotload.Shared

/-!
What one step of a shared session can do, and what follows for a run. Only an installation changes the active library and
the number of reloads, no step opens the handle again or takes a library away, and so a run ends with the library that
was installed last.
-/
namespace Hotload

/-- A visit that is over has changed nothing but the log. -/
theorem Errand.conclude_eq (e : Errand) (a : Reply) (s : Session) :
    (e.conclude a s).2 = s ∨ ∃ ev, (e.conclude a s).2 = s.log ev := by
  unfold conclude
  split
  · split <;> exact .inl rfl
  · rename_i r
    cases r with
    | error f => exact .inl rfl
    | ok v => exact .inr ⟨_, rfl⟩
  · exact .inl rfl

@[simp] theorem Errand.handle_conclude (e : Errand) (a : Reply) (s : Session) :
    (e.conclude a s).2.handle = s.handle := by
  obtain h | ⟨ev, h⟩ := e.conclude_eq a s <;> simp [h]

@[simp] theorem Errand.shelf_conclude (e : Errand) (a : Reply) (s : Session) :
    (e.conclude a s).2.host.shelf = s.host.shelf := by
  obtain h | ⟨ev, h⟩ := e.conclude_eq a s <;> simp [h]

namespace Session

variable (s : Session) (id : LibraryId) (q : Request)

@[simp] theorem handle_answer : (s.answer id q).2.handle = s.handle := by
  cases q <;> rfl

@[simp] theorem size_answer : (s.answer id q).2.host.shelf.size = s.host.shelf.size := by
  cases q with
  | lookup name => rfl
  | call d as => exact s.host.shelf.size_call id d as

@[simp] theorem closes_answer (k : LibraryId) : (s.answer id q).2.host.shelf.closes k = s.host.shelf.closes k := by
  cases q with
  | lookup name => rfl
  | call d as => exact s.host.shelf.closes_call id d as k

theorem keeps_answer : s.host.shelf.Keeps (s.answer id q).2.host.shelf := by
  cases q with
  | lookup name => exact .refl _
  | call d as => exact s.host.shelf.keeps_call id d as

end Session

namespace Thread.Step

variable {s s' : Session} {l l' : ReadWriteLock} {x y : Thread} {d : Deed}

theorem handle_eq (h : Step s l x d y s' l') (hd : ∀ fresh, d ≠ .install fresh) : s'.handle = s.handle := by
  cases h with
  | load h => exact (Session.load_spec h).1
  | fail h => simpa using (Session.load_spec h).1
  | install => exact absurd rfl (hd _)
  | decline hc => rw [Session.swap_of_closed _ hc]
  | drop => simp
  | answer => simp
  | leaveRead => simp
  | enterWrite | leaveWrite | enterRead | look => rfl

theorem handle_install {fresh : LibraryId} (h : Step s l x (.install fresh) y s' l') :
    s.handle.closed = false ∧
      s'.handle = { s.handle with active := fresh, reloads := s.handle.reloads + 1 } := by
  cases h with
  | install hc => exact ⟨hc, by rw [Session.swap_of_open _ hc]⟩

theorem closed_eq (h : Step s l x d y s' l') : s'.handle.closed = s.handle.closed := by
  by_cases hd : ∀ fresh, d ≠ .install fresh
  · rw [h.handle_eq hd]
  · obtain ⟨fresh, hfresh⟩ := Classical.not_forall.1 hd
    obtain rfl := Classical.not_not.1 hfresh
    rw [h.handle_install.2]

theorem keeps (h : Step s l x d y s' l') : s.host.shelf.Keeps s'.host.shelf := by
  cases h with
  | load h => exact (Session.load_spec h).2.keeps
  | fail h => simpa using (Session.load_spec h).2.keeps
  | drop => simpa using s.host.shelf.keeps_close _
  | answer => exact s.keeps_answer _ _
  | leaveRead => simpa using Shelf.Keeps.refl _
  | install | decline | enterWrite | leaveWrite | enterRead | look => exact .refl _

theorem size_load {fresh : LibraryId} (h : Step s l x (.load fresh) y s' l') :
    fresh = s.host.shelf.size ∧ s'.host.shelf.size = s.host.shelf.size + 1 := by
  cases h with
  | load h => exact (Session.load_spec h).2.size_eq

theorem size_eq (h : Step s l x d y s' l') (hd : ∀ fresh, d ≠ .load fresh) :
    s'.host.shelf.size = s.host.shelf.size := by
  cases h with
  | load => exact absurd rfl (hd _)
  | fail h => simpa using Shelf.size_congr (Session.load_spec h).2
  | drop => simp
  | answer => simp
  | leaveRead => simp
  | install | decline | enterWrite | leaveWrite | enterRead | look => rfl

end Thread.Step

namespace Closing.Step

variable {s s' : Session} {l l' : ReadWriteLock} {c c' : Closing} {d : Deed}

theorem hold_eq (h : Step s l c d c' s' l') :
    s'.handle.active = s.handle.active ∧ s'.handle.reloads = s.handle.reloads := by
  cases h with
  | silence h =>
    obtain ⟨lingering, rfl⟩ := Session.silence_ok h
    exact ⟨rfl, rfl⟩
  | mark | again | fail | enter | close | leave => exact ⟨rfl, rfl⟩

theorem closed_of_closed (h : Step s l c d c' s' l') (hc : s.handle.closed = true) : s'.handle.closed = true := by
  cases h with
  | mark => rfl
  | silence h =>
    obtain ⟨lingering, rfl⟩ := Session.silence_ok h
    exact hc
  | again | fail | enter | close | leave => exact hc

/-- Only closing the active library does something to the libraries. -/
theorem shelf_eq (h : Step s l c d c' s' l') (hd : ∀ id, d ≠ .close id) : s'.host.shelf = s.host.shelf := by
  cases h with
  | close => exact absurd rfl (hd _)
  | silence h =>
    obtain ⟨lingering, rfl⟩ := Session.silence_ok h
    rfl
  | mark | again | fail | enter | leave => rfl

theorem keeps (h : Step s l c d c' s' l') : s.host.shelf.Keeps s'.host.shelf := by
  have hshelf := h.shelf_eq
  cases h with
  | close => exact s.host.shelf.keeps_close _
  | mark | again | silence | fail | enter | leave =>
    exact Shelf.keeps_of_libraries (congrArg Shelf.libraries (hshelf (by rintro _ ⟨⟩)))

theorem size_eq (h : Step s l c d c' s' l') : s'.host.shelf.size = s.host.shelf.size := by
  have hshelf := h.shelf_eq
  cases h with
  | close => exact s.host.shelf.size_close _
  | mark | again | silence | fail | enter | leave => exact congrArg Shelf.size (hshelf (by rintro _ ⟨⟩))

theorem close_spec {id : LibraryId} (h : Step s l c (.close id) c' s' l') :
    c = .inside ∧ c' = .released ∧ id = s.handle.active ∧ s'.handle = s.handle ∧
      s'.host.shelf = s.host.shelf.close id := by
  cases h
  exact ⟨rfl, rfl, rfl, rfl, rfl⟩

end Closing.Step

namespace Shared

variable {w u v : Shared} {e : Event} {es fs : List Event} {id : LibraryId}

theorem Event.loaded?_eq_some : e.loaded? = some id ↔ ∃ t, e = .act t (.load id) := by
  constructor
  · intro h
    cases e with
    | act t d =>
      cases d with
      | load j =>
        cases h
        exact ⟨t, rfl⟩
      | fail | enter | install | decline | leave | drop | look | answer => cases h
    | demand | owner | elsewhere => cases h
  · rintro ⟨t, rfl⟩
    rfl

theorem Event.installed?_eq_some : e.installed? = some id ↔ ∃ t, e = .act t (.install id) := by
  constructor
  · intro h
    cases e with
    | act t d =>
      cases d with
      | install j =>
        cases h
        exact ⟨t, rfl⟩
      | fail | enter | load | decline | leave | drop | look | answer => cases h
    | demand | owner | elsewhere => cases h
  · rintro ⟨t, rfl⟩
    rfl

theorem mem_loads_iff : id ∈ loads es ↔ ∃ t, .act t (.load id) ∈ es := by
  simp only [loads, List.mem_filterMap, Event.loaded?_eq_some]
  constructor
  · rintro ⟨_, he, t, rfl⟩
    exact ⟨t, he⟩
  · rintro ⟨t, he⟩
    exact ⟨_, he, t, rfl⟩

theorem mem_installs_iff : id ∈ installs es ↔ ∃ t, .act t (.install id) ∈ es := by
  simp only [installs, List.mem_filterMap, Event.installed?_eq_some]
  constructor
  · rintro ⟨_, he, t, rfl⟩
    exact ⟨t, he⟩
  · rintro ⟨t, he⟩
    exact ⟨_, he, t, rfl⟩

namespace Step

theorem keeps (h : Step w e v) : w.shelf.Keeps v.shelf := by
  cases h with
  | demand => exact .refl _
  | act _ h => exact h.keeps
  | owner h => exact h.keeps
  | elsewhere h => exact Shelf.keeps_of_libraries (congrArg Shelf.libraries h.shelf)

/-- Only an installation changes the hold on the libraries. -/
theorem hold_eq (h : Step w e v) (he : e.installed? = none) : v.active = w.active ∧ v.reloads = w.reloads := by
  cases h with
  | demand => exact ⟨rfl, rfl⟩
  | act _ h =>
    have hh := h.handle_eq (by rintro fresh rfl; cases he)
    exact ⟨congrArg Handle.active hh, congrArg Handle.reloads hh⟩
  | owner h => exact h.hold_eq
  | elsewhere h => exact ⟨h.active, h.reloads⟩

theorem hold_install (h : Step w e v) (he : e.installed? = some id) :
    w.closed = false ∧ v.active = id ∧ v.reloads = w.reloads + 1 := by
  obtain ⟨t, rfl⟩ := Event.installed?_eq_some.1 he
  cases h with
  | act _ h =>
    obtain ⟨hc, hh⟩ := h.handle_install
    exact ⟨hc, congrArg Handle.active hh, congrArg Handle.reloads hh⟩

/-- A library that is loaded gets the next number. -/
theorem size_load (h : Step w e v) (he : e.loaded? = some id) :
    id = w.shelf.size ∧ v.shelf.size = w.shelf.size + 1 := by
  obtain ⟨t, rfl⟩ := Event.loaded?_eq_some.1 he
  cases h with
  | act _ h => exact h.size_load

theorem size_eq (h : Step w e v) (he : e.loaded? = none) : v.shelf.size = w.shelf.size := by
  cases h with
  | demand => rfl
  | act _ h => exact h.size_eq (by rintro fresh rfl; cases he)
  | owner h => exact h.size_eq
  | elsewhere h => exact congrArg Shelf.size h.shelf

theorem closed_of_closed (h : Step w e v) (hc : w.closed = true) : v.closed = true := by
  cases h with
  | demand => exact hc
  | act _ h => exact h.closed_eq.trans hc
  | owner h => exact h.closed_of_closed hc
  | elsewhere h => exact h.closed.trans hc

end Step

theorem installs_concat (es : List Event) (e : Event) : installs (es ++ [e]) = installs es ++ e.installed?.toList := by
  rw [installs, installs, List.filterMap_append]
  cases h : e.installed? <;> simp [h]

theorem loads_concat (es : List Event) (e : Event) : loads (es ++ [e]) = loads es ++ e.loaded?.toList := by
  rw [loads, loads, List.filterMap_append]
  cases h : e.loaded? <;> simp [h]

namespace Run

theorem keeps (h : Run w es v) : w.shelf.Keeps v.shelf := by
  induction h with
  | none => exact .refl _
  | more _ hs ih => exact ih.trans hs.keeps

theorem closed_of_closed (h : Run w es v) (hc : w.closed = true) : v.closed = true := by
  induction h with
  | none => exact hc
  | more _ hs ih => exact hs.closed_of_closed ih

/-- A run ends with the library that was installed last, and each installation was counted. -/
theorem hold (h : Run w es v) :
    v.active = (installs es).getLastD w.active ∧ v.reloads = w.reloads + (installs es).length := by
  induction h with
  | none => exact ⟨rfl, rfl⟩
  | @more es e u v _ hs ih =>
    rw [installs_concat]
    cases he : e.installed? with
    | none =>
      obtain ⟨ha, hr⟩ := hs.hold_eq he
      rw [ha, hr, Option.toList_none, List.append_nil]
      exact ih
    | some fresh =>
      obtain ⟨-, ha, hr⟩ := hs.hold_install he
      rw [ha, hr, ih.2, Option.toList_some, List.getLastD_concat, List.length_append, List.length_singleton]
      exact ⟨rfl, Nat.add_assoc ..⟩

theorem size (h : Run w es v) : v.shelf.size = w.shelf.size + (loads es).length := by
  induction h with
  | none => rfl
  | @more es e u v _ hs ih =>
    rw [loads_concat, List.length_append]
    cases he : e.loaded? with
    | none => rw [hs.size_eq he, ih, Option.toList_none, List.length_nil, Nat.add_zero]
    | some fresh => rw [(hs.size_load he).2, ih, Option.toList_some, List.length_singleton, Nat.add_assoc]

/-- The number of a library tells when it was loaded. -/
theorem loads_eq (h : Run w es v) : loads es = List.range' w.shelf.size (loads es).length := by
  induction h with
  | none => rfl
  | @more es e u v h hs ih =>
    rw [loads_concat, List.length_append]
    cases he : e.loaded? with
    | none =>
      rw [Option.toList_none, List.append_nil, List.length_nil, Nat.add_zero]
      exact ih
    | some fresh =>
      rw [Option.toList_some, List.length_singleton, List.range'_concat, ← ih, (hs.size_load he).1, Run.size h, Nat.one_mul]

theorem mem_loads (h : Run w es v) {id : Nat} : id ∈ loads es ↔ w.shelf.size ≤ id ∧ id < v.shelf.size := by
  rw [h.loads_eq, h.size, List.mem_range'_1]

end Run

end Shared

end Hotload
