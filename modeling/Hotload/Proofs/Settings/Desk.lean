import Hotload.Settings.Desk
import Mathlib.Data.List.Induction

/-!
Which settings are kept: those of the first reading that succeeded since settings were last dropped. What they were read
from may change in the meantime, and readings for once change nothing.
-/
namespace Hotload.Settings.Desk

variable {d : Desk} {us xs ys earlier : List Use} {u : Use} {n : Nat} {s : Settings}

theorem after_append (d : Desk) (us vs : List Use) : d.after (us ++ vs) = (d.after us).after vs := by
  simp [after]

theorem after_concat (d : Desk) (us : List Use) (u : Use) : d.after (us ++ [u]) = (d.after us).use u := by
  simp [after]

/-- A place in a list with one more element is a place in the list, or it is that of the last element. -/
theorem concat_eq_append_cons_iff {α : Type} {us xs ys : List α} {u a : α} :
    us ++ [u] = xs ++ a :: ys ↔ (xs = us ∧ u = a ∧ ys = []) ∨ ∃ zs, us = xs ++ a :: zs ∧ ys = zs ++ [u] := by
  rcases List.eq_nil_or_concat ys with rfl | ⟨zs, z, rfl⟩
  · constructor
    · intro h
      obtain ⟨hx, hu⟩ := List.append_inj' h rfl
      exact .inl ⟨hx.symm, List.cons.inj hu |>.1, rfl⟩
    · rintro (⟨rfl, rfl, -⟩ | ⟨zs, -, h⟩)
      · rfl
      · simp at h
  · rw [List.concat_eq_append, ← List.cons_append, ← List.append_assoc]
    constructor
    · intro h
      obtain ⟨hx, hu⟩ := List.append_inj' h rfl
      cases hu
      exact .inr ⟨zs, hx, rfl⟩
    · rintro (⟨-, -, h⟩ | ⟨zs', rfl, h⟩)
      · simp at h
      · obtain ⟨rfl, hu⟩ := List.append_inj' h rfl
        cases hu
        rfl

theorem unread_concat : d.Unread (us ++ [u]) ↔
    (u = .get → ∃ f, (d.after us).load = .error f) ∧ (u ≠ .drop → d.Unread us) := by
  constructor
  · intro h
    refine ⟨fun hu => h us [] (by rw [hu]) List.not_mem_nil, fun hu xs ys hus hys => ?_⟩
    apply h xs (ys ++ [u])
    · rw [hus, List.append_assoc, List.cons_append]
    · rw [List.mem_append, List.mem_singleton]
      exact not_or.2 ⟨hys, Ne.symm hu⟩
  · rintro ⟨hget, hother⟩ xs ys hus hys
    rcases concat_eq_append_cons_iff.1 hus with ⟨rfl, hu, -⟩ | ⟨zs, hzs, rfl⟩
    · exact hget hu
    · rw [List.mem_append, List.mem_singleton, not_or] at hys
      exact hother (Ne.symm hys.2) xs zs hzs hys.1

theorem get_kept (h : d.cache.kept = some (n, s)) : d.get = (.ok (n, s), d) := by
  simp [get, Cache.get, h]

theorem get_ok (h : d.cache.kept = none) (hs : d.load = .ok s) :
    d.get = (.ok (d.cache.readings, s), { d with cache := ⟨some (d.cache.readings, s), d.cache.readings + 1⟩ }) := by
  rw [load] at hs
  simp [get, Cache.get, h, hs]

theorem get_error {f : Failure} (h : d.cache.kept = none) (hf : d.load = .error f) : d.get = (.error f, d) := by
  rw [load] at hf
  simp [get, Cache.get, h, hf]

/-- Whoever is given settings leaves them kept, under a number that no later reading has. -/
theorem kept_of_get (h : d.get.1 = .ok (n, s)) (hn : ∀ n s, d.cache.kept = some (n, s) → n < d.cache.readings) :
    d.get.2.cache.kept = some (n, s) ∧ n < d.get.2.cache.readings := by
  cases hk : d.cache.kept with
  | some kept =>
    obtain ⟨m, t⟩ := kept
    rw [get_kept hk] at h ⊢
    cases h
    exact ⟨hk, hn n s hk⟩
  | none =>
    cases hl : d.load with
    | ok t =>
      rw [get_ok hk hl] at h ⊢
      cases h
      exact ⟨rfl, Nat.lt_succ_self _⟩
    | error f =>
      rw [get_error hk hl] at h
      cases h

/-- The cache tells the history: the reading that its settings come from, or that there is none. -/
structure Tells (d : Desk) (us : List Use) : Prop where
  kept : ∀ n s, (d.after us).cache.kept = some (n, s) → ∃ earlier later, us = earlier ++ .get :: later ∧ .drop ∉ later ∧
    (d.after earlier).load = .ok s ∧ d.Unread earlier ∧ (d.after earlier).get.1 = .ok (n, s)
  empty : (d.after us).cache.kept = none → d.Unread us
  numbered : ∀ n s, (d.after us).cache.kept = some (n, s) → n < (d.after us).cache.readings

theorem tells_start (b : Basis) (e : Environment) : Tells (start b e) [] where
  kept n s h := by cases h
  empty _ xs ys h := by simp at h
  numbered n s h := by cases h

/-- A use that leaves the cache as it is tells no more. -/
theorem Tells.same (h : Tells d us) (hc : (d.after (us ++ [u])).cache = (d.after us).cache) (hd : u ≠ .drop)
    (hg : u = .get → (d.after us).cache.kept = none → ∃ f, (d.after us).load = .error f) : Tells d (us ++ [u]) where
  kept n s hk := by
    rw [hc] at hk
    obtain ⟨earlier, later, hus, hlater, hread⟩ := h.kept n s hk
    refine ⟨earlier, later ++ [u], ?_, ?_, hread⟩
    · rw [hus, List.append_assoc, List.cons_append]
    · rw [List.mem_append, List.mem_singleton]
      exact not_or.2 ⟨hlater, Ne.symm hd⟩
  empty hk := by
    rw [hc] at hk
    exact unread_concat.2 ⟨fun hu => hg hu hk, fun _ => h.empty hk⟩
  numbered n s hk := by
    rw [hc] at hk ⊢
    exact h.numbered n s hk

theorem Tells.read (h : Tells d us) (hk : (d.after us).cache.kept = none) (hs : (d.after us).load = .ok s) :
    Tells d (us ++ [.get]) := by
  have hafter : d.after (us ++ [.get]) = (d.after us).get.2 := after_concat d us .get
  have hget := get_ok hk hs
  constructor
  · intro n t ht
    rw [hafter, hget] at ht
    cases ht
    exact ⟨us, [], rfl, List.not_mem_nil, hs, h.empty hk, by rw [hget]⟩
  · intro ht
    rw [hafter, hget] at ht
    cases ht
  · intro n t ht
    rw [hafter, hget] at ht ⊢
    cases ht
    exact Nat.lt_succ_self _

theorem Tells.drop (d : Desk) (us : List Use) : Tells d (us ++ [.drop]) := by
  have hempty : (d.after (us ++ [.drop])).cache.kept = none := by
    rw [after_concat]
    rfl
  constructor
  · intro n s hk
    rw [hempty] at hk
    cases hk
  · intro _
    exact unread_concat.2 ⟨nofun, fun h => absurd rfl h⟩
  · intro n s hk
    rw [hempty] at hk
    cases hk

theorem Tells.step (h : Tells d us) (u : Use) : Tells d (us ++ [u]) := by
  cases u with
  | change b e => exact h.same (by rw [after_concat]; rfl) nofun nofun
  | load => exact h.same (by rw [after_concat]; rfl) nofun nofun
  | drop => exact Tells.drop d us
  | get =>
    cases hk : (d.after us).cache.kept with
    | some kept =>
      obtain ⟨n, s⟩ := kept
      refine h.same ?_ nofun fun _ hnone => ?_
      · rw [after_concat, use, get_kept hk]
      · rw [hk] at hnone
        cases hnone
    | none =>
      cases hl : (d.after us).load with
      | ok s => exact h.read hk hl
      | error f =>
        refine h.same ?_ nofun fun _ _ => ⟨f, hl⟩
        rw [after_concat, use, get_error hk hl]

theorem tells (b : Basis) (e : Environment) (us : List Use) : Tells (start b e) us := by
  induction us using List.reverseRecOn with
  | nil => exact tells_start b e
  | append_singleton us u ih => exact ih.step u

/-- Settings are given out just if there is a reading that they come from. -/
theorem Tells.get_cases (h : Tells d us) :
    (∃ n s earlier, d.Source us earlier ∧ (d.after earlier).load = .ok s ∧ (d.after earlier).get.1 = .ok (n, s) ∧
        (d.after us).get.1 = .ok (n, s)) ∨
      (∀ earlier, ¬d.Source us earlier) ∧ ∃ f, (d.after us).load = .error f ∧ (d.after us).get = (.error f, d.after us) := by
  cases hk : (d.after us).cache.kept with
  | some kept =>
    obtain ⟨n, s⟩ := kept
    obtain ⟨earlier, later, hus, hlater, hload, hfirst, hget⟩ := h.kept n s hk
    refine .inl ⟨n, s, earlier, ⟨⟨later ++ [.get], ?_, ?_⟩, ⟨s, hload⟩, hfirst⟩, hload, hget, by rw [get_kept hk]⟩
    · rw [hus, List.append_assoc, List.cons_append]
    · simp [hlater]
  | none =>
    cases hl : (d.after us).load with
    | ok s =>
      have hget : (d.after us).get.1 = .ok ((d.after us).cache.readings, s) := by rw [get_ok hk hl]
      exact .inl ⟨_, s, us, ⟨⟨[], rfl, List.not_mem_nil⟩, ⟨s, hl⟩, h.empty hk⟩, hl, hget, hget⟩
    | error f =>
      refine .inr ⟨fun earlier hsource => ?_, f, rfl, get_error hk hl⟩
      obtain ⟨s, hs⟩ := hsource.succeeds
      obtain ⟨later, hus, hlater⟩ := hsource.reached
      rcases concat_eq_append_cons_iff.1 hus with ⟨rfl, -, -⟩ | ⟨zs, hzs, rfl⟩
      · rw [hl] at hs
        cases hs
      · rw [List.mem_append, not_or] at hlater
        obtain ⟨f', hf'⟩ := h.empty hk earlier zs hzs hlater.1
        rw [hf'] at hs
        cases hs

/-- Kept settings stay until they are dropped, and after that their number does not come again. -/
theorem after_keeps (hk : d.cache.kept = some (n, s)) (hn : n < d.cache.readings) (us : List Use) :
    n < (d.after us).cache.readings ∧ (.drop ∉ us → (d.after us).cache.kept = some (n, s)) ∧
      (.drop ∈ us → ∀ m t, (d.after us).cache.kept = some (m, t) → m ≠ n) := by
  induction us using List.reverseRecOn with
  | nil => exact ⟨hn, fun _ => hk, fun h => absurd h List.not_mem_nil⟩
  | append_singleton us u ih =>
    obtain ⟨hlt, hkeep, hother⟩ := ih
    rw [after_concat]
    simp only [List.mem_append, List.mem_singleton, not_or]
    cases u with
    | change b e => exact ⟨hlt, fun h => hkeep h.1, fun h => hother (h.resolve_right nofun)⟩
    | load => exact ⟨hlt, fun h => hkeep h.1, fun h => hother (h.resolve_right nofun)⟩
    | drop => exact ⟨hlt, fun h => absurd rfl h.2, fun _ m t hm => by cases hm⟩
    | get =>
      rw [use]
      cases hc : (d.after us).cache.kept with
      | some kept =>
        obtain ⟨m, t⟩ := kept
        rw [get_kept hc]
        exact ⟨hlt, fun h => hkeep h.1, fun h => hother (h.resolve_right nofun)⟩
      | none =>
        have hdropped : .drop ∈ us := by
          by_contra hno
          rw [hkeep hno] at hc
          cases hc
        cases hl : (d.after us).load with
        | error f =>
          rw [get_error hc hl]
          exact ⟨hlt, fun h => hkeep h.1, fun _ => hother hdropped⟩
        | ok t =>
          rw [get_ok hc hl]
          refine ⟨Nat.lt_succ_of_lt hlt, fun h => absurd hdropped h.1, fun _ m t' hm => ?_⟩
          cases hm
          exact Nat.ne_of_gt hlt

theorem get_same (h : Tells d us) (hg : (d.after us).get.1 = .ok (n, s)) (between : List Use) :
    (.drop ∉ between → (d.after (us ++ .get :: between)).get.1 = .ok (n, s)) ∧
      (.drop ∈ between → ∀ t, (d.after (us ++ .get :: between)).get.1 ≠ .ok (n, t)) := by
  obtain ⟨hk, hn⟩ := kept_of_get hg h.numbered
  rw [after_append, show ((d.after us).after (.get :: between)) = (d.after us).get.2.after between from rfl]
  obtain ⟨hlt, hkeep, hother⟩ := after_keeps hk hn between
  constructor
  · intro hd
    rw [get_kept (hkeep hd)]
  · intro hd t ht
    generalize (d.after us).get.2.after between = e at *
    cases hc : e.cache.kept with
    | some kept =>
      obtain ⟨m, t'⟩ := kept
      rw [get_kept hc] at ht
      cases ht
      exact hother hd n t hc rfl
    | none =>
      cases hl : e.load with
      | ok t' =>
        rw [get_ok hc hl] at ht
        cases ht
        exact Nat.lt_irrefl _ hlt
      | error f =>
        rw [get_error hc hl] at ht
        cases ht

/-- A reading for once reads what there is at the time. -/
theorem load_after (d : Desk) (us : List Use) :
    (d.after us).load =
      Settings.load (surroundings d.basis d.environment us).1 (surroundings d.basis d.environment us).2 := by
  induction us generalizing d with
  | nil => rfl
  | cons u us ih => cases u <;> exact ih _

/-- Readings for once can be left out. -/
theorem after_filter (d : Desk) (us : List Use) : d.after (us.filter (!·.isLoad)) = d.after us := by
  induction us generalizing d with
  | nil => rfl
  | cons u us ih => cases u <;> exact ih _

/-- After any uses, the settings that are given out are those of the first reading for keeping that succeeded since the
settings were last dropped, the very ones that were given out then; they are given out again until they are dropped, and
never after that. If there is no such reading, asking fails as a reading does, and nothing is kept. Readings for once read
what there is at the time and have no part in that. -/
theorem get_eq_first_load (b : Basis) (e : Environment) (us : List Use) :
    let d := start b e
    ((∃ n s earlier, d.Source us earlier ∧ (d.after earlier).load = .ok s ∧ (d.after earlier).get.1 = .ok (n, s) ∧
        (d.after us).get.1 = .ok (n, s)) ∨
      (∀ earlier, ¬d.Source us earlier) ∧ ∃ f, (d.after us).load = .error f ∧
        (d.after us).get = (.error f, d.after us)) ∧
    (∀ n s, (d.after us).get.1 = .ok (n, s) → ∀ between,
      (.drop ∉ between → (d.after (us ++ .get :: between)).get.1 = .ok (n, s)) ∧
      (.drop ∈ between → ∀ t, (d.after (us ++ .get :: between)).get.1 ≠ .ok (n, t))) ∧
    (d.after us).load = Settings.load (surroundings b e us).1 (surroundings b e us).2 ∧
    d.after (us.filter (!·.isLoad)) = d.after us := by
  intro d
  have h := tells b e us
  exact ⟨h.get_cases, fun n s hg between => get_same h hg between, load_after d us, after_filter d us⟩

end Hotload.Settings.Desk
