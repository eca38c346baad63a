/-!
Runs of anything that moves in steps, each told by an event. A run grows at its end, and it can be cut wherever its events
can.
-/
namespace Hotload

inductive Runs {σ ε : Type} (step : σ → ε → σ → Prop) (s : σ) : List ε → σ → Prop where
  | none : Runs step s [] s
  | more {es : List ε} {e : ε} {u v : σ} : Runs step s es u → step u e v → Runs step s (es ++ [e]) v

namespace Runs

variable {σ ε : Type} {step : σ → ε → σ → Prop} {s u v : σ} {es xs ys : List ε} {e : ε}

theorem one (h : step s e v) : Runs step s [e] v :=
  Runs.none.more h

theorem trans (h : Runs step s xs u) (h' : Runs step u ys v) : Runs step s (xs ++ ys) v := by
  induction h' with
  | none => rwa [List.append_nil]
  | more _ hs ih =>
    rw [← List.append_assoc]
    exact ih.more hs

theorem eq_of_nil (h : Runs step s [] v) : v = s := by
  generalize hn : [] = es at h
  cases h with
  | none => rfl
  | more => simp at hn

theorem last (h : Runs step s (es ++ [e]) v) : ∃ u, Runs step s es u ∧ step u e v := by
  generalize hg : es ++ [e] = gs at h
  cases h with
  | none => simp at hg
  | more h hs =>
    obtain ⟨rfl, he⟩ := List.append_inj' hg rfl
    cases he
    exact ⟨_, h, hs⟩

theorem append_iff : Runs step s (xs ++ ys) v ↔ ∃ u, Runs step s xs u ∧ Runs step u ys v := by
  refine ⟨fun h => ?_, fun ⟨u, hx, hy⟩ => hx.trans hy⟩
  generalize hg : xs ++ ys = gs at h
  induction h generalizing ys with
  | none =>
    obtain ⟨rfl, rfl⟩ := List.append_eq_nil_iff.1 hg
    exact ⟨s, .none, .none⟩
  | @more fs f u v h hs ih =>
    obtain rfl | ⟨zs, e, rfl⟩ := List.eq_nil_or_concat ys
    · rw [List.append_nil] at hg
      subst hg
      exact ⟨v, h.more hs, .none⟩
    · rw [List.concat_eq_append] at hg ⊢
      rw [← List.append_assoc] at hg
      obtain ⟨hf, he⟩ := List.append_inj' hg rfl
      cases he
      obtain ⟨w, hx, hy⟩ := ih hf
      exact ⟨w, hx, hy.more hs⟩

theorem split (h : Runs step s (xs ++ e :: ys) v) : ∃ u w, Runs step s xs u ∧ step u e w ∧ Runs step w ys v := by
  rw [← List.singleton_append] at h
  obtain ⟨u, hx, hy⟩ := append_iff.1 h
  obtain ⟨w, he, hy⟩ := append_iff.1 hy
  obtain ⟨u', hn, hs⟩ := (show Runs step u ([] ++ [e]) w from he).last
  cases hn.eq_of_nil
  exact ⟨_, w, hx, hs, hy⟩

theorem at_mem (h : Runs step s es v) (he : e ∈ es) :
    ∃ xs ys u w, es = xs ++ e :: ys ∧ Runs step s xs u ∧ step u e w ∧ Runs step w ys v := by
  obtain ⟨xs, ys, rfl⟩ := List.append_of_mem he
  obtain ⟨u, w, hx, hs, hy⟩ := h.split
  exact ⟨xs, ys, u, w, rfl, hx, hs, hy⟩

end Runs

end Hotload
