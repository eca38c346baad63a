import Hotload.Text.Blank
import Mathlib.Data.List.TakeWhile

/-!
What trimming leaves. Nothing but characters of the class is dropped, and between two runs of them a text that has none
comes out as it is.
-/
namespace Hotload.Text

variable {p : Char → Bool} {s before middle after : List Char}

theorem exists_dropWhile (p : Char → Bool) (s : List Char) : ∃ before, s = before ++ s.dropWhile p ∧ ∀ c ∈ before, p c = true :=
  ⟨s.takeWhile p, List.takeWhile_append_dropWhile.symm, fun _ hc => List.mem_takeWhile_imp hc⟩

/-- What is dropped at the end, once the start was. -/
theorem exists_dropped (p : Char → Bool) (s : List Char) :
    ∃ after, s.dropWhile p = trimBy p s ++ after ∧ ∀ c ∈ after, p c = true := by
  obtain ⟨after, hafter, ha⟩ := exists_dropWhile p (s.dropWhile p).reverse
  refine ⟨after.reverse, ?_, fun c hc => ha c (List.mem_reverse.1 hc)⟩
  rw [trimBy, ← List.reverse_append, ← hafter, List.reverse_reverse]

theorem exists_trimBy (p : Char → Bool) (s : List Char) :
    ∃ before after, s = before ++ trimBy p s ++ after ∧ ∀ c ∈ before ++ after, p c = true := by
  obtain ⟨before, hbefore, hb⟩ := exists_dropWhile p s
  obtain ⟨after, hafter, ha⟩ := exists_dropped p s
  refine ⟨before, after, ?_, fun c hc => (List.mem_append.1 hc).elim (hb c) (ha c)⟩
  rw [List.append_assoc, ← hafter]
  exact hbefore

theorem head_dropWhile {c : Char} {r : List Char} (p : Char → Bool) (h : s.dropWhile p = c :: r) : p c = false := by
  have hne : s.dropWhile p ≠ [] := by
    rw [h]
    exact List.cons_ne_nil c r
  have hnot := List.head_dropWhile_not p hne
  simp only [h, List.head_cons] at hnot
  exact hnot

/-- Nothing is dropped of a text that starts with another character. -/
theorem dropWhile_of_head (hne : middle ≠ []) (hf : ∀ c ∈ middle.head?, p c = false) (after : List Char) :
    (middle ++ after).dropWhile p = middle ++ after := by
  obtain ⟨c, middle, rfl⟩ := List.exists_cons_of_ne_nil hne
  rw [List.cons_append, List.dropWhile_cons, hf c rfl, if_neg Bool.false_ne_true]

/-- Dropping stops where a text starts that has no character of the class. -/
theorem dropWhile_before (hb : ∀ c ∈ before, p c = true) (hm : ∀ c ∈ middle, p c = false) (hne : middle ≠ [])
    (after : List Char) : (before ++ (middle ++ after)).dropWhile p = middle ++ after := by
  rw [List.dropWhile_append_of_pos hb]
  exact dropWhile_of_head hne (fun c hc => hm c (List.mem_of_mem_head? hc)) after

/-- Between two runs of the class, a text that starts and ends with other characters comes out as it is. -/
theorem trimBy_of_ends (hp : ∀ c ∈ before ++ after, p c = true) (hne : middle ≠ []) (hf : ∀ c ∈ middle.head?, p c = false)
    (hl : ∀ c ∈ middle.getLast?, p c = false) : trimBy p (before ++ middle ++ after) = middle := by
  have hbefore : ∀ c ∈ before, p c = true := fun c hc => hp c (List.mem_append_left _ hc)
  have hafter : ∀ c ∈ after.reverse, p c = true := fun c hc => hp c (List.mem_append_right _ (List.mem_reverse.1 hc))
  have hlast := dropWhile_of_head (List.reverse_ne_nil_iff.2 hne) (by rwa [List.head?_reverse]) []
  rw [List.append_nil] at hlast
  rw [trimBy, List.append_assoc, List.dropWhile_append_of_pos hbefore, dropWhile_of_head hne hf, List.reverse_append,
    List.dropWhile_append_of_pos hafter, hlast, List.reverse_reverse]

theorem trimBy_append (hp : ∀ c ∈ before ++ after, p c = true) (hm : ∀ c ∈ middle, p c = false) (hne : middle ≠ []) :
    trimBy p (before ++ middle ++ after) = middle :=
  trimBy_of_ends hp hne (fun c hc => hm c (List.mem_of_mem_head? hc)) fun c hc => hm c (List.mem_of_getLast? hc)

theorem trimBy_of_all (h : ∀ c ∈ s, p c = true) : trimBy p s = [] := by
  rw [trimBy, List.dropWhile_eq_nil_iff.2 h]
  rfl

/-- What is left neither starts nor ends with a character of the class. -/
theorem ends_trimBy (p : Char → Bool) (s : List Char) :
    (∀ c ∈ (trimBy p s).head?, p c = false) ∧ ∀ c ∈ (trimBy p s).getLast?, p c = false := by
  constructor
  · intro c hc
    obtain ⟨after, hafter, -⟩ := exists_dropped p s
    obtain ⟨r, hr⟩ := List.head?_eq_some_iff.1 hc
    rw [hr, List.cons_append] at hafter
    exact head_dropWhile p hafter
  · intro c hc
    rw [trimBy, List.getLast?_reverse] at hc
    obtain ⟨r, hr⟩ := List.head?_eq_some_iff.1 hc
    exact head_dropWhile p hr

/-- Whether a text has a character that is no blank. -/
def HasBody (s : List Char) : Prop := ∃ c ∈ s, isBlank c = false

/-- Whether a text ends in no blank. -/
def EndsInBody (s : List Char) : Prop := ∀ c, s.getLast? = some c → isBlank c = false

end Hotload.Text
