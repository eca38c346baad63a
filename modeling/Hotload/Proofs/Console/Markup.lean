import Hotload.Console.Tag
import Hotload.Proofs.Text.Blank

/-!
Escaped texts as they are shown. What is shown differs from the text in backslashes alone: one is missing before each
bracket that opens no tag, and a single one at the end is doubled. A text is shown as it is exactly if it has neither.
-/
namespace Hotload.Console

open Text (head_dropWhile)

variable {c : Char} {s t r tag rest : List Char}

theorem tagAt_eq_some (h : tagAt t = some (tag, rest)) :
    ∃ c body, tag = '[' :: c :: body ++ [']'] ∧ t = tag ++ rest ∧ startsTag c = true ∧ ∀ d ∈ body, inTag d = true := by
  unfold tagAt at h
  split at h
  · next c r =>
    split at h
    · next hc =>
      split at h
      · next rest' hd =>
        simp only [Option.some.injEq, Prod.mk.injEq] at h
        obtain ⟨rfl, rfl⟩ := h
        refine ⟨c, r.takeWhile inTag, rfl, ?_, hc, fun d hd => List.mem_takeWhile_imp hd⟩
        have hr := List.takeWhile_append_dropWhile (p := inTag) (l := r)
        rw [hd] at hr
        simp [hr]
      · cases h
    · cases h
  · cases h

/-- A text is read tag by tag: backslashes at its end, or a tag or another character after some backslashes. -/
theorem induction_tags {p : List Char → Prop} (ends : ∀ n, p (backslashes n))
    (tag : ∀ n t tag rest, tagAt t = some (tag, rest) → p rest → p (backslashes n ++ t))
    (plain : ∀ n c r, c ≠ '\\' → tagAt (c :: r) = none → p r → p (backslashes n ++ c :: r)) (s : List Char) : p s := by
  have hs : s.takeWhile isBackslash ++ s.dropWhile isBackslash = s := List.takeWhile_append_dropWhile
  have hb : s.takeWhile isBackslash = backslashes (s.takeWhile isBackslash).length :=
    List.eq_replicate_of_mem fun c hc => by simpa [isBackslash] using List.mem_takeWhile_imp hc
  generalize (s.takeWhile isBackslash).length = n at hb
  rw [hb] at hs
  cases ht : tagAt (s.dropWhile isBackslash) with
  | some found =>
    obtain ⟨text, rest⟩ := found
    have hlt := length_of_tagAt ht
    have hle := length_dropWhile_le isBackslash s
    rw [← hs]
    exact tag n _ text rest ht (induction_tags ends tag plain rest)
  | none =>
    cases hd : s.dropWhile isBackslash with
    | nil =>
      rw [← hs, hd, List.append_nil]
      exact ends n
    | cons c r =>
      have hlt : r.length < s.length := by
        have hle := length_dropWhile_le isBackslash s
        rw [hd] at hle
        exact hle
      have hc : c ≠ '\\' := by
        rintro rfl
        cases head_dropWhile isBackslash hd
      rw [hd] at ht
      rw [← hs, hd]
      exact plain n c r hc ht (induction_tags ends tag plain r)
termination_by s.length

/-- Whether the first bracket in a text is a closing one. -/
def closes (s : List Char) : Bool :=
  (s.dropWhile inTag).head? == some ']'

/-- Whether a bracket opens a tag before a text. -/
def opensBefore : List Char → Bool
  | [] => false
  | c :: r => startsTag c && closes r

theorem isSome_tagAt (r : List Char) : (tagAt ('[' :: r)).isSome = opensBefore r := by
  cases r with
  | nil => rfl
  | cons c r =>
    rw [tagAt, opensBefore, closes]
    cases hc : startsTag c with
    | false => rfl
    | true =>
      rw [if_pos rfl, Bool.true_and]
      cases hd : r.dropWhile inTag with
      | nil => rfl
      | cons d rest =>
        by_cases hd' : d = ']'
        · subst hd'
          rfl
        · have hne : (some d == some ']') = false := by simpa using hd'
          simp only [List.head?_cons, hne]
          split
          · next h => exact absurd (List.cons.inj h).1 hd'
          · rfl

theorem tagAt_of_ne (hc : c ≠ '[') : tagAt (c :: r) = none := by
  unfold tagAt
  split
  · next h => exact absurd (List.cons.inj h).1 hc
  · rfl

theorem closes_cons (c : Char) (r : List Char) : closes (c :: r) = if inTag c then closes r else c == ']' := by
  rw [closes, closes, List.dropWhile_cons]
  split <;> rfl

theorem closes_append_backslash (s : List Char) : closes (s ++ ['\\']) = closes s := by
  induction s with
  | nil => rfl
  | cons c s ih => rw [List.cons_append, closes_cons, closes_cons, ih]

theorem opensBefore_append_backslash (r : List Char) : opensBefore (r ++ ['\\']) = opensBefore r := by
  cases r with
  | nil => rfl
  | cons c r => rw [List.cons_append, opensBefore, opensBefore, closes_append_backslash]

/-- A backslash at the end of a text opens no tag and hinders none. -/
theorem tagAt_append_backslash (s : List Char) : tagAt (s ++ ['\\']) = none ↔ tagAt s = none := by
  cases s with
  | nil => decide
  | cons c r =>
    rw [List.cons_append]
    by_cases hc : c = '['
    · rw [hc, ← Option.not_isSome_iff_eq_none, ← Option.not_isSome_iff_eq_none, isSome_tagAt, isSome_tagAt,
        opensBefore_append_backslash]
    · rw [tagAt_of_ne hc, tagAt_of_ne hc]

/-- What stands behind a tag is nothing to it. -/
theorem tagAt_append (h : tagAt t = some (tag, rest)) (s : List Char) : tagAt (tag ++ s) = some (tag, s) := by
  obtain ⟨c, body, rfl, -, hc, hbody⟩ := tagAt_eq_some h
  have htake : (body ++ ']' :: s).takeWhile inTag = body := by
    rw [List.takeWhile_append_of_pos hbody, List.takeWhile_cons_of_neg (by decide), List.append_nil]
  have hdrop : (body ++ ']' :: s).dropWhile inTag = ']' :: s := by
    rw [List.dropWhile_append_of_pos hbody, List.dropWhile_cons_of_neg (by decide)]
  simp [tagAt, hc, htake, hdrop]

/-- A text without one backslash before each bracket that opens no tag. -/
def thin : List Char → List Char
  | [] => []
  | c :: r => if c = '\\' ∧ r.head? = some '[' ∧ tagAt r = none then thin r else c :: thin r

theorem thin_cons_of_ne (hc : c ≠ '\\') (r : List Char) : thin (c :: r) = c :: thin r :=
  if_neg fun h => hc h.1

theorem thin_cons_of_head (hr : r.head? ≠ some '[') (c : Char) : thin (c :: r) = c :: thin r :=
  if_neg fun h => hr h.2.1

theorem head?_backslashes_append (n : Nat) (t : List Char) : (backslashes (n + 1) ++ t).head? = some '\\' := rfl

/-- Of several backslashes before a bracket that opens no tag one is lost. -/
theorem thin_backslashes (n : Nat) (t : List Char) :
    thin (backslashes (n + 1) ++ t) =
      backslashes (if t.head? = some '[' ∧ tagAt t = none then n else n + 1) ++ thin t := by
  induction n with
  | zero =>
    change thin ('\\' :: t) = _
    rw [thin]
    by_cases h : t.head? = some '[' ∧ tagAt t = none
    · rw [if_pos ⟨rfl, h⟩, if_pos h]
      rfl
    · rw [if_neg fun h' => h h'.2, if_neg h]
      rfl
  | succ n ih =>
    have hhead : (backslashes (n + 1) ++ t).head? ≠ some '[' := by
      rw [head?_backslashes_append]
      decide
    change thin ('\\' :: (backslashes (n + 1) ++ t)) = _
    rw [thin_cons_of_head hhead, ih]
    split <;> rfl

theorem thin_body {body : List Char} (hbody : ∀ d ∈ body, inTag d = true) (rest : List Char) :
    thin (body ++ ']' :: rest) = body ++ ']' :: thin rest := by
  induction body with
  | nil => exact thin_cons_of_ne (by decide) rest
  | cons c body ih =>
    have hhead : (body ++ ']' :: rest).head? ≠ some '[' := by
      intro h
      cases body with
      | nil => cases h
      | cons d body =>
        cases h
        exact absurd (hbody '[' (by simp)) (by decide)
    rw [List.cons_append, thin_cons_of_head hhead, ih fun d hd => hbody d (List.mem_cons_of_mem c hd)]
    rfl

theorem inTag_of_startsTag (hc : startsTag c = true) : inTag c = true := by
  by_cases hopen : c = '['
  · subst hopen
    revert hc
    decide
  · by_cases hclose : c = ']'
    · subst hclose
      revert hc
      decide
    · simp [inTag, hopen, hclose]

theorem thin_tag (h : tagAt t = some (tag, rest)) : thin t = tag ++ thin rest := by
  obtain ⟨c, body, rfl, rfl, hc, hbody⟩ := tagAt_eq_some h
  have hin : ∀ d ∈ c :: body, inTag d = true := by
    intro d hd
    obtain rfl | hd := List.mem_cons.1 hd
    · exact inTag_of_startsTag hc
    · exact hbody d hd
  have hthin := thin_body hin rest
  simp only [List.cons_append, List.append_assoc, List.nil_append] at hthin ⊢
  rw [thin_cons_of_ne (by decide), hthin]

/-- Whether a bracket opens a tag before a text: the tag's name starts with a small letter or a mark, and it ends before
another bracket opens. -/
def OpensTag (after : List Char) : Prop :=
  ∃ c body rest, after = c :: body ++ ']' :: rest ∧ startsTag c = true ∧ ∀ d ∈ body, inTag d = true

theorem closes_iff : closes s = true ↔ ∃ body rest, s = body ++ ']' :: rest ∧ ∀ d ∈ body, inTag d = true := by
  constructor
  · intro h
    have hs := List.takeWhile_append_dropWhile (p := inTag) (l := s)
    rw [closes] at h
    cases hd : s.dropWhile inTag with
    | nil =>
      rw [hd] at h
      cases h
    | cons d rest =>
      rw [hd, beq_iff_eq] at h
      cases h
      rw [hd] at hs
      exact ⟨_, rest, hs.symm, fun d hd => List.mem_takeWhile_imp hd⟩
  · rintro ⟨body, rest, rfl, hbody⟩
    rw [closes, List.dropWhile_append_of_pos hbody]
    rfl

theorem opensBefore_iff : opensBefore r = true ↔ OpensTag r := by
  cases r with
  | nil => simp [opensBefore, OpensTag]
  | cons c r =>
    rw [opensBefore, Bool.and_eq_true, closes_iff]
    constructor
    · rintro ⟨hc, body, rest, rfl, hbody⟩
      exact ⟨c, body, rest, rfl, hc, hbody⟩
    · rintro ⟨c', body, rest, hr, hc, hbody⟩
      cases hr
      exact ⟨hc, body, rest, rfl, hbody⟩

theorem opensTag_iff : OpensTag r ↔ tagAt ('[' :: r) ≠ none := by
  rw [← opensBefore_iff, ← isSome_tagAt, Option.isSome_iff_ne_none]

/-- A text in which a bracket opens a tag wherever a backslash stands before it, and which does not end in a single
backslash. -/
structure Verbatim (s : List Char) : Prop where
  bracket : ∀ before after, s = before ++ '\\' :: '[' :: after → OpensTag after
  ending : ∀ before, s = before ++ ['\\'] → before.getLast? = some '\\'

theorem verbatim_of_notMem (h : '\\' ∉ s) : Verbatim s where
  bracket before after hs := absurd (by simp [hs]) h
  ending before hs := absurd (by simp [hs]) h

theorem length_thin_le (s : List Char) : (thin s).length ≤ s.length := by
  induction s with
  | nil => exact Nat.le_refl 0
  | cons c r ih =>
    rw [thin]
    split
    · exact Nat.le_succ_of_le ih
    · exact Nat.succ_le_succ ih

/-- A text that loses nothing keeps all of its length. -/
theorem thin_eq_of_length (h : s.length ≤ (thin s).length) : thin s = s := by
  induction s with
  | nil => rfl
  | cons c r ih =>
    rw [thin] at h ⊢
    split at h
    · exact absurd (length_thin_le r) (Nat.not_le_of_lt h)
    · next hno =>
      rw [if_neg hno, ih (Nat.le_of_succ_le_succ h)]

theorem thin_eq_iff : thin s = s ↔ ∀ before after, s = before ++ '\\' :: '[' :: after → OpensTag after := by
  induction s with
  | nil => simp [thin]
  | cons c r ih =>
    rw [thin]
    split
    · next h =>
      obtain ⟨rfl, hhead, htag⟩ := h
      constructor
      · intro hthin
        have hle := length_thin_le r
        rw [hthin] at hle
        exact absurd hle (Nat.not_succ_le_self _)
      · intro hall
        obtain ⟨after, rfl⟩ := List.head?_eq_some_iff.1 hhead
        exact absurd htag (opensTag_iff.1 (hall [] after rfl))
    · next h =>
      rw [List.cons.injEq, and_iff_right rfl, ih]
      constructor
      · intro hall before after hs
        cases before with
        | nil =>
          cases hs
          exact opensTag_iff.2 fun hnone => h ⟨rfl, rfl, hnone⟩
        | cons d before =>
          cases hs
          exact hall before after rfl
      · intro hall before after hs
        exact hall (c :: before) after (congrArg (c :: ·) hs)

theorem thin_append_backslash (s : List Char) : thin (s ++ ['\\']) = thin s ++ ['\\'] := by
  induction s with
  | nil => rfl
  | cons c r ih =>
    have hhead : (r ++ ['\\']).head? = some '[' ↔ r.head? = some '[' := by
      cases r <;> simp
    rw [List.cons_append, thin, thin, ih]
    simp only [tagAt_append_backslash, hhead]
    split <;> rfl

theorem endsInLoneBackslash_append (before : List Char) (hc : c ≠ '\\') (s : List Char) :
    endsInLoneBackslash (before ++ c :: s) = endsInLoneBackslash s := by
  rw [endsInLoneBackslash, endsInLoneBackslash, List.reverse_append, List.reverse_cons, List.append_assoc]
  cases s.reverse with
  | nil => simp [hc]
  | cons d t =>
    have hc' : (some c != some '\\') = true := by simpa using hc
    cases t <;> simp [hc']

theorem endsInLoneBackslash_concat (before : List Char) (c : Char) :
    endsInLoneBackslash (before ++ [c]) = (decide (c = '\\') && before.getLast? != some '\\') := by
  simp [endsInLoneBackslash, List.head?_reverse]

theorem endsInLoneBackslash_iff :
    endsInLoneBackslash s = true ↔ ∃ before, s = before ++ ['\\'] ∧ before.getLast? ≠ some '\\' := by
  rcases List.eq_nil_or_concat s with rfl | ⟨before, c, rfl⟩
  · simp [endsInLoneBackslash]
  · rw [List.concat_eq_append, endsInLoneBackslash_concat, Bool.and_eq_true, decide_eq_true_eq, bne_iff_ne]
    constructor
    · rintro ⟨rfl, hlast⟩
      exact ⟨before, rfl, hlast⟩
    · rintro ⟨before', hs, hlast⟩
      obtain ⟨rfl, hc⟩ := List.append_inj' hs rfl
      exact ⟨(List.cons.inj hc).1, hlast⟩

/-- A text whose closing backslash, if it is a single one, is doubled. -/
def sealed (s : List Char) : List Char :=
  if endsInLoneBackslash s then s ++ ['\\'] else s

/-- What is shown of a text: only backslashes are lost, and only a closing one is added. -/
def shown (s : List Char) : List Char :=
  thin (sealed s)

theorem shown_of_lone (h : endsInLoneBackslash s = true) : shown s = thin s ++ ['\\'] := by
  rw [shown, sealed, if_pos h, thin_append_backslash]

theorem shown_of_not_lone (h : ¬endsInLoneBackslash s = true) : shown s = thin s := by
  rw [shown, sealed, if_neg h]

/-- A text is shown as it is exactly if it is one of these. -/
theorem shown_eq_iff : shown s = s ↔ Verbatim s := by
  by_cases h : endsInLoneBackslash s = true
  · obtain ⟨before, hs, hlast⟩ := endsInLoneBackslash_iff.1 h
    rw [shown_of_lone h, hs, thin_append_backslash]
    constructor
    · intro hshown
      have hbefore : thin before ++ ['\\'] = before := List.append_cancel_right hshown
      rw [← hbefore, List.getLast?_concat] at hlast
      exact absurd rfl hlast
    · intro hv
      exact absurd (hv.ending before rfl) hlast
  · rw [shown_of_not_lone h, thin_eq_iff]
    constructor
    · intro hall
      refine ⟨hall, fun before hs => ?_⟩
      by_contra hlast
      exact h (endsInLoneBackslash_iff.2 ⟨before, hs, hlast⟩)
    · exact Verbatim.bracket

theorem filter_thin (s : List Char) : (thin s).filter (· ≠ '\\') = s.filter (· ≠ '\\') := by
  induction s with
  | nil => rfl
  | cons c r ih =>
    rw [thin]
    split
    · next h =>
      obtain ⟨rfl, -⟩ := h
      rw [List.filter_cons_of_neg (by decide), ih]
    · rw [List.filter_cons, List.filter_cons, ih]

/-- Whatever is shown of a text, only backslashes come and go: brackets stay, and none of them is taken for a tag. -/
theorem filter_shown (s : List Char) : (shown s).filter (· ≠ '\\') = s.filter (· ≠ '\\') := by
  rw [shown, filter_thin, sealed]
  split
  · simp
  · rfl

end Hotload.Console
