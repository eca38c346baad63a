import Hotload.Proofs.Console.Markup
import Hotload.StandIn.Markup

/-!
Escaping and rendering, piece by piece. A text is a row of pieces, and escaping changes only how many backslashes stand
before a tag, so the pieces of an escaped text are known and no tag in it is read as one.
-/
namespace Hotload.StandIn.Markup

open Console

variable {n : Nat} {c : Char} {s t r tag rest : List Char}

theorem dropWhile_backslashes (n : Nat) (h : t.head? ≠ some '\\') :
    (backslashes n ++ t).dropWhile isBackslash = t ∧ (backslashes n ++ t).takeWhile isBackslash = backslashes n := by
  induction n with
  | zero =>
    cases t with
    | nil => exact ⟨rfl, rfl⟩
    | cons c t =>
      have hc : isBackslash c = false := by
        rw [isBackslash, decide_eq_false_iff_not]
        rintro rfl
        exact h rfl
      exact ⟨List.dropWhile_cons_of_neg (by simp [hc]), List.takeWhile_cons_of_neg (by simp [hc])⟩
  | succ n ih =>
    have hb : isBackslash '\\' = true := rfl
    constructor
    · change ('\\' :: (backslashes n ++ t)).dropWhile isBackslash = t
      rw [List.dropWhile_cons_of_pos hb]
      exact ih.1
    · change ('\\' :: (backslashes n ++ t)).takeWhile isBackslash = _
      rw [List.takeWhile_cons_of_pos hb, ih.2]
      rfl

theorem pieces_end (n : Nat) : pieces (backslashes n) = if n = 0 then [] else [.plain (backslashes n)] := by
  obtain ⟨hd, ht⟩ := dropWhile_backslashes (t := []) n (by simp)
  rw [List.append_nil] at hd ht
  rw [pieces]
  split
  · next h => rw [hd] at h; cases h
  · split
    · cases n <;> rfl
    · next h => rw [hd] at h; cases h

theorem pieces_tag (n : Nat) (h : tagAt t = some (tag, rest)) :
    pieces (backslashes n ++ t) = .tag n tag :: pieces rest := by
  obtain ⟨c, body, htag, ht, -, -⟩ := tagAt_eq_some h
  obtain ⟨hdrop, htake⟩ := dropWhile_backslashes (t := t) n (by rw [ht, htag]; simp)
  rw [pieces]
  split
  · next tag' rest' h' =>
    rw [hdrop, h] at h'
    cases h'
    rw [htake, backslashes, List.length_replicate]
  · next h' =>
    rw [hdrop, h] at h'
    cases h'

theorem pieces_plain (n : Nat) (hc : c ≠ '\\') (h : tagAt (c :: r) = none) :
    pieces (backslashes n ++ c :: r) = .plain (backslashes n ++ [c]) :: pieces r := by
  obtain ⟨hdrop, htake⟩ := dropWhile_backslashes (t := c :: r) n (by simpa using hc)
  rw [pieces]
  split
  · next h' =>
    rw [hdrop, h] at h'
    cases h'
  · split
    · next h' =>
      rw [hdrop] at h'
      cases h'
    · next c' r' h' =>
      rw [hdrop] at h'
      cases h'
      rw [htake]

theorem closes_backslashes (n : Nat) (t : List Char) : closes (backslashes n ++ t) = closes t := by
  induction n with
  | zero => rfl
  | succ n ih => exact (closes_cons '\\' (backslashes n ++ t)).trans ih

/-- A text with its tags escaped, whatever it ends in. -/
def protect (s : List Char) : List Char :=
  (pieces s).flatMap Piece.escaped

theorem protect_end (n : Nat) : protect (backslashes n) = backslashes n := by
  rw [protect, pieces_end]
  cases n with
  | zero => rfl
  | succ n => exact List.append_nil _

theorem protect_tag (n : Nat) (h : tagAt t = some (tag, rest)) :
    protect (backslashes n ++ t) = backslashes (2 * n + 1) ++ (tag ++ protect rest) := by
  rw [protect, pieces_tag n h, List.flatMap_cons, Piece.escaped, List.append_assoc]
  rfl

theorem protect_plain (n : Nat) (hc : c ≠ '\\') (h : tagAt (c :: r) = none) :
    protect (backslashes n ++ c :: r) = backslashes n ++ c :: protect r := by
  rw [protect, pieces_plain n hc h, List.flatMap_cons, Piece.escaped, List.append_assoc]
  rfl

theorem head?_protect (s : List Char) : (protect s).head? = s.head? ∨ (protect s).head? = some '\\' := by
  induction s using induction_tags with
  | ends n => exact .inl (congrArg _ (protect_end n))
  | tag n t tag rest h _ =>
    rw [protect_tag n h]
    exact .inr rfl
  | plain n c r hc h _ =>
    rw [protect_plain n hc h]
    cases n <;> exact .inl rfl

theorem closes_protect (s : List Char) : closes (protect s) = closes s := by
  induction s using induction_tags with
  | ends n => rw [protect_end]
  | tag n t tag rest h _ =>
    obtain ⟨c, body, rfl, rfl, -, -⟩ := tagAt_eq_some h
    rw [protect_tag n h, closes_backslashes, closes_backslashes]
    rfl
  | plain n c r hc h ih =>
    rw [protect_plain n hc h, closes_backslashes, closes_backslashes, closes_cons, closes_cons, ih]

theorem startsTag_backslash : startsTag '\\' = false := by decide

theorem opensBefore_protect (r : List Char) : opensBefore (protect r) = opensBefore r := by
  cases r with
  | nil => exact congrArg _ (protect_end 0)
  | cons c r =>
    cases hc : startsTag c with
    | true =>
      have hslash : c ≠ '\\' := by
        rintro rfl
        cases startsTag_backslash.symm.trans hc
      have hbracket : c ≠ '[' := by
        rintro rfl
        revert hc
        decide
      rw [← List.nil_append (c :: r)]
      rw [show ([] : List Char) = backslashes 0 from rfl, protect_plain 0 hslash (tagAt_of_ne hbracket)]
      change (startsTag c && closes (protect r)) = (startsTag c && closes r)
      rw [closes_protect]
    | false =>
      have hnot : ∀ t : List Char, (∀ d, t.head? = some d → startsTag d = false) → opensBefore t = false := by
        intro t ht
        cases t with
        | nil => rfl
        | cons d t => rw [opensBefore, ht d rfl, Bool.false_and]
      have hright : opensBefore (c :: r) = false := hnot _ fun d hd => by
        cases hd
        exact hc
      rw [hright]
      apply hnot
      intro d hd
      obtain hsame | hslash := head?_protect (c :: r)
      · rw [hsame] at hd
        cases hd
        exact hc
      · rw [hslash] at hd
        cases hd
        exact startsTag_backslash

/-- A bracket that opens no tag opens none once what follows is escaped. -/
theorem tagAt_protect (h : tagAt (c :: r) = none) : tagAt (c :: protect r) = none := by
  by_cases hc : c = '['
  · subst hc
    rw [← Option.not_isSome_iff_eq_none, isSome_tagAt, opensBefore_protect, ← isSome_tagAt, h]
    decide
  · exact tagAt_of_ne hc

theorem protect_append_backslash (s : List Char) : protect (s ++ ['\\']) = protect s ++ ['\\'] := by
  induction s using induction_tags with
  | ends n =>
    have hsucc : backslashes n ++ ['\\'] = backslashes (n + 1) := List.replicate_succ'.symm
    rw [protect_end, hsucc, protect_end]
  | tag n t tag rest h ih =>
    obtain ⟨-, -, -, ht, -, -⟩ := tagAt_eq_some h
    rw [protect_tag n h, ht, List.append_assoc, List.append_assoc, protect_tag n (tagAt_append h _), ih]
    simp only [List.append_assoc]
  | plain n c r hc h ih =>
    have h' : tagAt (c :: (r ++ ['\\'])) = none := (tagAt_append_backslash (c :: r)).2 h
    rw [protect_plain n hc h, List.append_assoc, List.cons_append, protect_plain n hc h', ih, List.append_assoc,
      List.cons_append]

theorem endsInLoneBackslash_protect (s : List Char) : endsInLoneBackslash (protect s) = endsInLoneBackslash s := by
  have hclosing : ']' ≠ '\\' := by decide
  induction s using induction_tags with
  | ends n => rw [protect_end]
  | tag n t tag rest h ih =>
    obtain ⟨c, body, rfl, rfl, -, -⟩ := tagAt_eq_some h
    have hshape : ∀ (k : Nat) (s : List Char), backslashes k ++ ('[' :: c :: body ++ [']'] ++ s) =
        (backslashes k ++ '[' :: c :: body) ++ ']' :: s := fun k s => by simp
    rw [protect_tag n h, hshape, hshape, endsInLoneBackslash_append _ hclosing, endsInLoneBackslash_append _ hclosing, ih]
  | plain n c r hc h ih =>
    rw [protect_plain n hc h, endsInLoneBackslash_append _ hc, endsInLoneBackslash_append _ hc, ih]

theorem escape_eq (s : List Char) : escape s = protect (sealed s) := by
  change (if endsInLoneBackslash (protect s) then protect s ++ ['\\'] else protect s) = _
  rw [endsInLoneBackslash_protect, sealed]
  split
  · exact (protect_append_backslash s).symm
  · rfl

theorem shown_plain (n : Nat) (c : Char) :
    (Piece.plain (backslashes (n + 1) ++ [c])).shown = backslashes (if c = '[' then n else n + 1) ++ [c] := by
  have hlong : 1 < (backslashes (n + 1) ++ [c]).length := by simp [backslashes]
  rw [Piece.shown, List.getLast?_concat]
  by_cases hc : c = '['
  · simp only [hc] at hlong ⊢
    simp only [hlong]
    rfl
  · simp [hc]

theorem shown_escaped_tag (n : Nat) (tag : List Char) :
    (Piece.tag (2 * n + 1) tag).shown = backslashes n ++ tag := by
  have hhalf : (2 * n + 1) / 2 = n := by omega
  have hodd : (2 * n + 1) % 2 = 1 := by omega
  rw [Piece.shown, hhalf, if_pos hodd]

end Hotload.StandIn.Markup
