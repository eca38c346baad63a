import Hotload.Proofs.Text.Blank
import Hotload.StandIn.Cells
import Mathlib.Data.List.Induction

/-!
Lines that a text is printed on. Words are put on the open line for as long as they fit without the blanks after them, so
a text stays on one line exactly if it fits without those at its end; it is printed as it is if no blanks are dropped
there and nothing is cut off.
-/
namespace Hotload.StandIn

open Text

variable {width : Nat} {a b s w y : List Char} {ws : List (List Char)} {f : Fill} {c : Char}

theorem cells_joiner (c : Char) (s : List Char) : cells (joiner :: c :: s) = cells s := by
  simp [cells, cellsOf]

theorem cells_cons (hc : c ≠ joiner) (s : List Char) : cells (c :: s) = charCells c + cells s := by
  cases s <;> simp [cells, cellsOf, hc]

theorem charCells_le (c : Char) : charCells c ≤ 2 := by
  unfold charCells
  split
  · omega
  · split
    · omega
    · split <;> omega

/-- Cells add up unless a joiner at the end of the first text takes a character of the second one. -/
theorem cells_append (h : a.getLast? ≠ some joiner) (b : List Char) : cells (a ++ b) = cells a + cells b := by
  induction a using cellsOf.induct with
  | case1 => simp [cells, cellsOf]
  | case2 => exact absurd rfl h
  | case3 c a ih =>
    have ha : a.getLast? ≠ some joiner := by
      intro hlast
      obtain ⟨before, rfl⟩ := List.getLast?_eq_some_iff.1 hlast
      exact h (List.getLast?_concat (l := joiner :: c :: before))
    rw [List.cons_append, List.cons_append, cells_joiner, cells_joiner, ih ha]
  | case4 c a hc ih =>
    have ha : a.getLast? ≠ some joiner := by
      intro hlast
      obtain ⟨before, rfl⟩ := List.getLast?_eq_some_iff.1 hlast
      exact h (List.getLast?_concat (l := c :: before))
    rw [List.cons_append, cells_cons hc, cells_cons hc, ih ha, Nat.add_assoc]

theorem cells_le_append (a b : List Char) : cells a ≤ cells (a ++ b) := by
  induction a using cellsOf.induct with
  | case1 => exact Nat.zero_le _
  | case2 => exact Nat.zero_le _
  | case3 c a ih =>
    rw [List.cons_append, List.cons_append, cells_joiner, cells_joiner]
    exact ih
  | case4 c a hc ih =>
    rw [List.cons_append, cells_cons hc, cells_cons hc]
    exact Nat.add_le_add_left ih _

/-- The cells of a text in which no character joins its neighbours. -/
def looseCells : List Char → Nat
  | [] => 0
  | c :: s => charCells c + looseCells s

theorem looseCells_concat (s : List Char) (c : Char) : looseCells (s ++ [c]) = looseCells s + charCells c := by
  induction s with
  | nil => exact Nat.add_comm _ _
  | cons d s ih => rw [List.cons_append, looseCells, looseCells, ih, Nat.add_assoc]

theorem cells_le_looseCells (s : List Char) : cells s ≤ looseCells s := by
  induction s using cellsOf.induct with
  | case1 => exact Nat.zero_le _
  | case2 => exact Nat.zero_le _
  | case3 c a ih =>
    rw [cells_joiner, looseCells, looseCells]
    omega
  | case4 c a hc ih =>
    rw [cells_cons hc]
    exact Nat.add_le_add_left ih _

theorem trimRight_concat (s : List Char) (c : Char) :
    trimRight (s ++ [c]) = if isBlank c then trimRight s else s ++ [c] := by
  rw [trimRight, List.reverse_append, List.reverse_cons, List.reverse_nil, List.nil_append, List.cons_append,
    List.nil_append, List.dropWhile_cons]
  split
  · rfl
  · simp

theorem trimRight_of_endsInBody (h : EndsInBody s) : trimRight s = s := by
  induction s using List.reverseRecOn with
  | nil => rfl
  | append_singleton s c _ =>
    rw [trimRight_concat, h c List.getLast?_concat]
    rfl

theorem trimRight_append (a : List Char) (hb : HasBody b) : trimRight (a ++ b) = a ++ trimRight b := by
  induction b using List.reverseRecOn with
  | nil =>
    obtain ⟨c, hc, -⟩ := hb
    cases hc
  | append_singleton b c ih =>
    rw [← List.append_assoc, trimRight_concat, trimRight_concat]
    split
    · next hblank =>
      apply ih
      obtain ⟨d, hd, hbody⟩ := hb
      obtain hd | hd := List.mem_append.1 hd
      · exact ⟨d, hd, hbody⟩
      · cases List.mem_singleton.1 hd
        cases hblank.symm.trans hbody
    · exact List.append_assoc a b [c]

theorem trimRight_append_blanks (a : List Char) (hb : ∀ c ∈ b, isBlank c = true) : trimRight (a ++ b) = trimRight a := by
  induction b using List.reverseRecOn with
  | nil => rw [List.append_nil]
  | append_singleton b c ih =>
    rw [← List.append_assoc, trimRight_concat, if_pos (hb c (by simp)), ih fun d hd => hb d (by simp [hd])]

/-- A text is its trimmed form with blanks after it. -/
theorem exists_trimRight (s : List Char) : ∃ blanks, s = trimRight s ++ blanks ∧ ∀ c ∈ blanks, isBlank c = true := by
  induction s using List.reverseRecOn with
  | nil => exact ⟨[], rfl, nofun⟩
  | append_singleton s c ih =>
    rw [trimRight_concat]
    split
    · next hc =>
      obtain ⟨blanks, hs, hblanks⟩ := ih
      refine ⟨blanks ++ [c], ?_, fun d hd => ?_⟩
      · rw [← List.append_assoc, ← hs]
      · obtain hd | hd := List.mem_append.1 hd
        · exact hblanks d hd
        · rwa [List.mem_singleton.1 hd]
    · exact ⟨[], (List.append_nil _).symm, nofun⟩

/-- What follows a text keeps what trimming leaves of it. -/
theorem cells_trimRight_le (a b : List Char) : cells (trimRight a) ≤ cells (trimRight (a ++ b)) := by
  by_cases hb : HasBody b
  · obtain ⟨blanks, ha, -⟩ := exists_trimRight a
    rw [trimRight_append a hb]
    conv_rhs => rw [ha, List.append_assoc]
    exact cells_le_append _ _
  · have hblanks : ∀ c ∈ b, isBlank c = true := fun c hc => by
      cases h : isBlank c with
      | true => rfl
      | false => exact absurd ⟨c, hc, h⟩ hb
    rw [trimRight_append_blanks a hblanks]

/-- Words one after another: each has a character that is no blank, and all but the last one end in a blank. -/
def Seamed : List (List Char) → Prop
  | [] => True
  | w :: ws => HasBody w ∧ (ws ≠ [] → ∃ c, w.getLast? = some c ∧ isBlank c = true) ∧ Seamed ws

/-- What follows the blanks after a word is the next word, if it is anything. -/
theorem hasBody_of_dropWhile (s : List Char) (h : s.dropWhile isBlank ≠ []) : HasBody (s.dropWhile isBlank) := by
  obtain ⟨c, r, hr⟩ := List.exists_cons_of_ne_nil h
  have hc := head_dropWhile isBlank hr
  rw [hr]
  exact ⟨c, List.mem_cons_self, hc⟩

/-- A word ends where the next one begins, or with the text. -/
theorem nextWord_spec (h : HasBody s) : ∃ w rest, nextWord s = (w, rest) ∧ s = w ++ rest ∧ HasBody w ∧
    (rest = [] ∨ HasBody rest ∧ ∃ c, w.getLast? = some c ∧ isBlank c = true) := by
  obtain ⟨c, hc, hbody⟩ := h
  have hs := List.takeWhile_append_dropWhile (p := isBlank) (l := s)
  cases hrest : s.dropWhile isBlank with
  | nil =>
    rw [hrest, List.append_nil] at hs
    rw [← hs] at hc
    cases (List.mem_takeWhile_imp hc).symm.trans hbody
  | cons d r =>
    have hd := head_dropWhile isBlank hrest
    have hword : (d :: r).takeWhile (!isBlank ·) = d :: r.takeWhile (!isBlank ·) :=
      List.takeWhile_cons_of_pos (by simp [hd])
    have hr := List.takeWhile_append_dropWhile (p := (!isBlank ·)) (l := d :: r)
    have hstop : ∀ e t, (d :: r).dropWhile (!isBlank ·) = e :: t → isBlank e = true := fun e t he => by
      simpa using head_dropWhile (!isBlank ·) he
    have hnext : nextWord s = (s.takeWhile isBlank ++ (d :: r.takeWhile (!isBlank ·)) ++
        ((d :: r).dropWhile (!isBlank ·)).takeWhile isBlank, ((d :: r).dropWhile (!isBlank ·)).dropWhile isBlank) := by
      rw [nextWord, hrest, hword]
      rfl
    rw [hword] at hr
    generalize (d :: r).dropWhile (!isBlank ·) = after at hr hstop hnext
    have hafter := List.takeWhile_append_dropWhile (p := isBlank) (l := after)
    refine ⟨_, _, hnext, ?_, ⟨d, by simp, hd⟩, ?_⟩
    · rw [List.append_assoc, hafter, List.append_assoc, hr, ← hrest, hs]
    · by_cases hnil : after.dropWhile isBlank = []
      · exact .inl hnil
      · refine .inr ⟨hasBody_of_dropWhile after hnil, ?_⟩
        cases after with
        | nil => exact absurd rfl hnil
        | cons e t =>
          have htrail : (e :: t).takeWhile isBlank ≠ [] := by
            rw [List.takeWhile_cons_of_pos (hstop e t rfl)]
            exact List.cons_ne_nil _ _
          refine ⟨((e :: t).takeWhile isBlank).getLast htrail, ?_, ?_⟩
          · rw [List.getLast?_append, List.getLast?_eq_some_getLast htrail, Option.some_or]
          · exact List.mem_takeWhile_imp (List.getLast_mem htrail)

theorem wordsAux_spec (n : Nat) (hn : s.length ≤ n) (h : HasBody s) :
    Seamed (wordsAux n s) ∧ (wordsAux n s).flatten = s := by
  induction n generalizing s with
  | zero =>
    obtain ⟨c, hc, -⟩ := h
    cases List.length_eq_zero_iff.1 (Nat.le_zero.1 hn)
    cases hc
  | succ n ih =>
    obtain ⟨w, rest, hnext, hs, hw, hrest⟩ := nextWord_spec h
    have hne : w ≠ [] := by
      rintro rfl
      obtain ⟨c, hc, -⟩ := hw
      cases hc
    have hwords : wordsAux (n + 1) s = w :: wordsAux n rest := by
      rw [wordsAux, hnext]
      cases w with
      | nil => exact absurd rfl hne
      | cons c w => rfl
    rw [hwords]
    obtain rfl | ⟨hbody, hlast⟩ := hrest
    · have hnil : wordsAux n [] = [] := by cases n <;> rfl
      rw [hnil, hs]
      exact ⟨⟨hw, absurd rfl, trivial⟩, rfl⟩
    · have hlength : rest.length ≤ n := by
        have hpos := List.length_pos_iff.2 hne
        rw [hs, List.length_append] at hn
        omega
      obtain ⟨hseamed, hflatten⟩ := ih hlength hbody
      exact ⟨⟨hw, fun _ => hlast, hseamed⟩, by rw [List.flatten_cons, hflatten, hs]⟩

/-- One step of cutting: the pieces so far, the open one and its cells. -/
def chopStep (width : Nat) (acc : List (List Char) × List Char × Nat) (c : Char) : List (List Char) × List Char × Nat :=
  if acc.2.2 + charCells c > width then (acc.1 ++ [acc.2.1], [c], charCells c)
  else (acc.1, acc.2.1 ++ [c], acc.2.2 + charCells c)

theorem chop_eq (width : Nat) (s : List Char) :
    chop width s = (s.foldl (chopStep width) ([], [], 0)).1 ++ [(s.foldl (chopStep width) ([], [], 0)).2.1] :=
  rfl

theorem le_of_chopStep (acc : List (List Char) × List Char × Nat) (h : (s.foldl (chopStep width) acc).1 = []) :
    acc.1 = [] ∧ (acc.2.2 ≤ width → acc.2.2 + looseCells s ≤ width) := by
  induction s generalizing acc with
  | nil => exact ⟨h, id⟩
  | cons c s ih =>
    obtain ⟨hdone, hle⟩ := ih _ h
    rw [chopStep] at hdone hle
    split at hdone
    · simp at hdone
    · next hfits =>
      rw [if_neg hfits] at hle
      refine ⟨hdone, fun _ => ?_⟩
      rw [looseCells, ← Nat.add_assoc]
      exact hle (Nat.le_of_not_lt hfits)

/-- A text that is too wide for a line is cut in two or more. -/
theorem dropLast_chop_ne_nil (h : width < cells s) : (chop width s).dropLast ≠ [] := by
  rw [chop_eq, List.dropLast_concat]
  intro hdone
  have hle := (le_of_chopStep ([], [], 0) hdone).2 (Nat.zero_le _)
  have hcells := cells_le_looseCells s
  omega

theorem done_breakLine (f : Fill) (h : f.done ≠ [] ∨ f.line ≠ []) : f.breakLine.done ≠ [] := by
  unfold Fill.breakLine
  split
  · next hline => exact h.resolve_right fun hne => hne (List.isEmpty_iff.1 hline)
  · simp

theorem done_add (w : List Char) (h : f.done ≠ []) : (f.add width w).done ≠ [] := by
  have hbreak := done_breakLine f (.inl h)
  unfold Fill.add
  dsimp only
  split
  · exact h
  · split
    · exact List.append_ne_nil_of_left_ne_nil hbreak _
    · exact hbreak

theorem done_foldl (ws : List (List Char)) (h : f.done ≠ []) : (ws.foldl (Fill.add width) f).done ≠ [] := by
  induction ws generalizing f with
  | nil => exact h
  | cons w ws ih => exact ih (done_add w h)

/-- A word that fits neither on the open line nor, with anything on it, leaves that line behind. -/
theorem done_add_of_lt (hu : f.used = cells f.line) (h : width < f.used + cells (trimRight w)) :
    (f.add width w).done ≠ [] := by
  unfold Fill.add
  dsimp only
  rw [if_neg (Nat.not_le.2 h)]
  split
  · next hwide =>
    obtain ⟨blanks, hw, -⟩ := exists_trimRight w
    have hle := cells_le_append (trimRight w) blanks
    rw [← hw] at hle
    exact List.append_ne_nil_of_right_ne_nil _ (dropLast_chop_ne_nil (Nat.lt_of_lt_of_le hwide hle))
  · apply done_breakLine
    right
    rintro hline
    rw [hline] at hu
    have hzero : cells [] = 0 := rfl
    omega

theorem foldl_add (width : Nat) (hs : Seamed ws) (hd : f.done = []) (hu : f.used = cells f.line)
    (hl : ws ≠ [] → f.line.getLast? ≠ some joiner) (hfits : cells (trimRight f.line) ≤ width) :
    ((ws.foldl (Fill.add width) f).done = [] ↔ cells (trimRight (f.line ++ ws.flatten)) ≤ width) ∧
      ((ws.foldl (Fill.add width) f).done = [] → (ws.foldl (Fill.add width) f).line = f.line ++ ws.flatten) := by
  induction ws generalizing f with
  | nil =>
    rw [List.flatten_nil, List.append_nil]
    exact ⟨iff_of_true hd hfits, fun _ => rfl⟩
  | cons w ws ih =>
    obtain ⟨hw, hlast, hs⟩ := hs
    have hl := hl (List.cons_ne_nil w ws)
    have hsize : cells (trimRight (f.line ++ w)) = f.used + cells (trimRight w) := by
      rw [trimRight_append _ hw, cells_append hl, hu]
    rw [List.foldl_cons, List.flatten_cons, ← List.append_assoc]
    by_cases hfit : f.used + cells (trimRight w) ≤ width
    · have hadd : f.add width w = ⟨[], f.line ++ w, f.used + cells w⟩ := by
        rw [Fill.add, if_pos hfit, hd]
      have hused : f.used + cells w = cells (f.line ++ w) := by
        rw [cells_append hl, hu]
      have hline : ws ≠ [] → (f.line ++ w).getLast? ≠ some joiner := by
        intro hws
        obtain ⟨c, hc, hblank⟩ := hlast hws
        rw [List.getLast?_append, hc, Option.some_or]
        rintro hjoiner
        cases hjoiner
        revert hblank
        decide
      rw [hadd]
      exact ih (f := ⟨[], f.line ++ w, f.used + cells w⟩) hs rfl hused hline (hsize.trans_le hfit)
    · have hdone : (ws.foldl (Fill.add width) (f.add width w)).done ≠ [] :=
        done_foldl ws (done_add_of_lt hu (Nat.lt_of_not_le hfit))
      have hwide := cells_trimRight_le (f.line ++ w) ws.flatten
      rw [hsize] at hwide
      exact ⟨iff_of_false hdone fun hle => hfit (hwide.trans hle), fun h => absurd h hdone⟩

/-- A text is printed on one line exactly if it fits without the blanks at its end. -/
theorem wrap_eq_singleton_iff (h : HasBody s) :
    wrap width s = [y] ↔ cells (trimRight s) ≤ width ∧ cropCells width (cropEnd width s) = y := by
  obtain ⟨hseamed, hflatten⟩ := wordsAux_spec s.length (Nat.le_refl _) h
  have hfold := foldl_add (f := ⟨[], [], 0⟩) width hseamed rfl rfl (fun _ => by simp) (Nat.zero_le _)
  rw [hflatten, List.nil_append] at hfold
  obtain ⟨hdone, hline⟩ := hfold
  rw [wrap, cellWords]
  constructor
  · intro hwrap
    have hd : ((wordsAux s.length s).foldl (Fill.add width) ⟨[], [], 0⟩).done = [] := by
      have hlength := congrArg List.length hwrap
      rw [List.length_map, List.length_append] at hlength
      exact List.length_eq_zero_iff.1 (Nat.succ.inj hlength)
    rw [hd, hline hd] at hwrap
    exact ⟨hdone.1 hd, (List.cons.inj hwrap).1⟩
  · rintro ⟨hfits, rfl⟩
    have hd := hdone.2 hfits
    simp only [hd, hline hd]
    rfl

theorem cropEnd_eq_iff : cropEnd width s = s ↔ s.length ≤ width ∨ EndsInBody s := by
  have htake : ∀ n, s.take (s.length - n) = s ↔ n = 0 ∨ s = [] := fun n => by
    rw [← List.length_eq_zero_iff]
    constructor
    · intro hsame
      have hlength := congrArg List.length hsame
      rw [List.length_take] at hlength
      omega
    · intro h
      apply List.take_of_length_le
      omega
  have hblanks : (s.reverse.takeWhile isBlank).length = 0 ↔ EndsInBody s := by
    rw [List.length_eq_zero_iff, EndsInBody]
    rcases List.eq_nil_or_concat s with rfl | ⟨before, c, rfl⟩
    · simp
    · cases hc : isBlank c <;> simp [hc]
  rw [cropEnd, htake, ← hblanks]
  constructor
  · rintro (hmin | rfl)
    · omega
    · exact .inl (Nat.zero_le _)
  · rintro (hle | hzero)
    · left
      omega
    · left
      omega

theorem length_cropEnd_le (width : Nat) (s : List Char) : (cropEnd width s).length ≤ s.length := by
  rw [cropEnd, List.length_take]
  exact Nat.min_le_right _ _

/-- One step of cropping: the characters so far, their cells and whether the line is full. -/
def cropStep (width : Nat) (acc : List Char × Nat × Bool) (c : Char) : List Char × Nat × Bool :=
  if acc.2.2 then acc
  else if acc.2.1 + charCells c > width then (acc.1 ++ List.replicate (width - acc.2.1) ' ', width, true)
  else (acc.1 ++ [c], acc.2.1 + charCells c, false)

theorem cropCells_eq (width : Nat) (s : List Char) :
    cropCells width s = if cells s ≤ width then s else (s.foldl (cropStep width) ([], 0, false)).1 :=
  rfl

theorem foldl_cropStep_full (s t : List Char) (n : Nat) : s.foldl (cropStep width) (t, n, true) = (t, n, true) := by
  induction s with
  | nil => rfl
  | cons c s ih => exact ih

/-- Characters are taken until one does not fit. -/
theorem foldl_cropStep (q : List Char) (hq : looseCells q ≤ width)
    (h : width < looseCells q + looseCells s) :
    ∃ p c r, s = p ++ c :: r ∧ width < looseCells (q ++ p) + charCells c ∧
      looseCells (q ++ p) ≤ width ∧
      (s.foldl (cropStep width) (q, looseCells q, false)).1 =
        q ++ p ++ List.replicate (width - looseCells (q ++ p)) ' ' := by
  induction s generalizing q with
  | nil => exact absurd hq (Nat.not_le_of_lt h)
  | cons c s ih =>
    rw [looseCells] at h
    by_cases hc : width < looseCells q + charCells c
    · refine ⟨[], c, s, rfl, by simpa using hc, by simpa using hq, ?_⟩
      have hstep : cropStep width (q, looseCells q, false) c =
          (q ++ List.replicate (width - looseCells q) ' ', width, true) := if_pos hc
      rw [List.foldl_cons, hstep, foldl_cropStep_full, List.append_nil]
    · have hsum := looseCells_concat q c
      have hstep : cropStep width (q, looseCells q, false) c =
          (q ++ [c], looseCells (q ++ [c]), false) := by
        rw [hsum]
        exact if_neg hc
      obtain ⟨p, d, r, rfl, hp⟩ := ih (q ++ [c]) (by omega) (by omega)
      rw [List.append_assoc] at hp
      rw [List.foldl_cons, hstep]
      exact ⟨c :: p, d, r, rfl, hp⟩

theorem exists_cropCells (h : width < cells s) : ∃ p c r, s = p ++ c :: r ∧
    width < looseCells p + charCells c ∧ looseCells p ≤ width ∧
    cropCells width s = p ++ List.replicate (width - looseCells p) ' ' := by
  have hwide := cells_le_looseCells s
  have hsum : width < looseCells [] + looseCells s := by
    rw [looseCells]
    omega
  rw [cropCells_eq, if_neg (Nat.not_le_of_lt h)]
  exact foldl_cropStep [] (Nat.zero_le _) hsum

theorem length_cropCells_le (width : Nat) (s : List Char) : (cropCells width s).length ≤ s.length := by
  by_cases h : cells s ≤ width
  · rw [cropCells_eq, if_pos h]
  · obtain ⟨p, c, r, rfl, hover, -, hcrop⟩ := exists_cropCells (Nat.lt_of_not_le h)
    have hc := charCells_le c
    rw [hcrop, List.length_append, List.length_replicate, List.length_append, List.length_cons]
    omega

/-- A line that is too wide loses a character, or a blank takes the place of one that is two cells wide. -/
theorem cropCells_eq_iff : cropCells width s = s ↔ cells s ≤ width := by
  constructor
  · intro hsame
    by_contra h
    obtain ⟨p, c, r, rfl, hover, hfits, hcrop⟩ := exists_cropCells (Nat.lt_of_not_le h)
    rw [hcrop] at hsame
    have hrest := List.append_cancel_left hsame
    have hc : c = ' ' := List.eq_of_mem_replicate (hrest ▸ List.mem_cons_self)
    have hlength := congrArg List.length hrest
    rw [List.length_replicate, List.length_cons] at hlength
    have hone : charCells ' ' = 1 := rfl
    rw [hc, hone] at hover
    omega
  · intro h
    rw [cropCells_eq, if_pos h]

/-- Whatever is printed on one line is no longer than the text, and it is the text if that ends in no blank. -/
theorem wrap_singleton (h : HasBody s) (hw : wrap width s = [y]) :
    y.length ≤ s.length ∧ (EndsInBody s → y = s) := by
  obtain ⟨hfits, rfl⟩ := (wrap_eq_singleton_iff h).1 hw
  refine ⟨(length_cropCells_le _ _).trans (length_cropEnd_le _ _), fun hend => ?_⟩
  rw [trimRight_of_endsInBody hend] at hfits
  rw [cropEnd_eq_iff.2 (.inr hend), cropCells_eq_iff.2 hfits]

/-- A text is printed as it is on one line exactly if it has no more cells than the line, and no blanks at its end after
as many characters. -/
theorem wrap_self_iff (h : HasBody s) :
    wrap width s = [s] ↔ cells s ≤ width ∧ (s.length ≤ width ∨ EndsInBody s) := by
  rw [wrap_eq_singleton_iff h]
  constructor
  · rintro ⟨-, hcrop⟩
    have hlength := (congrArg List.length hcrop).symm.le.trans (length_cropCells_le _ _)
    have hend : cropEnd width s = s := (List.take_prefix _ s).eq_of_length_le hlength
    rw [hend, cropCells_eq_iff] at hcrop
    exact ⟨hcrop, cropEnd_eq_iff.1 hend⟩
  · rintro ⟨hfits, hend⟩
    obtain ⟨blanks, hs, -⟩ := exists_trimRight s
    have hle := cells_le_append (trimRight s) blanks
    rw [← hs] at hle
    rw [cropEnd_eq_iff.2 hend]
    exact ⟨hle.trans hfits, cropCells_eq_iff.2 hfits⟩

end Hotload.StandIn
