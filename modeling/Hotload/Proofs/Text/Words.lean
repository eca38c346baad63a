import Hotload.Failure
import Hotload.Text.Words.Grammar
import Mathlib.Data.List.Basic

/-!
The reader of command lines and their grammar. The reader takes a piece as a whole, whatever it has of the word already, so
it reads every command line of the grammar; and where it comes to an end, what it had before it can be completed to one.
-/
namespace Hotload.Text.Words

variable {mark c : Char} {s t w v rest acc : List Char} {ws : List String}

theorem read_quoted (hmark : mark = '\'' ∨ mark = '"') (h : Quoted mark s w) (acc rest : List Char) :
    read (.quote mark) acc (s ++ mark :: rest) = read .word (w.reverse ++ acc) rest := by
  induction h generalizing acc with
  | nil => rw [List.nil_append, read, if_pos rfl]; rfl
  | plain hne hesc _ ih =>
    rw [List.cons_append, read, if_neg hne, if_neg (by simpa using hesc), ih]
    simp
  | escape hdouble hc _ ih =>
    subst hdouble
    rw [List.cons_append, List.cons_append, read, if_neg (by decide), if_pos (by decide), read, if_pos (by simpa using hc), ih]
    simp
  | backslash hdouble hquote hslash _ ih =>
    subst hdouble
    rw [List.cons_append, List.cons_append, read, if_neg (by decide), if_pos (by decide), read,
      if_neg (by simp [hquote, hslash]), ih]
    simp

theorem read_piece (h : Piece s w) (acc rest : List Char) :
    read .word acc (s ++ rest) = read .word (w.reverse ++ acc) rest ∧
      read .between [] (s ++ rest) = read .word w.reverse rest := by
  cases h with
  | plain hc =>
    obtain ⟨hsep, hsingle, hdouble, hslash⟩ := hc
    simp [read, hsep, hsingle, hdouble, hslash]
  | escape c => simp [read, isSeparator]
  | quoted hmark hs =>
    have hword := read_quoted hmark hs
    obtain rfl | rfl := hmark <;> simp [read, isSeparator, hword]

theorem read_pieces (h : Pieces s w) (acc rest : List Char) :
    read .word acc (s ++ rest) = read .word (w.reverse ++ acc) rest := by
  induction h generalizing acc with
  | nil => rfl
  | cons hpiece _ ih =>
    rw [List.append_assoc, (read_piece hpiece acc _).1, ih]
    simp

theorem read_blanks (h : ∀ c ∈ s, isSeparator c = true) (rest : List Char) :
    read .between [] (s ++ rest) = read .between [] rest := by
  induction s with
  | nil => rfl
  | cons c s ih =>
    rw [List.cons_append, read, if_pos (h c List.mem_cons_self)]
    exact ih fun d hd => h d (List.mem_cons_of_mem c hd)

/-- What is between words starts with a separator, so it ends the word before. -/
theorem read_end (h : ∀ c ∈ rest.head?, isSeparator c = true) (acc : List Char) :
    read .word acc rest = (read .between [] rest).map (String.ofList acc.reverse :: ·) := by
  cases rest with
  | nil => rfl
  | cons c rest =>
    have hc := h c rfl
    rw [read, if_pos hc, read, if_pos hc]

theorem read_line (h : Line s ws) : read .between [] s = .ok ws := by
  induction h with
  | blank hs =>
    have hread := read_blanks hs []
    rwa [List.append_nil] at hread
  | @word before s w rest ws hbefore hne hpieces hrest _ ih =>
    rw [List.append_assoc, read_blanks hbefore]
    cases hpieces with
    | nil => exact absurd rfl hne
    | cons hpiece hpieces =>
      rw [List.append_assoc, (read_piece hpiece [] _).2, read_pieces hpieces, read_end hrest, ih, Except.map]
      simp

/-- The rest of a command line completes a word, latest character first, and goes on with others. -/
def CompletesWord (acc s : List Char) (ws : List String) : Prop :=
  ∃ t w rest vs, s = t ++ rest ∧ Pieces t w ∧ (∀ c ∈ rest.head?, isSeparator c = true) ∧ Line rest vs ∧
    ws = String.ofList (acc.reverse ++ w) :: vs

/-- The same inside quotes. -/
def CompletesQuote (mark : Char) (acc s : List Char) (ws : List String) : Prop :=
  ∃ t w rest, s = t ++ mark :: rest ∧ Quoted mark t w ∧ CompletesWord (w.reverse ++ acc) rest ws

/-- What the rest of a command line is in each mode. -/
def Completes (m : Mode) (acc s : List Char) (ws : List String) : Prop :=
  match m with
  | .between => Line s ws
  | .word => CompletesWord acc s ws
  | .quote mark => CompletesQuote mark acc s ws
  | .escape => ∃ c rest, s = c :: rest ∧ CompletesWord (c :: acc) rest ws
  | .quoteEscape => CompletesQuote '"' acc ('\\' :: s) ws

theorem Piece.ne_nil (h : Piece s w) : s ≠ [] := by
  cases h <;> exact List.cons_ne_nil _ _

/-- A piece in front, whatever there is of the word. -/
theorem completes_piece (hpiece : Piece s w) (h : CompletesWord (w.reverse ++ acc) rest ws) :
    CompletesWord acc (s ++ rest) ws := by
  obtain ⟨t, v, rest, vs, rfl, hpieces, hend, hline, rfl⟩ := h
  exact ⟨s ++ t, w ++ v, rest, vs, by simp, .cons hpiece hpieces, hend, hline, by simp⟩

/-- A piece in front of a word. -/
theorem line_piece (hpiece : Piece s w) (h : CompletesWord w.reverse rest ws) : Line (s ++ rest) ws := by
  obtain ⟨t, v, rest, vs, rfl, hpieces, hend, hline, rfl⟩ := h
  have hne : s ++ t ≠ [] := fun h => hpiece.ne_nil (List.append_eq_nil_iff.1 h).1
  have hword : Line ([] ++ (s ++ t) ++ rest) (String.ofList (w ++ v) :: vs) :=
    .word nofun hne (.cons hpiece hpieces) hend hline
  simpa using hword

theorem line_separator (hc : isSeparator c = true) (h : Line s ws) : Line (c :: s) ws := by
  cases h with
  | blank hs => exact .blank (List.forall_mem_cons.2 ⟨hc, hs⟩)
  | word hbefore hne hpieces hend hline =>
    exact .word (List.forall_mem_cons.2 ⟨hc, hbefore⟩) hne hpieces hend hline

/-- A character in front of what is still to come between the quotes. -/
theorem completesQuote_cons (hs : ∀ t w, Quoted mark t w → Quoted mark (s ++ t) (v ++ w))
    (h : CompletesQuote mark (v.reverse ++ acc) rest ws) : CompletesQuote mark acc (s ++ rest) ws := by
  obtain ⟨t, w, rest, rfl, hquoted, hword⟩ := h
  exact ⟨s ++ t, v ++ w, rest, by simp, hs t w hquoted, by simpa using hword⟩

/-- Quotes that are closed later on are a piece. -/
theorem completesQuote_piece (hmark : mark = '\'' ∨ mark = '"') (h : CompletesQuote mark acc s ws) :
    ∃ t w rest, mark :: s = t ++ rest ∧ Piece t w ∧ CompletesWord (w.reverse ++ acc) rest ws := by
  obtain ⟨t, w, rest, rfl, hquoted, hword⟩ := h
  exact ⟨mark :: (t ++ [mark]), w, rest, by simp, .quoted hmark hquoted, hword⟩

/-- The modes that the reader can be in. -/
def Mode.IsReached : Mode → Prop
  | .quote mark => mark = '\'' ∨ mark = '"'
  | _ => True

/-- A character that separates nothing is the start of a piece. -/
theorem piece_of_read (ih : ∀ {m acc ws}, read m acc s = .ok ws → m.IsReached → Completes m acc s ws)
    (hsep : ¬isSeparator c = true)
    (h : (if c = '\'' || c = '"' then read (.quote c) acc s else if c = '\\' then read .escape acc s
      else read .word (c :: acc) s) = .ok ws) :
    ∃ t w rest, c :: s = t ++ rest ∧ Piece t w ∧ CompletesWord (w.reverse ++ acc) rest ws := by
  split at h
  · next hquote =>
    have hmark : c = '\'' ∨ c = '"' := by simpa using hquote
    exact completesQuote_piece hmark (ih h hmark)
  · next hquote =>
    split at h
    · next hslash =>
      obtain ⟨d, rest, rfl, hword⟩ := ih h trivial
      exact ⟨['\\', d], [d], rest, by simp [hslash], .escape d, hword⟩
    · next hslash =>
      have hplain : IsPlain c := by
        simpa [IsPlain, hslash] using And.intro hsep hquote
      exact ⟨[c], [c], s, rfl, .plain hplain, ih h trivial⟩

theorem completes_of_read {m : Mode} (h : read m acc s = .ok ws) (hm : m.IsReached) : Completes m acc s ws := by
  induction s generalizing m acc ws with
  | nil =>
    cases m with
    | between =>
      cases h
      exact .blank nofun
    | word =>
      cases h
      exact ⟨[], [], [], [], rfl, .nil, nofun, .blank nofun, by simp⟩
    | quote | escape | quoteEscape => cases h
  | cons c s ih =>
    cases m with
    | between =>
      rw [read] at h
      split at h
      · next hc => exact line_separator hc (ih h trivial)
      · next hc =>
        obtain ⟨t, w, rest, hs, hpiece, hword⟩ := piece_of_read ih hc h
        rw [List.append_nil] at hword
        rw [hs]
        exact line_piece hpiece hword
    | word =>
      rw [read] at h
      split at h
      · next hc =>
        obtain ⟨vs, hvs, rfl⟩ := Outcome.map_ok h
        exact ⟨[], [], c :: s, vs, rfl, .nil, by simpa using hc, line_separator hc (ih hvs trivial), by simp⟩
      · next hc =>
        obtain ⟨t, w, rest, hs, hpiece, hword⟩ := piece_of_read ih hc h
        rw [hs]
        exact completes_piece hpiece hword
    | quote mark =>
      rw [read] at h
      split at h
      · next hc => exact ⟨[], [], s, by rw [hc]; rfl, .nil, ih h trivial⟩
      · next hc =>
        split at h
        · next hslash =>
          obtain ⟨rfl, rfl⟩ : c = '\\' ∧ mark = '"' := by simpa using hslash
          exact ih h trivial
        · next hslash =>
          have hplain : ¬(c = '\\' ∧ mark = '"') := by simpa using hslash
          exact completesQuote_cons (s := [c]) (v := [c]) (fun _ _ => .plain hc hplain) (ih h hm)
    | escape => exact ⟨c, s, rfl, ih h trivial⟩
    | quoteEscape =>
      have hdouble : (Mode.quote '"').IsReached := .inr rfl
      rw [read] at h
      split at h
      · next hc =>
        have hspecial : c = '"' ∨ c = '\\' := by simpa using hc
        exact completesQuote_cons (s := ['\\', c]) (v := [c]) (fun _ _ => .escape rfl hspecial) (ih h hdouble)
      · next hc =>
        obtain ⟨hquote, hslash⟩ : c ≠ '"' ∧ c ≠ '\\' := by simpa using hc
        exact completesQuote_cons (s := ['\\', c]) (v := ['\\', c]) (fun _ _ => .backslash rfl hquote hslash)
          (ih h hdouble)

/-- The words of a command line are what the reader finds, and it finds some just in a command line. -/
theorem split_ok_iff {s : String} : split s = .ok ws ↔ Line s.toList ws :=
  ⟨fun h => completes_of_read h trivial, read_line⟩

end Hotload.Text.Words
