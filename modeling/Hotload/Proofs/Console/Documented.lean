import Hotload.Console
import Hotload.Proofs.Console.Markup

/-!
What consoles are known to do with texts that have no control characters and no codes of pictures. From this follows what
is shown of an escaped text.
-/
namespace Hotload.Console

open Text (HasBody EndsInBody)

variable {console : Console} {codes : List Char → Prop} {cells : List Char → Nat} {columns : Nat}
  {a : Char} {before s t r y tag rest style text : List Char}

def escaped (console : Console) (s : List Char) : List Char :=
  (console.escape (.ofList s)).toList

def rendered (console : Console) (s : List Char) : List Char :=
  (console.render (.ofList s)).toList

def wrapped (console : Console) (s : List Char) : List (List Char) :=
  (console.wrap (.ofList s)).map String.toList

def isControl (c : Char) : Bool :=
  c.toNat < 0x20 || (0x7f ≤ c.toNat && c.toNat < 0xa0)

/-- A text without control characters. -/
def Uncontrolled (s : List Char) : Prop :=
  ∀ c ∈ s, isControl c = false

/-- A text without control characters and without codes, which are names of pictures between colons. -/
structure Clean (codes : List Char → Prop) (s : List Char) : Prop where
  control : Uncontrolled s
  code : ∀ name, codes name → ¬(':' :: name ++ [':'] <:+: s)

/-- A text without control characters and without colons. -/
def Plain (s : List Char) : Prop :=
  ∀ c ∈ s, isControl c = false ∧ c ≠ ':'

/-- The name of a style: small letters and blanks. -/
def IsStyle (s : List Char) : Prop :=
  (∀ c ∈ s, c.isLower = true ∨ c = ' ') ∧ ∃ c ∈ s.head?, c.isLower = true

/-- A text that neither opens a tag nor escapes one. -/
def Bland (s : List Char) : Prop :=
  ∀ c ∈ s, c ≠ '[' ∧ c ≠ '\\'

-- Characters of the text are gone through, and not all that there are.
instance (s : List Char) : Decidable (Plain s) :=
  decidable_of_iff (s.all fun c => !isControl c && c != ':') (by simp [Plain])

instance (s : List Char) : Decidable (IsStyle s) :=
  decidable_of_iff ((s.all fun c => c.isLower || c == ' ') && s.head?.any Char.isLower) (by simp [IsStyle, Option.any_eq_true])

instance (s : List Char) : Decidable (Bland s) :=
  decidable_of_iff (s.all fun c => c != '[' && c != '\\') (by simp [Bland])

/-- What is documented of a console: how it escapes, what it renders of escaped texts, and how it breaks them into lines.
It knows the names of pictures, the cells that a text takes and the columns that a line has. -/
structure Documented (console : Console) (codes : List Char → Prop) (cells : List Char → Nat) (columns : Nat) : Prop where
  /-- Backslashes before a tag are doubled, and one more is put there. -/
  escape_tag (n : Nat) {t tag rest : List Char} : tagAt t = some (tag, rest) →
    console.escaped (backslashes n ++ t) = backslashes (2 * n + 1) ++ (tag ++ console.escaped rest)
  /-- Other characters stay, with the backslashes before them. -/
  escape_plain (n : Nat) {a : Char} {s : List Char} : a ≠ '\\' → tagAt (a :: s) = none →
    console.escaped (backslashes n ++ a :: s) = backslashes n ++ a :: console.escaped s
  /-- At the end a single backslash is doubled. -/
  escape_end (n : Nat) : console.escaped (backslashes n) = backslashes (if n = 1 then 2 else n)
  /-- A tag with an odd number of backslashes before it is text, and half of them are left. -/
  render_tag (n : Nat) {t tag rest : List Char} : Clean codes t → tagAt t = some (tag, rest) →
    console.rendered (backslashes (2 * n + 1) ++ (tag ++ console.escaped rest)) =
      backslashes n ++ (tag ++ console.rendered (console.escaped rest))
  /-- A bracket takes the place of the last backslash before it. -/
  render_plain (n : Nat) {a : Char} {s : List Char} : Clean codes (a :: s) → a ≠ '\\' → tagAt (a :: s) = none →
    console.rendered (backslashes n ++ a :: console.escaped s) =
      backslashes (if a = '[' then n - 1 else n) ++ a :: console.rendered (console.escaped s)
  render_end (n : Nat) : console.rendered (backslashes n) = backslashes n
  /-- Nothing is shown of the tags around a text that has a style. -/
  render_style {style text s : List Char} : IsStyle style → Bland text → Clean codes text → Clean codes s →
    console.rendered ('[' :: style ++ ']' :: text ++ '[' :: '/' :: style ++ ']' :: console.escaped s) =
      text ++ console.rendered (console.escaped s)
  wrap_ne_nil {s : List Char} : console.wrapped s ≠ []
  /-- A text that is printed on one line loses nothing but blanks at its end. -/
  wrap_single {s y : List Char} : Uncontrolled s → HasBody s → console.wrapped s = [y] →
    y.length ≤ s.length ∧ (EndsInBody s → y = s)
  /-- A text with a line's cells at most is printed on one line. -/
  wrap_fitting {s : List Char} : Uncontrolled s → HasBody s → EndsInBody s → cells s ≤ columns → console.wrapped s = [s]
  /-- No line has more cells. -/
  wrap_self {s : List Char} : Uncontrolled s → HasBody s → console.wrapped s = [s] → cells s ≤ columns

theorem Clean.of_infix (h : Clean codes s) (ht : t <:+: s) : Clean codes t where
  control c hc := h.control c (ht.subset hc)
  code name hname hin := h.code name hname (hin.trans ht)

/-- A text without a colon before another one completes no code. -/
theorem Clean.append (hb : Plain before) (h : Clean codes s) : Clean codes (before ++ s) where
  control c hc := (List.mem_append.1 hc).elim (fun hc => (hb c hc).1) (h.control c)
  code name hname hin := by
    apply h.code name hname
    induction before with
    | nil => exact hin
    | cons c before ih =>
      obtain hstart | hin := List.infix_cons_iff.1 hin
      · have hcolon : ':' = c := (List.cons_prefix_cons.1 hstart).1
        exact absurd hcolon.symm (hb c List.mem_cons_self).2
      · exact ih (fun c hc => hb c (List.mem_cons_of_mem _ hc)) hin

/-- A single colon is no code. -/
theorem clean_colon : Clean codes [':'] where
  control _ hc := by
    rw [List.mem_singleton.1 hc]
    rfl
  code name _ hin := by
    have hlength := hin.length_le
    rw [List.length_append, List.length_cons, List.length_singleton] at hlength
    omega

theorem clean_nil : Clean codes [] :=
  clean_colon.of_infix List.nil_infix

theorem Plain.clean (h : Plain s) : Clean codes s :=
  List.append_nil s ▸ clean_nil.append h

theorem sealed_append (before : List Char) (ha : a ≠ '\\') (s : List Char) :
    sealed (before ++ a :: s) = before ++ a :: sealed s := by
  rw [sealed, sealed, endsInLoneBackslash_append before ha]
  split
  · rw [List.append_assoc, List.cons_append]
  · rfl

theorem sealed_end (n : Nat) : sealed (backslashes n) = backslashes (if n = 1 then 2 else n) := by
  match n with
  | 0 => rfl
  | 1 => rfl
  | n + 2 =>
    have hlone : endsInLoneBackslash (backslashes (n + 2)) = false := by
      rw [endsInLoneBackslash, backslashes, List.reverse_replicate]
      rfl
    rw [sealed, hlone, if_neg Bool.false_ne_true, if_neg (by omega)]

theorem sealed_tag (n : Nat) (h : tagAt t = some (tag, rest)) :
    sealed (backslashes n ++ t) = backslashes n ++ (tag ++ sealed rest) := by
  obtain ⟨c, body, htag, ht, -, -⟩ := tagAt_eq_some h
  have hshape : ∀ s, backslashes n ++ (tag ++ s) = (backslashes n ++ '[' :: c :: body) ++ ']' :: s := fun s => by
    rw [htag]
    simp
  rw [ht, hshape, hshape, sealed_append _ (by decide)]

theorem tagAt_sealed (h : tagAt (a :: s) = none) : tagAt (a :: sealed s) = none := by
  rw [sealed]
  split
  · exact (tagAt_append_backslash (a :: s)).2 h
  · exact h

theorem shown_end (n : Nat) : shown (backslashes n) = backslashes (if n = 1 then 2 else n) := by
  have hthin : ∀ n, thin (backslashes n) = backslashes n := by
    intro n
    induction n with
    | zero => rfl
    | succ n ih =>
      have hhead : (backslashes n).head? ≠ some '[' := by
        cases n <;> simp [backslashes, List.replicate_succ]
      exact (thin_cons_of_head hhead '\\').trans (congrArg ('\\' :: ·) ih)
  rw [shown, sealed_end, hthin]

theorem shown_tag (n : Nat) (h : tagAt t = some (tag, rest)) :
    shown (backslashes n ++ t) = backslashes n ++ (tag ++ shown rest) := by
  have htag := tagAt_append h (sealed rest)
  rw [shown, sealed_tag n h]
  cases n with
  | zero => exact thin_tag htag
  | succ n =>
    rw [thin_backslashes, if_neg fun hno => by simp [htag] at hno, thin_tag htag]
    rfl

theorem shown_plain (n : Nat) (ha : a ≠ '\\') (h : tagAt (a :: s) = none) :
    shown (backslashes n ++ a :: s) = backslashes (if a = '[' then n - 1 else n) ++ a :: shown s := by
  rw [shown, sealed_append _ ha]
  cases n with
  | zero =>
    rw [ite_self]
    exact thin_cons_of_ne ha _
  | succ n =>
    rw [thin_backslashes, thin_cons_of_ne ha, shown]
    simp [tagAt_sealed h]

/-- What is shown of an escaped text. -/
theorem Documented.display_eq (h : console.Documented codes cells columns) (hs : Clean codes s) :
    console.rendered (console.escaped s) = shown s := by
  induction s using induction_tags with
  | ends n => rw [h.escape_end, h.render_end, shown_end]
  | tag n t tag rest ht ih =>
    obtain ⟨-, -, -, hsplit, -, -⟩ := tagAt_eq_some ht
    have hclean : Clean codes t := hs.of_infix (List.suffix_append _ _).isInfix
    have hrest : Clean codes rest := hclean.of_infix (hsplit ▸ List.suffix_append _ _).isInfix
    rw [h.escape_tag n ht, h.render_tag n hclean ht, ih hrest, shown_tag n ht]
  | plain n a r ha ht ih =>
    have hclean : Clean codes (a :: r) := hs.of_infix (List.suffix_append _ _).isInfix
    rw [h.escape_plain n ha ht, h.render_plain n hclean ha ht, ih (hclean.of_infix (List.suffix_cons _ _).isInfix),
      shown_plain n ha ht]

theorem shown_append (hb : Bland before) (s : List Char) : shown (before ++ s) = before ++ shown s := by
  induction before with
  | nil => rfl
  | cons c before ih =>
    obtain ⟨hbracket, hslash⟩ := hb c List.mem_cons_self
    have hplain := shown_plain 0 hslash (tagAt_of_ne hbracket (r := before ++ s))
    rw [ite_self] at hplain
    exact hplain.trans (congrArg (c :: ·) (ih fun d hd => hb d (List.mem_cons_of_mem c hd)))

theorem Documented.escaped_append (h : console.Documented codes cells columns) (hb : Bland before) (s : List Char) :
    console.escaped (before ++ s) = before ++ console.escaped s := by
  induction before with
  | nil => rfl
  | cons c before ih =>
    obtain ⟨hbracket, hslash⟩ := hb c List.mem_cons_self
    have hplain := h.escape_plain 0 hslash (tagAt_of_ne hbracket (r := before ++ s))
    exact hplain.trans (congrArg (c :: ·) (ih fun d hd => hb d (List.mem_cons_of_mem c hd)))

/-- What is shown of an escaped text behind a text with a style and some other characters. -/
theorem Documented.render_styled (h : console.Documented codes cells columns) (hstyle : IsStyle style) (ht : Bland text)
    (hcodes : Clean codes text) (hb : Bland before) (hplain : Plain before) (hs : Clean codes s) :
    console.rendered ('[' :: style ++ ']' :: text ++ '[' :: '/' :: style ++ ']' :: (before ++ console.escaped s)) =
      text ++ (before ++ shown s) := by
  have hclean : Clean codes (before ++ s) := hs.append hplain
  rw [← h.escaped_append hb, h.render_style hstyle ht hcodes hclean, h.display_eq hclean, shown_append hb]

end Hotload.Console
