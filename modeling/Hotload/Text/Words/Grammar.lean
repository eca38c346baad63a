import Hotload.Text.Words

/-!
How a command line may be written. A word is made of pieces without a separator between them, and it may be empty if one
of them is a pair of quotes.
-/
namespace Hotload.Text.Words

/-- Characters that stand for themselves outside quotes. -/
def IsPlain (c : Char) : Prop :=
  isSeparator c = false ∧ c ≠ '\'' ∧ c ≠ '"' ∧ c ≠ '\\'

/-- What may stand between two quotes with what it stands for. Only double quotes know an escape, and a backslash that
makes none stands for itself. -/
inductive Quoted (mark : Char) : List Char → List Char → Prop where
  | nil : Quoted mark [] []
  | plain {c : Char} {s w : List Char} : c ≠ mark → ¬(c = '\\' ∧ mark = '"') → Quoted mark s w → Quoted mark (c :: s) (c :: w)
  | escape {c : Char} {s w : List Char} : mark = '"' → c = '"' ∨ c = '\\' → Quoted mark s w →
      Quoted mark ('\\' :: c :: s) (c :: w)
  | backslash {c : Char} {s w : List Char} : mark = '"' → c ≠ '"' → c ≠ '\\' → Quoted mark s w →
      Quoted mark ('\\' :: c :: s) ('\\' :: c :: w)

/-- A piece of a word with what it stands for. -/
inductive Piece : List Char → List Char → Prop where
  | plain {c : Char} : IsPlain c → Piece [c] [c]
  | escape (c : Char) : Piece ['\\', c] [c]
  | quoted {mark : Char} {s w : List Char} : mark = '\'' ∨ mark = '"' → Quoted mark s w → Piece (mark :: (s ++ [mark])) w

/-- Pieces one after another. -/
inductive Pieces : List Char → List Char → Prop where
  | nil : Pieces [] []
  | cons {s t w v : List Char} : Piece s w → Pieces t v → Pieces (s ++ t) (w ++ v)

/-- A command line with its words. -/
inductive Line : List Char → List String → Prop where
  | blank {s : List Char} : (∀ c ∈ s, isSeparator c = true) → Line s []
  | word {before s w rest : List Char} {ws : List String} : (∀ c ∈ before, isSeparator c = true) → s ≠ [] → Pieces s w →
      (∀ c ∈ rest.head?, isSeparator c = true) → Line rest ws → Line (before ++ s ++ rest) (String.ofList w :: ws)

end Hotload.Text.Words
