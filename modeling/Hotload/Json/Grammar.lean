import Hotload.Json.Reader
import Hotload.Text.LetterCase

/-!
How a JSON text may be written. Between quotes a character stands for itself or is given by an escape, one beyond sixteen
bits by the escapes of its two halves. White space may stand around whatever commas part and on both sides of a colon.
-/
namespace Hotload.Json

/-- Letters of the short escapes with what they stand for. -/
inductive Escape : Char → Char → Prop where
  | quote : Escape '"' '"'
  | backslash : Escape '\\' '\\'
  | slash : Escape '/' '/'
  | backspace : Escape 'b' '\x08'
  | formFeed : Escape 'f' '\x0c'
  | lineFeed : Escape 'n' '\n'
  | carriageReturn : Escape 'r' '\r'
  | tab : Escape 't' '\t'

/-- The four hexadecimal digits of a number of sixteen bits, each in either case. -/
def IsUnit (n : Nat) (ds : List Char) : Prop :=
  n < 0x10000 ∧ ds.map Text.lowerChar = Text.hexDigits 4 n

def highHalf (c : Char) : Nat :=
  0xd800 + (c.toNat - 0x10000) / 0x400

def lowHalf (c : Char) : Nat :=
  0xdc00 + (c.toNat - 0x10000) % 0x400

/-- Characters that may stand for themselves between quotes. -/
def IsPlain (c : Char) : Prop :=
  c ≠ '"' ∧ c ≠ '\\' ∧ 0x20 ≤ c.toNat

instance : DecidablePred IsPlain := fun c =>
  inferInstanceAs (Decidable (c ≠ '"' ∧ c ≠ '\\' ∧ 0x20 ≤ c.toNat))

instance (n : Nat) (ds : List Char) : Decidable (IsUnit n ds) :=
  inferInstanceAs (Decidable (n < 0x10000 ∧ ds.map Text.lowerChar = Text.hexDigits 4 n))

/-- A text with what may stand for it between quotes. -/
inductive Spells : List Char → List Char → Prop where
  | nil : Spells [] []
  | plain {c : Char} {s t : List Char} : IsPlain c → Spells s t → Spells (c :: s) (c :: t)
  | escape {e c : Char} {s t : List Char} : Escape e c → Spells s t → Spells (c :: s) ('\\' :: e :: t)
  | unit {c : Char} {ds s t : List Char} : IsUnit c.toNat ds → Spells s t → Spells (c :: s) ('\\' :: 'u' :: (ds ++ t))
  | pair {c : Char} {ds es s t : List Char} : 0x10000 ≤ c.toNat → IsUnit (highHalf c) ds → IsUnit (lowHalf c) es →
      Spells s t → Spells (c :: s) ('\\' :: 'u' :: (ds ++ '\\' :: 'u' :: (es ++ t)))

/-- Whatever may stand between quotes, single halves of a character included. -/
inductive Literal : List Char → Prop where
  | nil : Literal []
  | plain {c : Char} {t : List Char} : IsPlain c → Literal t → Literal (c :: t)
  | escape {e c : Char} {t : List Char} : Escape e c → Literal t → Literal ('\\' :: e :: t)
  | unit {n : Nat} {ds t : List Char} : IsUnit n ds → Literal t → Literal ('\\' :: 'u' :: (ds ++ t))

/-- A text in quotes. -/
def Quotes (s : String) (t : List Char) : Prop :=
  ∃ u, Spells s.toList u ∧ t = '"' :: (u ++ ['"'])

/-- Anything in quotes. -/
def QuotesAny (t : List Char) : Prop :=
  ∃ u, Literal u ∧ t = '"' :: (u ++ ['"'])

/-- Anything in quotes that is none of some texts. -/
def QuotesOther (ss : List String) (t : List Char) : Prop :=
  QuotesAny t ∧ ∀ s ∈ ss, ¬Quotes s t

def Spaces (w : List Char) : Prop :=
  ∀ c ∈ w, c ∈ [' ', '\t', '\n', '\r']

variable {α : Type}

/-- Items parted by commas. -/
inductive Parted (p : α → List Char → Prop) : List α → List Char → Prop where
  | one {a : α} {w t w' : List Char} : Spaces w → p a t → Spaces w' → Parted p [a] (w ++ (t ++ w'))
  | more {a : α} {as : List α} {w t w' ts : List Char} : Spaces w → p a t → Spaces w' → Parted p as ts →
      Parted p (a :: as) (w ++ (t ++ (w' ++ ',' :: ts)))

/-- Any number of items between two brackets. -/
inductive Enclosed (opening closing : Char) (p : α → List Char → Prop) : List α → List Char → Prop where
  | none {w : List Char} : Spaces w → Enclosed opening closing p [] (opening :: (w ++ [closing]))
  | some {as : List α} {t : List Char} : Parted p as t → Enclosed opening closing p as (opening :: (t ++ [closing]))

/-- A key and a value with a colon between them. -/
def Keyed (key value : List Char → Prop) (t : List Char) : Prop :=
  ∃ k w w' v, key k ∧ Spaces w ∧ Spaces w' ∧ value v ∧ t = k ++ (w ++ ':' :: (w' ++ v))

end Hotload.Json
