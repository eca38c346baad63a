import Hotload.Json.Writer
import Hotload.Proofs.Json.Spelling
import Mathlib.Data.List.Forall2

/-!
What the writer writes is JSON: a text is written as what spells it, a list as its items between brackets, and an object as
its members between braces.
-/
namespace Hotload

theorem Text.map_lowerChar_hexDigits (width n : Nat) : (hexDigits width n).map lowerChar = hexDigits width n := by
  induction width generalizing n with
  | zero => rfl
  | succ width ih =>
    have hall : ∀ k < 16, lowerChar (hexDigit k) = hexDigit k := by decide
    rw [hexDigits, List.map_append, ih, List.map_singleton, hall _ (Nat.mod_lt _ (by decide))]

namespace Json

variable {c : Char} {s t : List Char} {n : Nat}

theorem isUnit_hexDigits (h : n < 0x10000) : IsUnit n (Text.hexDigits 4 n) :=
  ⟨h, Text.map_lowerChar_hexDigits 4 n⟩

/-- Each character is written as what stands for it. -/
theorem Spells.escapeChar (h : Spells s t) : Spells (c :: s) (escapeChar c ++ t) := by
  unfold Json.escapeChar
  split
  · next hc =>
    rw [Bool.or_eq_true, decide_eq_true_eq, decide_eq_true_eq] at hc
    obtain rfl | rfl := hc
    · exact .escape .quote h
    · exact .escape .backslash h
  next hc =>
  repeat' split
  · next hc => exact hc ▸ .escape .lineFeed h
  · next hc => exact hc ▸ .escape .carriageReturn h
  · next hc => exact hc ▸ .escape .tab h
  · next hc => exact hc ▸ .escape .formFeed h
  · next hc => exact hc ▸ .escape .backspace h
  · next hrange =>
    rw [Bool.or_eq_true, decide_eq_true_eq, decide_eq_true_eq, not_or] at hc
    rw [Bool.and_eq_true, decide_eq_true_eq, decide_eq_true_eq] at hrange
    exact .plain ⟨hc.1, hc.2, hrange.1⟩ h
  · next hunit => exact .unit (isUnit_hexDigits hunit) h
  · next hunit =>
    have hrange := toNat_range c
    have hhigh : IsUnit (highHalf c) (Text.hexDigits 4 (highHalf c)) := isUnit_hexDigits (by rw [highHalf]; omega)
    have hlow : IsUnit (lowHalf c) (Text.hexDigits 4 (lowHalf c)) := isUnit_hexDigits (by rw [lowHalf]; omega)
    have hpair := Spells.pair (Nat.not_lt.1 hunit) hhigh hlow h
    simpa only [unitEscape, highHalf, lowHalf, List.cons_append, List.append_assoc] using hpair

/-- A text is written as what spells it. -/
theorem quotes_writeText (s : String) : Quotes s (writeText s).toList := by
  refine ⟨s.toList.flatMap Json.escapeChar, ?_, ?_⟩
  · induction s.toList with
    | nil => exact .nil
    | cons c s ih => exact ih.escapeChar
  · rw [writeText, String.toList_ofList]
    rfl

variable {α : Type} {p : α → List Char → Prop} {as : List α} {ts : List (List Char)}

theorem spaces_nil : Spaces [] := nofun

theorem spaces_blank : Spaces [' '] := by simp [Spaces]

theorem parted_intercalate {a : α} {u w : List Char} (hw : Spaces w) (ha : p a u) (h : List.Forall₂ p as ts) :
    Parted p (a :: as) (w ++ [',', ' '].intercalate (u :: ts)) := by
  induction h generalizing a u w with
  | nil =>
    have hone := Parted.one hw ha spaces_nil
    simpa using hone
  | cons hb _ ih =>
    have hmore := Parted.more hw ha spaces_nil (ih spaces_blank hb)
    simpa [List.intercalate_cons_cons] using hmore

/-- Items with a comma and a space between them. -/
theorem enclosed_intercalate (opening closing : Char) (h : List.Forall₂ p as ts) :
    Enclosed opening closing p as (opening :: ([',', ' '].intercalate ts ++ [closing])) := by
  cases h with
  | nil => exact .none spaces_nil
  | cons ha h => exact .some (parted_intercalate spaces_nil ha h)

theorem keyed_write {val : List Char → Prop} (k : String) (h : val t) :
    Keyed (Quotes k) val ((writeText k ++ ": ").toList ++ t) :=
  ⟨_, [], [' '], t, quotes_writeText k, spaces_nil, spaces_blank, h, by simp⟩

theorem toList_write_list (vs : List Value) :
    (write (.list vs)).toList = '[' :: ([',', ' '].intercalate (vs.map fun v => (write v).toList) ++ [']']) := by
  have hitems : writeItems vs = vs.map write := by
    induction vs with
    | nil => rfl
    | cons v vs ih => rw [writeItems, ih, List.map_cons]
  rw [write, hitems, String.toList_append, String.toList_append, String.toList_intercalate, List.map_map]
  rfl

/-- A list is written as its items. -/
theorem enclosed_write_list {v : α → Value} (as : List α) (h : ∀ a, p a (write (v a)).toList) :
    Enclosed '[' ']' p as (write (.list (as.map v))).toList := by
  rw [toList_write_list, List.map_map]
  refine enclosed_intercalate _ _ ?_
  rw [List.forall₂_map_right_iff, List.forall₂_same]
  exact fun a _ => h a

theorem toList_write_record (es : List (String × Value)) :
    (write (.record es)).toList = '\x7b' ::
      ([',', ' '].intercalate (es.map fun e => (writeText e.1 ++ ": ").toList ++ (write e.2).toList) ++ ['\x7d']) := by
  have hmembers (es : List (String × Value)) :
      writeMembers (es.map fun e => (.plain e.1, e.2)) = es.map fun e => writeText e.1 ++ ": " ++ write e.2 := by
    induction es with
    | nil => rfl
    | cons e es ih =>
      rw [List.map_cons, writeMembers, ih, List.map_cons]
      rfl
  rw [Value.record, write, hmembers, String.toList_append, String.toList_append, String.toList_intercalate, List.map_map]
  simp only [Function.comp_def, String.toList_append]
  rfl

end Json

end Hotload
