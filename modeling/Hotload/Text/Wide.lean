import Hotload.Text.Quoted

/-!
Texts in which half of a character may stand alone. A character beyond sixteen bits is given by two halves, and nothing
keeps whoever writes a text from leaving one of them out. A text with such a half is ragged: it is a text of its own, but
it has no bytes.
-/
namespace Hotload.Text

inductive Point where
  | char (c : Char)
  | half (n : Fin 0x800)
  deriving DecidableEq

namespace Point

def code : Point → Nat
  | .char c => c.toNat
  | .half n => 0xd800 + n

def ofCode (n : Nat) : Point :=
  if h : 0xd800 ≤ n ∧ n < 0xe000 then .half ⟨n - 0xd800, by omega⟩ else .char (Char.ofNat n)

def isHalf : Point → Bool
  | .char _ => false
  | .half _ => true

def char? : Point → Option Char
  | .char c => some c
  | .half _ => none

def escape (quote : Char) : Point → List Char
  | .char c => escapeChar quote c
  | .half n => codeEscape (0xd800 + n)

end Point

def quotedPoints (ps : List Point) : List Char :=
  let q := quoteFor (ps.filterMap Point.char?)
  q :: ps.flatMap (Point.escape q) ++ [q]

/-- A text with a half that stands alone. -/
structure Ragged where
  points : List Point
  loose : points.any Point.isHalf = true
  deriving DecidableEq

namespace Ragged

def quoted (r : Ragged) : String :=
  String.ofList (quotedPoints r.points)

/-- The text as it is put out: with the code of each half in place of it. -/
def shown (r : Ragged) : String :=
  String.ofList (r.points.flatMap fun
    | .char c => [c]
    | .half n => codeEscape (0xd800 + n))

/-- The points before the first half. -/
def sound (r : Ragged) : List Point :=
  r.points.takeWhile (!·.isHalf)

/-- The first half with those that follow it directly. -/
def fault (r : Ragged) : List Point :=
  (r.points.dropWhile (!·.isHalf)).takeWhile Point.isHalf

/-- What is wrong with the text where bytes are asked for. -/
def message (r : Ragged) : String :=
  let start := r.sound.length
  let place := match r.fault with
    | [p] => "character '" ++ String.ofList (p.escape '\'') ++ "' in position " ++ toString start
    | ps => "characters in position " ++ toString start ++ "-" ++ toString (start + ps.length - 1)
  "'utf-8' codec can't encode " ++ place ++ ": surrogates not allowed"

end Ragged

/-- Any text, ragged or not. -/
inductive Wide where
  | plain (s : String)
  | ragged (r : Ragged)
  deriving DecidableEq

namespace Wide

instance : Coe String Wide := ⟨.plain⟩

def ofPoints (ps : List Point) : Wide :=
  if h : ps.any Point.isHalf = true then .ragged ⟨ps, h⟩ else .plain (String.ofList (ps.filterMap Point.char?))

def points : Wide → List Point
  | .plain s => s.toList.map .char
  | .ragged r => r.points

def quoted : Wide → String
  | .plain s => Text.quoted s
  | .ragged r => r.quoted

theorem points_ofPoints (ps : List Point) : (ofPoints ps).points = ps := by
  rw [ofPoints]
  split
  · rfl
  · next h =>
    rw [points, String.toList_ofList]
    induction ps with
    | nil => rfl
    | cons p ps ih =>
      rw [List.any_cons, Bool.or_eq_true, not_or] at h
      cases p with
      | char c =>
        have hc : (Point.char c).char? = some c := rfl
        rw [List.filterMap_cons_some hc, List.map_cons, ih h.2]
      | half n => exact absurd rfl h.1

/-- A text is known by its points. -/
theorem points_inj {v w : Wide} (h : v.points = w.points) : v = w := by
  have hloose (s : String) : (s.toList.map Point.char).any Point.isHalf = false := by simp [Point.isHalf]
  cases v with
  | plain s =>
    cases w with
    | plain t =>
      have hs := congrArg (List.filterMap Point.char?) h
      simp only [points, List.filterMap_map, Function.comp_def, Point.char?, List.filterMap_some] at hs
      rw [String.toList_inj.1 hs]
    | ragged r => cases (hloose s).symm.trans ((congrArg (List.any · Point.isHalf) h).trans r.loose)
  | ragged r =>
    cases w with
    | plain t => cases (hloose t).symm.trans ((congrArg (List.any · Point.isHalf) h.symm).trans r.loose)
    | ragged r' =>
      obtain ⟨ps, hps⟩ := r
      cases h
      rfl

theorem ofPoints_points (w : Wide) : ofPoints w.points = w :=
  points_inj (points_ofPoints _)

theorem ofPoints_eq_plain {ps : List Point} {s : String} : ofPoints ps = s ↔ ps = s.toList.map .char := by
  constructor
  · intro h
    rw [← points_ofPoints ps, h]
    rfl
  · rintro rfl
    exact points_inj (points_ofPoints _)

end Wide

end Hotload.Text
