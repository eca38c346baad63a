import Hotload.Files.Path
import Mathlib.Data.List.Basic

/-!
A path and its text. A path that is made from a text has no idle components and no slashes in them, and such a path is made
again from its own text; so two of them with one text are the same.
-/
namespace Hotload.Files

variable {w : List Char} {ws : List (List Char)} {p q : Path} {parts : List String}

theorem splitSlashes_append (h : '/' ∉ w) (r : List Char) : splitSlashes (w ++ '/' :: r) = w :: splitSlashes r := by
  induction w with
  | nil => rw [List.nil_append, splitSlashes, if_pos rfl]
  | cons c w ih =>
    rw [List.mem_cons, not_or] at h
    rw [List.cons_append, splitSlashes, if_neg (Ne.symm h.1), ih h.2]

theorem splitSlashes_of_notMem (h : '/' ∉ w) : splitSlashes w = [w] := by
  induction w with
  | nil => rfl
  | cons c w ih =>
    rw [List.mem_cons, not_or] at h
    rw [splitSlashes, if_neg (Ne.symm h.1), ih h.2]

theorem splitSlashes_intercalate (hne : ws ≠ []) (h : ∀ w ∈ ws, '/' ∉ w) : splitSlashes (['/'].intercalate ws) = ws := by
  induction ws with
  | nil => exact absurd rfl hne
  | cons w ws ih =>
    have hw : '/' ∉ w := h w List.mem_cons_self
    cases ws with
    | nil => simpa using splitSlashes_of_notMem hw
    | cons v ws =>
      have hrest := ih (List.cons_ne_nil _ _) fun u hu => h u (List.mem_cons_of_mem _ hu)
      have hcons : ['/'].intercalate (w :: v :: ws) = w ++ '/' :: ['/'].intercalate (v :: ws) := by simp
      rw [hcons, splitSlashes_append hw, hrest]

theorem notMem_of_mem_splitSlashes {cs : List Char} (h : w ∈ splitSlashes cs) : '/' ∉ w := by
  induction cs generalizing w with
  | nil =>
    rw [splitSlashes, List.mem_singleton] at h
    rw [h]
    exact List.not_mem_nil
  | cons c cs ih =>
    rw [splitSlashes] at h
    split at h
    · obtain rfl | h := List.mem_cons.1 h
      · exact List.not_mem_nil
      · exact ih h
    · next hc =>
      cases hs : splitSlashes cs with
      | nil =>
        rw [hs, List.mem_singleton] at h
        rw [h, List.mem_singleton]
        exact Ne.symm hc
      | cons v vs =>
        rw [hs] at h ih
        obtain rfl | h := List.mem_cons.1 h
        · rw [List.mem_cons, not_or]
          exact ⟨Ne.symm hc, ih List.mem_cons_self⟩
        · exact ih (List.mem_cons_of_mem _ h)

theorem unslashed_of_mem_components {s part : String} (h : part ∈ components s) : '/' ∉ part.toList := by
  obtain ⟨w, hw, rfl⟩ := List.mem_map.1 h
  rw [String.toList_ofList]
  exact notMem_of_mem_splitSlashes hw

namespace Path

/-- Paths as they are made from texts. -/
structure IsNeat (p : Path) : Prop where
  proper : ∀ part ∈ p.parts, isIdle part = false
  unslashed : ∀ part ∈ p.parts, '/' ∉ part.toList

theorem isNeat_ofString (s : String) : (ofString s).IsNeat where
  proper part h := by simpa using (List.mem_filter.1 h).2
  unslashed part h := unslashed_of_mem_components (List.mem_filter.1 h).1

theorem components_intercalate (hne : parts ≠ []) (h : ∀ part ∈ parts, '/' ∉ part.toList) :
    components ("/".intercalate parts) = parts := by
  have hslash : "/".toList = ['/'] := rfl
  rw [components, String.toList_intercalate, hslash, splitSlashes_intercalate (by simpa using hne)]
  · simp
  · rintro w hw
    obtain ⟨part, hpart, rfl⟩ := List.mem_map.1 hw
    exact h part hpart

theorem anchorOf_text (a : Anchor) {s : List Char} (h : s.head? ≠ some '/') : anchorOf (a.text.toList ++ s) = a := by
  cases s with
  | nil => cases a <;> rfl
  | cons c s =>
    have hc : c ≠ '/' := by simpa using h
    cases a <;> simp [Anchor.text, anchorOf, hc]

theorem components_text (a : Anchor) (s : String) :
    (components (a.text ++ s)).filter (!isIdle ·) = (components s).filter (!isIdle ·) := by
  have hslash (s : List Char) : splitSlashes ('/' :: s) = [] :: splitSlashes s := splitSlashes_append List.not_mem_nil s
  cases a <;> simp [components, Anchor.text, hslash, isIdle]

theorem head_intercalate (h : p.IsNeat) : ("/".intercalate p.parts).toList.head? ≠ some '/' := by
  obtain ⟨a, parts⟩ := p
  cases parts with
  | nil => simp
  | cons part parts =>
    have hne : part.toList ≠ [] := by
      intro hnil
      have hproper := h.proper part List.mem_cons_self
      rw [String.toList_eq_nil_iff.1 hnil] at hproper
      cases hproper
    obtain ⟨c, r, hcons⟩ := List.exists_cons_of_ne_nil hne
    have hc : c ≠ '/' := by
      rintro rfl
      exact h.unslashed part List.mem_cons_self (hcons ▸ List.mem_cons_self)
    have hhead : ("/".intercalate (part :: parts)).toList.head? = some c := by
      cases parts <;> simp [String.toList_intercalate, hcons]
    rw [hhead]
    simpa using hc

/-- The path that is made from the text of a path. -/
theorem ofString_toString (h : p.IsNeat) : ofString p.toString = p := by
  obtain ⟨a, parts⟩ := p
  by_cases hdot : a = .relative ∧ parts = []
  · obtain ⟨rfl, rfl⟩ := hdot
    decide
  · have htext : (⟨a, parts⟩ : Path).toString = a.text ++ "/".intercalate parts := by
      rw [toString, if_neg (by simpa using hdot)]
    have hparts : (components ("/".intercalate parts)).filter (!isIdle ·) = parts := by
      by_cases hne : parts = []
      · rw [hne]
        decide
      · rw [components_intercalate hne h.unslashed, List.filter_eq_self]
        intro part hpart
        rw [h.proper part hpart]
        rfl
    rw [htext, ofString, components_text, hparts, String.toList_append, anchorOf_text a (head_intercalate h)]

theorem toString_inj (hp : p.IsNeat) (hq : q.IsNeat) (h : p.toString = q.toString) : p = q := by
  rw [← ofString_toString hp, h, ofString_toString hq]

end Path

end Hotload.Files
