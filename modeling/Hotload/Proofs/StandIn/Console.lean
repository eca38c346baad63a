import Hotload.Proofs.Console.Documented
import Hotload.Proofs.StandIn.Cells
import Hotload.Proofs.StandIn.Markup
import Hotload.StandIn.Console

/-!
The console of 80 columns does what is documented of consoles.
-/
namespace Hotload.StandIn

open Console hiding escape render
open Markup
open Text (HasBody EndsInBody)

variable {c : Char} {s t tag rest style text : List Char}

theorem escaped_console (s : List Char) : console.escaped s = escape s := by
  simp [escaped, console]

theorem rendered_console (s : List Char) : console.rendered s = render s := by
  simp [rendered, console]

theorem wrapped_console (s : List Char) : console.wrapped s = wrap lineWidth s := by
  simp [wrapped, console]

theorem escape_tag (n : Nat) (h : tagAt t = some (tag, rest)) :
    escape (backslashes n ++ t) = backslashes (2 * n + 1) ++ (tag ++ escape rest) := by
  rw [escape_eq, escape_eq, sealed_tag n h, protect_tag n (tagAt_append h _)]

theorem escape_plain (n : Nat) (hc : c ≠ '\\') (h : tagAt (c :: s) = none) :
    escape (backslashes n ++ c :: s) = backslashes n ++ c :: escape s := by
  rw [escape_eq, escape_eq, sealed_append _ hc, protect_plain n hc (tagAt_sealed h)]

theorem escape_end (n : Nat) : escape (backslashes n) = backslashes (if n = 1 then 2 else n) := by
  rw [escape_eq, sealed_end, protect_end]

theorem render_end (n : Nat) : render (backslashes n) = backslashes n := by
  rw [render, pieces_end]
  cases n with
  | zero => rfl
  | succ n =>
    have hlast : (backslashes (n + 1)).getLast? ≠ some '[' := by simp [backslashes, List.getLast?_replicate]
    simp [Piece.shown, hlast]

theorem render_tag (n : Nat) (h : tagAt t = some (tag, rest)) (s : List Char) :
    render (backslashes (2 * n + 1) ++ (tag ++ s)) = backslashes n ++ (tag ++ render s) := by
  rw [render, pieces_tag _ (tagAt_append h s), List.flatMap_cons, shown_escaped_tag, List.append_assoc]
  rfl

theorem render_plain (n : Nat) (hc : c ≠ '\\') (h : tagAt (c :: s) = none) :
    render (backslashes n ++ c :: s) = backslashes (if c = '[' then n - 1 else n) ++ c :: render s := by
  rw [render, pieces_plain n hc h, List.flatMap_cons]
  cases n with
  | zero =>
    have hshown : (Piece.plain [c]).shown = [c] := by simp [Piece.shown]
    rw [ite_self]
    exact congrArg (· ++ render s) hshown
  | succ n =>
    rw [Markup.shown_plain, List.append_assoc]
    rfl

/-- A tag without a backslash is not shown. -/
theorem render_bare (h : tagAt t = some (tag, rest)) : render t = render rest := by
  have hpieces : pieces t = .tag 0 tag :: pieces rest := pieces_tag 0 h
  rw [render, hpieces]
  rfl

/-- The tag that a style makes, or the one that ends it. -/
theorem tagAt_style (hc : startsTag c = true) (h : ∀ d ∈ s, d.isLower = true ∨ d = ' ') (rest : List Char) :
    tagAt ('[' :: c :: s ++ ']' :: rest) = some ('[' :: c :: s ++ [']'], rest) := by
  have hin : ∀ d ∈ s, inTag d = true := by
    intro d hd
    rw [inTag, Bool.and_eq_true, bne_iff_ne, bne_iff_ne]
    constructor <;> rintro rfl <;> exact absurd (h _ hd) (by decide)
  rw [List.cons_append, List.cons_append, tagAt, if_pos hc, List.dropWhile_append_of_pos hin,
    List.takeWhile_append_of_pos hin]
  simp [inTag]

theorem startsTag_of_isLower (h : c.isLower = true) : startsTag c = true := by
  have hbounds : (decide ('a'.val ≤ c.val) && decide (c.val ≤ 'z'.val)) = true := h
  rw [Bool.and_eq_true, decide_eq_true_eq, decide_eq_true_eq] at hbounds
  obtain ⟨hlow, hhigh⟩ := hbounds
  have hlow : 0x61 ≤ c.toNat := hlow
  have hhigh : c.toNat ≤ 0x7a := hhigh
  simp [startsTag, hlow, hhigh]

theorem render_append (ht : Bland text) (s : List Char) : render (text ++ s) = text ++ render s := by
  induction text with
  | nil => rfl
  | cons c text ih =>
    obtain ⟨hbracket, hslash⟩ := ht c List.mem_cons_self
    have hplain := render_plain 0 hslash (tagAt_of_ne hbracket (r := text ++ s))
    rw [ite_self] at hplain
    exact hplain.trans (congrArg (c :: ·) (ih fun d hd => ht d (List.mem_cons_of_mem c hd)))

theorem render_style (hstyle : IsStyle style) (ht : Bland text) (s : List Char) :
    render ('[' :: style ++ ']' :: text ++ '[' :: '/' :: style ++ ']' :: s) = text ++ render s := by
  obtain ⟨hletters, hhead⟩ := hstyle
  have hends : tagAt ('[' :: '/' :: style ++ ']' :: s) = some ('[' :: '/' :: style ++ [']'], s) :=
    tagAt_style rfl hletters s
  cases style with
  | nil =>
    obtain ⟨c, hc, -⟩ := hhead
    cases hc
  | cons c style =>
    obtain ⟨d, hd, hlower⟩ := hhead
    cases hd
    have hopens := tagAt_style (startsTag_of_isLower hlower) (fun d hd => hletters d (List.mem_cons_of_mem c hd))
      (text ++ ('[' :: '/' :: (c :: style) ++ ']' :: s))
    have hshape : '[' :: (c :: style) ++ ']' :: text ++ '[' :: '/' :: (c :: style) ++ ']' :: s =
        '[' :: c :: style ++ ']' :: (text ++ ('[' :: '/' :: (c :: style) ++ ']' :: s)) := by simp
    rw [hshape, render_bare hopens, render_append ht, render_bare hends]

theorem documented_console (codes : List Char → Prop) : console.Documented codes cells lineWidth where
  escape_tag n _ _ _ h := by
    simp only [escaped_console]
    exact escape_tag n h
  escape_plain n _ _ ha h := by
    simp only [escaped_console]
    exact escape_plain n ha h
  escape_end n := by
    rw [escaped_console]
    exact escape_end n
  render_tag n _ _ _ _ h := by
    simp only [rendered_console]
    exact render_tag n h _
  render_plain n _ _ _ ha h := by
    have htag := tagAt_protect (tagAt_sealed h)
    rw [← escape_eq] at htag
    simp only [rendered_console, escaped_console]
    exact render_plain n ha htag
  render_end n := by
    rw [rendered_console]
    exact render_end n
  render_style hstyle ht _ _ := by
    simp only [rendered_console]
    exact render_style hstyle ht _
  wrap_ne_nil := by
    simp [wrapped_console, wrap]
  wrap_single _ hbody hw := by
    rw [wrapped_console] at hw
    exact wrap_singleton hbody hw
  wrap_fitting _ hbody hend hcells := by
    rw [wrapped_console]
    exact (wrap_self_iff hbody).2 ⟨hcells, .inr hend⟩
  wrap_self _ hbody hw := by
    rw [wrapped_console] at hw
    exact ((wrap_self_iff hbody).1 hw).1

end Hotload.StandIn
