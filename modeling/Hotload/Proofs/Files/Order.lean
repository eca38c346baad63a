import Hotload.Proofs.Files.Listing
import Hotload.Proofs.Files.Spelling
import Mathlib.Data.List.Sort
import Mathlib.Data.String.Basic

/-!
A listing is told by what it has. It is sorted by the texts of the paths, and these are different for different paths, so two
listings with the same files and times are the same, in whatever order the files were found.
-/
namespace Hotload.Files

theorem pathBefore_iff {p q : Path} : pathBefore p q = true ↔ p.toString < q.toString :=
  decide_eq_true_iff

namespace Listing

variable {es l l' : Listing} {p : Path} {m : Int}

/-- Each path is before those after it. -/
def Ordered (l : Listing) : Prop :=
  l.Pairwise fun e e' => e.1.toString < e'.1.toString

theorem ordered_insert (hl : Ordered l) (hn : ∀ e ∈ l, e.1.IsNeat) (hp : p.IsNeat) : Ordered (insert p m l) := by
  induction l with
  | nil => exact List.pairwise_singleton _ _
  | cons e l ih =>
    obtain ⟨q, t⟩ := e
    obtain ⟨hq, hl⟩ := List.pairwise_cons.1 hl
    have hrest := ih hl fun e he => hn e (List.mem_cons_of_mem _ he)
    unfold insert
    split
    · next hpq =>
      rw [hpq]
      exact List.pairwise_cons.2 ⟨hq, hl⟩
    · next hpq =>
      split
      · next hbefore =>
        have hlt := pathBefore_iff.1 hbefore
        refine List.pairwise_cons.2 ⟨?_, List.pairwise_cons.2 ⟨hq, hl⟩⟩
        intro e he
        obtain rfl | he := List.mem_cons.1 he
        · exact hlt
        · exact hlt.trans (hq e he)
      · next hbefore =>
        -- the path is not before the first one and has another text, so it comes after it
        have hne : p.toString ≠ q.toString := fun h => hpq (Path.toString_inj hp (hn _ List.mem_cons_self) h)
        have hlt : q.toString < p.toString :=
          lt_of_le_of_ne (not_lt.1 fun h => hbefore (pathBefore_iff.2 h)) hne.symm
        refine List.pairwise_cons.2 ⟨?_, hrest⟩
        intro e he
        obtain he | he := mem_of_mem_insert (q := e.1) (t := e.2) he
        · rw [congrArg Prod.fst he]
          exact hlt
        · exact hq e he

theorem neat_insert (hn : ∀ e ∈ l, e.1.IsNeat) (hp : p.IsNeat) : ∀ e ∈ insert p m l, e.1.IsNeat := by
  intro e he
  obtain he | he := mem_of_mem_insert (q := e.1) (t := e.2) he
  · rw [congrArg Prod.fst he]
    exact hp
  · exact hn e he

theorem ordered_foldl (hl : Ordered l) (hn : ∀ e ∈ l, e.1.IsNeat) (he : ∀ e ∈ es, e.1.IsNeat) :
    Ordered (es.foldl (fun l e => insert e.1 e.2 l) l) := by
  induction es generalizing l with
  | nil => exact hl
  | cons e es ih =>
    have hp := he e List.mem_cons_self
    exact ih (ordered_insert hl hn hp) (neat_insert hn hp) fun e' he' => he e' (List.mem_cons_of_mem _ he')

theorem ordered_ofList (he : ∀ e ∈ es, e.1.IsNeat) : Ordered (ofList es) :=
  ordered_foldl List.Pairwise.nil (by simp) he

theorem Ordered.eq_of_mem_iff (h : Ordered l) (h' : Ordered l') (hm : ∀ q t, (q, t) ∈ l ↔ (q, t) ∈ l') : l = l' := by
  have hantisymm : Std.Antisymm fun e e' : Path × Int => e.1.toString < e'.1.toString :=
    ⟨fun _ _ hlt hgt => absurd hgt hlt.asymm⟩
  have hirrefl : Std.Irrefl fun e e' : Path × Int => e.1.toString < e'.1.toString := ⟨fun _ => lt_irrefl _⟩
  exact List.Pairwise.eq_of_mem_iff h h' fun e => hm e.1 e.2

end Listing

end Hotload.Files
