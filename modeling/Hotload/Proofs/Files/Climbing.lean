import Hotload.Proofs.Files.Watched

/-!
Directories without files. What a way leads to is found without them, too, unless it goes up out of one of them by a double
dot: there is nothing in them but other such directories. So no watched file comes or goes with them, if none of the
watched paths and of the links below takes such a way.
-/
namespace Hotload.Files

namespace Tree

/-- From a location, names lead up out of one of some locations by a double dot. -/
inductive Climbs (t : Tree) (s : Location → Prop) : Location → List String → Prop where
  | here {l : Location} {rest : List String} : s l → Climbs t s l (".." :: rest)
  | idle {l : Location} {name : String} {rest : List String} : Path.isIdle name = true → Climbs t s l rest →
      Climbs t s l (name :: rest)
  | up {l : Location} {rest : List String} : Climbs t s l.dropLast rest → Climbs t s l (".." :: rest)
  | down {l : Location} {name : String} {rest : List String} : t.get? (l ++ [name]) = some .directory →
      Climbs t s (l ++ [name]) rest → Climbs t s l (name :: rest)
  | jump {l : Location} {name target : String} {rest : List String} : t.get? (l ++ [name]) = some (.link target) →
      Climbs t s (linkStart l target) (components target ++ rest) → Climbs t s l (name :: rest)

/-- A directory that another tree does not have. -/
def Lost (t t' : Tree) (l : Location) : Prop :=
  t.get? l = some .directory ∧ t'.get? l ≠ some .directory

/-- All files and links of a tree are in another one. -/
def Saves (t t' : Tree) : Prop :=
  ∀ l n, n ≠ .directory → t.get? l = some n → t'.get? l = some n

variable {t t' : Tree} {i : Intent} {k : Nat} {l m : Location} {names : List String} {n : Node}

theorem not_climbs {s : Location → Prop} (h : ∀ l, ¬s l) : ¬t.Climbs s l names := by
  intro hc
  induction hc with
  | here hs => exact h _ hs
  | idle _ _ ih => exact ih
  | up _ ih => exact ih
  | down _ _ ih => exact ih
  | jump _ _ ih => exact ih

/-- The directory of a file or link is in the other tree, too. -/
theorem Saves.within {name : String} (hs : Saves t t') (ht' : t'.Proper) (hg : t.get? (l ++ [name]) = some n)
    (hn : n ≠ .directory) : t'.get? l = some .directory :=
  ht'.within _ _ _ (hs _ _ hn hg)

/-- A way out of a directory that the other tree does not have, and not up, leads to nothing that it has. -/
theorem Leads.lost (ht' : t'.Proper) (hs : Saves t t') (h : Leads t i k l names (.found m n)) (hl : Lost t t' l)
    (hc : ¬t.Climbs (Lost t t') l names) : t'.get? m ≠ some n := by
  generalize hx : Landing.found m n = x at h
  induction h with
  | here =>
    cases hx
    exact hl.2
  | absent => cases hx
  | idle hi _ ih => exact ih hl (fun hc' => hc (.idle hi hc')) hx
  | up => exact absurd (.here hl) hc
  | file _ hg => exact absurd (hs.within ht' hg nofun) hl.2
  | link _ _ hg => exact absurd (hs.within ht' hg nofun) hl.2
  | down _ hg _ ih =>
    refine ih ⟨hg, fun hg' => ?_⟩ (fun hc' => hc (.down hg hc')) hx
    exact hl.2 (ht'.within _ _ _ hg')
  | jump _ _ hg => exact absurd (hs.within ht' hg nofun) hl.2

/-- A way to what the other tree has as well is one there, if it does not go up out of a directory that is not there. -/
theorem Leads.save (ht' : t'.Proper) (hs : Saves t t') (h : Leads t i k l names (.found m n))
    (hl : t'.get? l = some .directory) (hm : t'.get? m = some n) (hc : ¬t.Climbs (Lost t t') l names) :
    Leads t' i k l names (.found m n) := by
  generalize hx : Landing.found m n = x at h ⊢
  induction h with
  | here => exact .here
  | absent => cases hx
  | idle hi _ ih => exact .idle hi (ih hl (fun hc' => hc (.idle hi hc')) hx)
  | @up _ l _ _ _ ih =>
    refine .up (ih ?_ (fun hc' => hc (.up hc')) hx)
    obtain rfl | ⟨above, name, rfl⟩ := List.eq_nil_or_concat' l
    · rfl
    · rw [List.dropLast_concat]
      exact ht'.within above name _ hl
  | file he =>
    cases hx
    exact .file he hm
  | link he hf =>
    cases hx
    exact .link he hf hm
  | @down _ l name _ _ he hg hrest ih =>
    have hc' (hc' : t.Climbs (Lost t t') (l ++ [name]) _) := hc (.down hg hc')
    by_cases hg' : t'.get? (l ++ [name]) = some .directory
    · exact .down he hg' (ih hg' hc' hx)
    · rw [← hx] at hrest
      exact absurd hm (hrest.lost ht' hs ⟨hg, hg'⟩ hc')
  | @jump _ l _ target _ _ he hf hg _ ih =>
    refine .jump he hf (hs _ _ nofun hg) (ih ?_ (fun hc' => hc (.jump hg hc')) hx)
    split
    · rfl
    · exact hl

end Tree

namespace Disk

/-- The files and links of one state are in another one, and no watched path and no link below a watched directory goes up
out of a directory that is not there. -/
structure Level (d d' : Disk) (ps : List Path) : Prop where
  workingDirectory : d'.workingDirectory = d.workingDirectory
  saves : d.tree.Saves d'.tree
  path : ∀ p ∈ ps, ¬d.tree.Climbs (d.tree.Lost d'.tree) (d.start p) p.parts
  link : ∀ p ∈ ps, ∀ l names target, d.look ⟨true, false⟩ p = .ok (.found l .directory) →
    d.tree.get? (l ++ names) = some (.link target) →
    ¬d.tree.Climbs (d.tree.Lost d'.tree) (d.start p) (p.parts ++ names)

variable {d d' : Disk} {ps : List Path} {p q : Path} {m : Location} {n : Node} {t : Int}

theorem look_save (ht' : d'.tree.Proper) (hs' : d'.Grounded p) (hw : d'.workingDirectory = d.workingDirectory)
    (hs : d.tree.Saves d'.tree) (h : d.look ⟨true, false⟩ p = .ok (.found m n)) (hm : d'.tree.get? m = some n)
    (hc : ¬d.tree.Climbs (d.tree.Lost d'.tree) (d.start p) p.parts) : d'.look ⟨true, false⟩ p = .ok (.found m n) := by
  obtain ⟨hnul, hb, hleads⟩ := look_eq_ok.1 h
  have hstart : d'.start p = d.start p := by simp [start, hw]
  refine look_eq_ok.2 ⟨hnul, hb, ?_⟩
  rw [hstart]
  exact hleads.save ht' hs (hstart ▸ hs') hm hc

/-- Watched files stay watched. -/
theorem Level.watched (h : Level d d' ps) (ht : d.tree.Proper) (hs : ∀ p ∈ ps, d.Grounded p) (ht' : d'.tree.Proper)
    (hs' : ∀ p ∈ ps, d'.Grounded p) (hq : d.Watched ps t q) : d'.Watched ps t q := by
  have hlook {p : Path} {m : Location} {n : Node} (hp : d'.Grounded p) :=
    look_save (m := m) (n := n) ht' hp h.workingDirectory h.saves
  have hdirectory {l : Location} {names : List String} {n : Node} (hg : d.tree.get? (l ++ names) = some n)
      (hn : n ≠ .directory) (hl : d.tree.get? l = some .directory) : d'.tree.get? l = some .directory := by
    refine ht'.directory_of_prefix (h.saves _ _ hn hg) (List.prefix_append l names) fun heq => ?_
    rw [← heq, hl] at hg
    cases hg
    exact hn rfl
  cases hq with
  | itself hp hfile =>
    exact .itself hp (hlook (hs' _ hp) hfile (h.saves _ _ nofun (get?_of_look ht (hs _ hp) hfile)) (h.path _ hp))
  | file hp hl hg hshort =>
    have hl' := hdirectory hg nofun (get?_of_look ht (hs _ hp) hl)
    exact .file hp (hlook (hs' _ hp) hl hl' (h.path _ hp)) (h.saves _ _ nofun hg) hshort
  | link hp hl hg hfile =>
    have hl' := hdirectory hg nofun (get?_of_look ht (hs _ hp) hl)
    have hfile' := h.saves _ (.file _ _) nofun (get?_of_look ht ((hs _ hp).descend _) hfile)
    exact .link hp (hlook (hs' _ hp) hl hl' (h.path _ hp)) (h.saves _ _ nofun hg)
      (hlook ((hs' _ hp).descend _) hfile hfile' (h.link _ hp _ _ _ hl hg))

/-- With the same entries, in whatever order they are listed, the same files are watched. -/
theorem level_of_same (hw : d'.workingDirectory = d.workingDirectory) (hg : ∀ l, d'.tree.get? l = d.tree.get? l) :
    Level d d' ps := by
  have hnone : ∀ l, ¬d.tree.Lost d'.tree l := fun l hl => hl.2 ((hg l).trans hl.1)
  exact ⟨hw, fun l n _ hn => (hg l).trans hn, fun _ _ => Tree.not_climbs hnone, fun _ _ _ _ _ _ _ => Tree.not_climbs hnone⟩

/-- If only directories come and go, nothing was altered. -/
theorem Level.not_altered (h : Level d d' ps) (h' : Level d' d ps) (hw : d.Watchable ps) (hw' : d'.Watchable ps) :
    ¬Altered d d' ps :=
  (Watchable.not_altered_iff hw').2 fun _ _ =>
    ⟨h.watched hw.proper hw.grounded hw'.proper hw'.grounded, h'.watched hw'.proper hw'.grounded hw.proper hw.grounded⟩

end Disk

end Hotload.Files
