import Hotload.Proofs.Files.Watched

/-!
Watched paths that add nothing. What a path stands for that goes on from another one is below that one anyway, unless the
way between them goes through a link to a directory; what is below such a link is not looked at from above it.
-/
namespace Hotload.Files

theorem Path.descend_descend (p : Path) (first second : List String) :
    (p.descend first).descend second = p.descend (first ++ second) := by
  simp only [descend, List.append_assoc]

theorem Path.mem_ancestry_descend (p : Path) (names : List String) : p ∈ (p.descend names).ancestry :=
  mem_ancestry_iff.2 ⟨rfl, List.prefix_append p.parts names⟩

/-- From a directory, a name that is looked up leads to its entry, or the entry is a link. -/
theorem Tree.Leads.entry {t : Tree} {i : Intent} {k : Nat} {l m : Location} {name : String} {n : Node}
    (h : Leads t i k l [name] (.found m n)) (hd : IsDownward name) :
    m = l ++ [name] ∧ t.get? m = some n ∨ ∃ target, t.get? (l ++ [name]) = some (.link target) := by
  cases h with
  | idle hi => exact absurd hi hd.not_idle
  | up => exact absurd hd not_isDownward_up
  | file _ hg => exact .inl ⟨rfl, hg⟩
  | link _ _ hg => exact .inr ⟨_, hg⟩
  | jump _ _ hg => exact .inr ⟨_, hg⟩
  | down _ hg h =>
    cases h
    exact .inl ⟨rfl, hg⟩

namespace Disk

/-- On the way from a path by some names, no link leads to a directory. -/
def Unlinking (d : Disk) (p : Path) (names : List String) : Prop :=
  ∀ first l target m, first <+: names → d.look ⟨true, false⟩ p = .ok (.found l .directory) →
    d.tree.get? (l ++ first) = some (.link target) → d.look ⟨true, false⟩ (p.descend first) ≠ .ok (.found m .directory)

/-- A path goes on from another one by names, and not through a link to a directory. -/
def Nested (d : Disk) (p q : Path) : Prop :=
  ∃ names, q = p.descend names ∧ (∀ name ∈ names, IsDownward name) ∧ d.Unlinking p names

/-- Each of some paths is nested in one of others. -/
def Covers (d : Disk) (ps ps' : List Path) : Prop :=
  ∀ q ∈ ps', ∃ p ∈ ps, d.Nested p q

variable {d : Disk} {ps ps' : List Path} {p q r : Path} {l m : Location} {names first : List String} {name : String} {n : Node}
  {t : Int} {x : Landing}

/-- What leads to something has a directory above it. -/
theorem look_before (h : d.look ⟨true, false⟩ (p.child name) = .ok x) :
    ∃ m, d.look ⟨true, false⟩ p = .ok (.found m .directory) := by
  obtain ⟨hn, hb, hleads⟩ := look_eq_ok.1 h
  obtain ⟨m, hm⟩ := hleads.start (List.cons_ne_nil name [])
  exact ⟨m, look_eq_ok.2 ⟨Path.hasNul_of_append hn, Path.byteSize_lt_of_above (List.prefix_append _ [name]) hb, hm⟩⟩

/-- What is found under a name in a directory is its entry, unless that is a link. -/
theorem look_entry (hl : d.look ⟨true, false⟩ p = .ok (.found l .directory)) (hd : IsDownward name)
    (h : d.look ⟨true, false⟩ (p.child name) = .ok (.found m n)) :
    m = l ++ [name] ∧ d.tree.get? m = some n ∨ ∃ target, d.tree.get? (l ++ [name]) = some (.link target) := by
  obtain ⟨j, -, hwalk⟩ := (look_eq_ok.1 hl).2.2.resume rfl [name]
  have hleads := (look_eq_ok.1 h).2.2.walk_eq
  have hlast : d.tree.Leads ⟨true, false⟩ j l [name] (.found m n) := Tree.leads_of_walk (hwalk.symm.trans hleads)
  exact hlast.entry hd

/-- On the way to a nested path, directories are where their names say. -/
theorem location_of_nested (hl : d.look ⟨true, false⟩ p = .ok (.found l .directory)) (hd : ∀ name ∈ names, IsDownward name)
    (hlinks : d.Unlinking p names) (hfirst : first <+: names)
    (h : d.look ⟨true, false⟩ (p.descend first) = .ok (.found m .directory)) : m = l ++ first := by
  induction first using List.reverseRecOn generalizing m with
  | nil =>
    rw [Path.descend_nil, hl] at h
    cases h
    exact (List.append_nil l).symm
  | append_singleton above name ih =>
    rw [Path.descend_concat] at h
    obtain ⟨m', hm'⟩ := look_before h
    obtain rfl := ih ((List.prefix_append above [name]).trans hfirst) hm'
    have hname : IsDownward name := hd name (hfirst.subset (by simp))
    obtain ⟨hm, -⟩ | ⟨target, hg⟩ := look_entry hm' hname h
    · rw [hm, List.append_assoc]
    · rw [List.append_assoc] at hg
      exact absurd h (Path.descend_concat p above name ▸ hlinks _ l target m hfirst hl hg)

/-- Watching a nested path as well adds nothing. -/
theorem watched_of_nested (hp : p ∈ ps) (hn : d.Nested p q) (h : d.Watched [q] t r) : d.Watched ps t r := by
  obtain ⟨names, rfl, hd, hlinks⟩ := hn
  -- a file below a directory that is nested is below the outer one
  have hbelow {m : Location} (hm : d.look ⟨true, false⟩ (p.descend names) = .ok (.found m .directory)) :
      ∃ l, d.look ⟨true, false⟩ p = .ok (.found l .directory) ∧ m = l ++ names := by
    obtain ⟨l, hl⟩ := look_above hm (p.mem_ancestry_descend names)
    exact ⟨l, hl, location_of_nested hl hd hlinks (List.prefix_refl names) hm⟩
  cases h with
  | itself hq hlook =>
    obtain rfl := List.mem_singleton.1 hq
    obtain rfl | ⟨above, name, rfl⟩ := List.eq_nil_or_concat' names
    · rw [Path.descend_nil] at hlook ⊢
      exact .itself hp hlook
    · have hlook' := hlook
      rw [Path.descend_concat] at hlook'
      obtain ⟨m, hm⟩ := look_before hlook'
      obtain ⟨l, hl⟩ := look_above hm (p.mem_ancestry_descend above)
      obtain rfl := location_of_nested hl hd hlinks (List.prefix_append above [name]) hm
      obtain ⟨rfl, hg⟩ | ⟨target, hg⟩ := look_entry hm (hd name (by simp)) hlook'
      · rw [List.append_assoc] at hg
        exact .file hp hl hg (look_eq_ok.1 hlook).2.1
      · rw [List.append_assoc] at hg
        exact .link hp hl hg hlook
  | file hq hm hg hshort =>
    obtain rfl := List.mem_singleton.1 hq
    obtain ⟨l, hl, rfl⟩ := hbelow hm
    rw [List.append_assoc] at hg
    rw [Path.descend_descend] at hshort ⊢
    exact .file hp hl hg hshort
  | link hq hm hg hlook =>
    obtain rfl := List.mem_singleton.1 hq
    obtain ⟨l, hl, rfl⟩ := hbelow hm
    rw [List.append_assoc] at hg
    rw [Path.descend_descend] at hlook ⊢
    exact .link hp hl hg hlook

theorem Watched.single (h : d.Watched ps t r) : ∃ p ∈ ps, d.Watched [p] t r := by
  cases h with
  | itself hp hlook => exact ⟨_, hp, .itself List.mem_cons_self hlook⟩
  | file hp hl hg hshort => exact ⟨_, hp, .file List.mem_cons_self hl hg hshort⟩
  | link hp hl hg hlook => exact ⟨_, hp, .link List.mem_cons_self hl hg hlook⟩

theorem Covers.watched (hc : d.Covers ps ps') (h : d.Watched ps' t r) : d.Watched ps t r := by
  obtain ⟨q, hq, h⟩ := h.single
  obtain ⟨p, hp, hn⟩ := hc q hq
  exact watched_of_nested hp hn h

/-- A path is nested in itself. -/
theorem nested_refl (ht : d.tree.Proper) (hs : d.Grounded p) : d.Nested p p := by
  refine ⟨[], (Path.descend_nil p).symm, by simp, ?_⟩
  intro first l target m hfirst hl hg
  rw [List.prefix_nil.1 hfirst, List.append_nil, get?_of_look ht hs hl] at hg
  cases hg

/-- Neither the order of the paths nor their repetitions matter. -/
theorem covers_of_subset (ht : d.tree.Proper) (hs : ∀ p ∈ ps', d.Grounded p) (h : ps' ⊆ ps) : d.Covers ps ps' :=
  fun q hq => ⟨q, h hq, nested_refl ht (hs q hq)⟩

end Disk

end Hotload.Files
