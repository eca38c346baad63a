import Hotload.Proofs.Files.Denoted
import Hotload.Proofs.Files.Order

/-!
Which files are watched: the watched paths that are files, and every file below a watched directory at any depth whose path
is not too long. A link to a file counts as a file of its time, one to a directory or to nothing does not count, and what is
below a link is not looked at. A listing has the watched files and no others, so two listings are the same just if the same
files are watched with the same times.
-/
namespace Hotload.Files

/-- There is something under each location that is entered. -/
theorem Tree.exists_get?_of_mem {t : Tree} {l : Location} {n : Node} (h : (l, n) ∈ t.entries) : ∃ n', t.get? l = some n' := by
  unfold get?
  split
  · exact ⟨_, rfl⟩
  · generalize t.entries = es at h
    induction es with
    | nil => cases h
    | cons e es ih =>
      obtain ⟨k, m⟩ := e
      rw [valueAt?]
      split
      · exact ⟨m, rfl⟩
      · next hk =>
        obtain heq | h := List.mem_cons.1 h
        · exact absurd (congrArg Prod.fst heq).symm hk
        · exact ih h

namespace Disk

/-- A path stands for a watched file of some time. -/
inductive Watched (d : Disk) (ps : List Path) (modified : Int) : Path → Prop where
  | itself {p : Path} {k : Location} {content : ByteArray} : p ∈ ps →
      d.look ⟨true, false⟩ p = .ok (.found k (.file content modified)) → Watched d ps modified p
  | file {p : Path} {l : Location} {names : List String} {content : ByteArray} : p ∈ ps →
      d.look ⟨true, false⟩ p = .ok (.found l .directory) → d.tree.get? (l ++ names) = some (.file content modified) →
      (p.descend names).byteSize < pathLimit → Watched d ps modified (p.descend names)
  | link {p : Path} {l k : Location} {names : List String} {target : String} {content : ByteArray} : p ∈ ps →
      d.look ⟨true, false⟩ p = .ok (.found l .directory) → d.tree.get? (l ++ names) = some (.link target) →
      d.look ⟨true, false⟩ (p.descend names) = .ok (.found k (.file content modified)) → Watched d ps modified (p.descend names)

/-- Between two states of the files, a watched file was added, removed or modified. -/
inductive Altered (d d' : Disk) (ps : List Path) : Prop where
  | added {q : Path} {t : Int} : d'.Watched ps t q → (∀ t, ¬d.Watched ps t q) → Altered d d' ps
  | removed {q : Path} {t : Int} : d.Watched ps t q → (∀ t, ¬d'.Watched ps t q) → Altered d d' ps
  | modified {q : Path} {t t' : Int} : d.Watched ps t q → d'.Watched ps t' q → t ≠ t' → Altered d d' ps

/-- A path starts from a directory: the root, or a working directory that is there. -/
def Grounded (d : Disk) (p : Path) : Prop :=
  d.tree.get? (d.start p) = some .directory

/-- Paths that can be watched: the system does not find them too long. -/
structure Watchable (d : Disk) (ps : List Path) : Prop where
  proper : d.tree.Proper
  grounded : ∀ p ∈ ps, d.Grounded p
  neat : ∀ p ∈ ps, p.IsNeat
  fitting : ∀ p ∈ ps, ¬d.Oversized p

variable {d d' : Disk} {ps ps' : List Path} {p q : Path} {l k : Location} {names : List String} {n : Node} {t t' : Int}
  {files : List Path} {ls ls' : Listing}

theorem Grounded.descend (h : d.Grounded p) (names : List String) : d.Grounded (p.descend names) := h

theorem get?_of_look (hp : d.tree.Proper) (hs : d.Grounded p) (h : d.look ⟨true, false⟩ p = .ok (.found l n)) :
    d.tree.get? l = some n :=
  (look_eq_ok.1 h).2.2.get?_of_directory hp hs

theorem names_ne_nil (hp : d.tree.Proper) (hs : d.Grounded p) (h : d.look ⟨true, false⟩ p = .ok (.found l .directory))
    (hg : d.tree.get? (l ++ names) = some n) (hn : n ≠ .directory) : names ≠ [] := by
  rintro rfl
  rw [List.append_nil, get?_of_look hp hs h] at hg
  cases hg
  exact hn rfl

/-- What is below a directory and no link is found under the path of the directory and the names. -/
theorem look_descend (hp : d.tree.Proper) (hs : d.Grounded p) (h : d.look ⟨true, false⟩ p = .ok (.found l .directory))
    (hg : d.tree.get? (l ++ names) = some n) (hn : ∀ target, n ≠ .link target) (hb : (p.descend names).byteSize < pathLimit) :
    d.look ⟨true, false⟩ (p.descend names) = .ok (.found (l ++ names) n) := by
  induction names using List.reverseRecOn generalizing n with
  | nil =>
    rw [List.append_nil] at hg ⊢
    rw [get?_of_look hp hs h] at hg
    cases hg
    rwa [Path.descend_nil]
  | append_singleton above name ih =>
    rw [← List.append_assoc] at hg ⊢
    rw [Path.descend_concat] at hb ⊢
    have hshort : (p.descend above).byteSize < pathLimit :=
      Path.byteSize_lt_of_above (List.prefix_append _ [name]) hb
    have hdirectory := ih (hp.within _ _ _ hg) Node.directory_ne_link hshort
    have hlook := look_name hdirectory (hp.isName hg) hb (by rw [hg]; simpa using hn)
    rwa [hg] at hlook

/-- Among the files below a directory there are only entries. -/
theorem mem_filesBelow_cases (h : q ∈ d.filesBelow l p) :
    ∃ names n, q = p.descend names ∧ d.tree.get? (l ++ names) = some n := by
  obtain ⟨⟨names, n⟩, hbelow, hq⟩ := List.mem_filterMap.1 h
  obtain ⟨⟨m, entry⟩, hentry, hm⟩ := List.mem_filterMap.1 hbelow
  split at hm
  · next hprefix =>
    simp only [Bool.and_eq_true, List.isPrefixOf_iff_prefix] at hprefix
    obtain ⟨rest, rfl⟩ := hprefix.1
    cases hm
    rw [List.drop_left] at hq
    obtain ⟨n', hg⟩ := Tree.exists_get?_of_mem hentry
    refine ⟨rest, n', ?_, hg⟩
    cases entry with
    | directory => cases hq
    | file | link => exact (Option.some.inj hq).symm
  · cases hm

/-- What a watched path stands for can be told unless the system finds the path too long. -/
theorem filesAt_ok_iff : (∃ files, d.filesAt p = .ok files) ↔ ¬d.Oversized p := by
  constructor
  · rintro ⟨files, hf⟩ hlong
    rw [filesAt, hlong] at hf
    cases hf
  · intro hfits
    rw [filesAt]
    cases hl : d.look ⟨true, false⟩ p with
    | ok x =>
      cases x with
      | absent => exact ⟨_, rfl⟩
      | found l n => cases n <;> exact ⟨_, rfl⟩
    | error f =>
      obtain rfl | ⟨e, rfl | rfl | rfl | rfl, rfl⟩ := look_error rfl hl
      · exact ⟨_, rfl⟩
      · exact ⟨_, rfl⟩
      · exact ⟨_, rfl⟩
      · exact ⟨_, rfl⟩
      · exact absurd hl hfits

/-- A path stands for itself, or for what is below it. -/
theorem filesAt_cases (h : d.filesAt p = .ok files) (hq : q ∈ files) :
    q = p ∨ ∃ l names n, d.look ⟨true, false⟩ p = .ok (.found l .directory) ∧ q = p.descend names ∧
      d.tree.get? (l ++ names) = some n := by
  rw [filesAt] at h
  split at h
  · next l hl =>
    cases h
    obtain ⟨names, n, hdescend, hg⟩ := mem_filesBelow_cases hq
    exact .inr ⟨l, names, n, hl, hdescend, hg⟩
  · cases h
    exact .inl (List.mem_singleton.1 hq)
  · cases h
    cases hq
  · split at h
    · cases h
      cases hq
    · cases h

theorem mapM_ok_iff {α β : Type} {f : α → Outcome β} {as : List α} :
    (∃ bs, as.mapM f = .ok bs) ↔ ∀ a ∈ as, ∃ b, f a = .ok b := by
  induction as with
  | nil => simp [pure, Except.pure]
  | cons a as ih =>
    rw [List.forall_mem_cons, ← ih, List.mapM_cons]
    cases f a with
    | error e => simp [bind, Except.bind]
    | ok b => cases as.mapM f <;> simp [bind, Except.bind, pure, Except.pure]

/-- A listing can be made unless the system finds one of the paths too long. -/
theorem snapshot_ok_iff : (∃ ls, d.snapshot ps = .ok ls) ↔ ∀ p ∈ ps, ¬d.Oversized p := by
  simp only [← filesAt_ok_iff]
  rw [← mapM_ok_iff, snapshot]
  cases ps.mapM d.filesAt <;> simp [bind, Except.bind, pure, Except.pure]

namespace Watchable

theorem of_subset (hw : d.Watchable ps) (h : ps' ⊆ ps) : d.Watchable ps' where
  proper := hw.proper
  grounded p hp := hw.grounded p (h hp)
  neat p hp := hw.neat p (h hp)
  fitting p hp := hw.fitting p (h hp)

theorem snapshot_ok (hw : d.Watchable ps) : ∃ ls, d.snapshot ps = .ok ls :=
  snapshot_ok_iff.2 hw.fitting

theorem neat_descend (hw : d.Watchable ps) (hp : p ∈ ps) (hg : d.tree.get? (l ++ names) = some n) :
    (p.descend names).IsNeat where
  proper part hpart := by
    obtain hpart | hpart := List.mem_append.1 hpart
    · exact (hw.neat p hp).proper part hpart
    · exact (hw.proper.named _ _ hg part (List.mem_append_right l hpart)).proper
  unslashed part hpart := by
    obtain hpart | hpart := List.mem_append.1 hpart
    · exact (hw.neat p hp).unslashed part hpart
    · exact (hw.proper.named _ _ hg part (List.mem_append_right l hpart)).unslashed

theorem ordered_snapshot (hw : d.Watchable ps) (h : d.snapshot ps = .ok ls) : ls.Ordered := by
  rw [snapshot] at h
  cases hm : ps.mapM d.filesAt with
  | error f =>
    rw [hm] at h
    cases h
  | ok filess =>
    rw [hm] at h
    cases h
    refine Listing.ordered_ofList fun e he => ?_
    obtain ⟨q, hq, he⟩ := List.mem_filterMap.1 he
    obtain ⟨t, -, rfl⟩ := Option.map_eq_some_iff.1 he
    obtain ⟨files, hfiles, hq⟩ := List.mem_flatten.1 hq
    obtain ⟨p, hp, hf⟩ := (mem_mapM_ok hm files).1 hfiles
    obtain rfl | ⟨l, names, n, -, rfl, hg⟩ := filesAt_cases hf hq
    · exact hw.neat q hp
    · exact hw.neat_descend hp hg

theorem mem_filesAt (hw : d.Watchable ps) (hp : p ∈ ps) (hl : d.look ⟨true, false⟩ p = .ok (.found l .directory))
    (hg : d.tree.get? (l ++ names) = some n) (hn : n ≠ .directory) :
    ∃ files, d.filesAt p = .ok files ∧ p.descend names ∈ files :=
  ⟨_, filesAt_of_directory hl, mem_filesBelow (names_ne_nil hw.proper (hw.grounded p hp) hl hg hn) hg hn⟩

/-- A listing has a file with its time just if the file is watched. -/
theorem mem_snapshot_iff (hw : d.Watchable ps) (h : d.snapshot ps = .ok ls) : (q, t) ∈ ls ↔ d.Watched ps t q := by
  rw [mem_snapshot h]
  constructor
  · rintro ⟨hm, p, hp, files, hf, hq⟩
    rw [modified?] at hm
    split at hm
    · next k content m hlook =>
      cases hm
      obtain rfl | ⟨l, names, n, hl, rfl, hg⟩ := filesAt_cases hf hq
      · exact .itself hp hlook
      · have hshort := (look_eq_ok.1 hlook).2.1
        cases n with
        | link target => exact .link hp hl hg hlook
        | directory =>
          rw [look_descend hw.proper (hw.grounded _ hp) hl hg Node.directory_ne_link hshort] at hlook
          cases hlook
        | file content' m' =>
          rw [look_descend hw.proper (hw.grounded _ hp) hl hg (Node.file_ne_link _ _) hshort] at hlook
          cases hlook
          exact .file hp hl hg hshort
    · cases hm
  · rintro (⟨hp, hlook⟩ | ⟨hp, hl, hg, hshort⟩ | ⟨hp, hl, hg, hlook⟩)
    · exact ⟨modified?_of_look hlook, _, hp, _, filesAt_of_look hlook, List.mem_singleton_self _⟩
    · have hlook := look_descend hw.proper (hw.grounded _ hp) hl hg (Node.file_ne_link _ _) hshort
      exact ⟨modified?_of_look hlook, _, hp, hw.mem_filesAt hp hl hg (by simp)⟩
    · exact ⟨modified?_of_look hlook, _, hp, hw.mem_filesAt hp hl hg (by simp)⟩

/-- A watched file has one time. -/
theorem time_unique (hw : d.Watchable ps) (h : d.Watched ps t q) (h' : d.Watched ps t' q) : t = t' := by
  obtain ⟨ls, hs⟩ := hw.snapshot_ok
  have hm := ((mem_snapshot hs).1 ((hw.mem_snapshot_iff hs).2 h)).1
  have hm' := ((mem_snapshot hs).1 ((hw.mem_snapshot_iff hs).2 h')).1
  exact Option.some.inj (hm.symm.trans hm')

/-- Two listings are the same just if the same files are watched with the same times. -/
theorem snapshot_eq_iff (hw : d.Watchable ps) (hw' : d'.Watchable ps') (h : d.snapshot ps = .ok ls)
    (h' : d'.snapshot ps' = .ok ls') : ls = ls' ↔ ∀ q t, d.Watched ps t q ↔ d'.Watched ps' t q := by
  constructor
  · rintro rfl q t
    rw [← hw.mem_snapshot_iff h, hw'.mem_snapshot_iff h']
  · intro hsame
    refine (hw.ordered_snapshot h).eq_of_mem_iff (hw'.ordered_snapshot h') fun q t => ?_
    rw [hw.mem_snapshot_iff h, hw'.mem_snapshot_iff h', hsame]

/-- Nothing was altered if the same files are watched with the same times. -/
theorem not_altered_iff (hw' : d'.Watchable ps) :
    ¬Altered d d' ps ↔ ∀ q t, d.Watched ps t q ↔ d'.Watched ps t q := by
  constructor
  · intro h q t
    constructor
    · intro hq
      by_contra hno
      refine h (.removed hq fun t' hq' => hno ?_)
      by_cases ht : t = t'
      · rwa [ht]
      · exact absurd (.modified hq hq' ht) h
    · intro hq
      by_contra hno
      refine h (.added hq fun t' hq' => hno ?_)
      by_cases ht : t' = t
      · rwa [← ht]
      · exact absurd (.modified hq' hq ht) h
  · rintro hsame (⟨hq, hno⟩ | ⟨hq, hno⟩ | ⟨hq, hq', hne⟩)
    · exact hno _ ((hsame _ _).2 hq)
    · exact hno _ ((hsame _ _).1 hq)
    · exact hne (hw'.time_unique ((hsame _ _).1 hq) hq')

end Watchable

end Disk

end Hotload.Files
