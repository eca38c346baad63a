import Hotload.Files.Listing

/-!
What a listing tells. It has a file just if some watched path stands for it and leads to it, and then it tells the time of
that file. The listing of a single file is that file alone.
-/
namespace Hotload.Files

namespace Listing

variable {es l : Listing} {p q : Path} {m t : Int}

theorem mem_insert_self (p : Path) (m : Int) (l : Listing) : (p, m) ∈ insert p m l := by
  induction l with
  | nil => exact List.mem_singleton_self _
  | cons e l ih =>
    obtain ⟨q, t⟩ := e
    unfold insert
    split
    · exact List.mem_cons_self
    · split
      · exact List.mem_cons_self
      · exact List.mem_cons_of_mem _ ih

theorem mem_insert_of_mem (hq : q ≠ p) (h : (q, t) ∈ l) : (q, t) ∈ insert p m l := by
  induction l with
  | nil => cases h
  | cons e l ih =>
    obtain ⟨r, u⟩ := e
    have hne : (q, t) ≠ (p, u) := fun heq => hq (congrArg Prod.fst heq)
    unfold insert
    split
    · rename_i hp
      subst hp
      exact List.mem_cons_of_mem _ (List.mem_of_ne_of_mem hne h)
    · split
      · exact List.mem_cons_of_mem _ h
      · obtain heq | h := List.mem_cons.1 h
        · rw [heq]
          exact List.mem_cons_self
        · exact List.mem_cons_of_mem _ (ih h)

theorem mem_of_mem_insert (h : (q, t) ∈ insert p m l) : (q, t) = (p, m) ∨ (q, t) ∈ l := by
  induction l with
  | nil => exact .inl (List.mem_singleton.1 h)
  | cons e l ih =>
    obtain ⟨r, u⟩ := e
    unfold insert at h
    split at h
    · exact (List.mem_cons.1 h).imp_right (List.mem_cons_of_mem _)
    · split at h
      · exact List.mem_cons.1 h
      · obtain heq | h := List.mem_cons.1 h
        · exact .inr (heq ▸ List.mem_cons_self)
        · exact (ih h).imp_right (List.mem_cons_of_mem _)

theorem mem_foldl (hf : ∀ e ∈ es, e.1 = q → e.2 = t) (h : (q, t) ∈ l ∨ (q, t) ∈ es) :
    (q, t) ∈ es.foldl (fun l e => insert e.1 e.2 l) l := by
  induction es generalizing l with
  | nil => exact h.resolve_right List.not_mem_nil
  | cons e es ih =>
    refine ih (fun e' he' => hf e' (List.mem_cons_of_mem _ he')) ?_
    by_cases hq : e.1 = q
    · left
      have ht := hf e List.mem_cons_self hq
      rw [← hq, ← ht]
      exact mem_insert_self _ _ _
    · obtain h | h := h
      · exact .inl (mem_insert_of_mem (Ne.symm hq) h)
      · refine .inr (List.mem_of_ne_of_mem ?_ h)
        rintro rfl
        exact hq rfl

theorem mem_of_mem_foldl (h : (q, t) ∈ es.foldl (fun l e => insert e.1 e.2 l) l) : (q, t) ∈ l ∨ (q, t) ∈ es := by
  induction es generalizing l with
  | nil => exact .inl h
  | cons e es ih =>
    obtain h | h := ih h
    · refine (mem_of_mem_insert h).symm.imp_right fun heq => ?_
      rw [heq]
      exact List.mem_cons_self
    · exact .inr (List.mem_cons_of_mem _ h)

/-- If no path is given with two times, a listing has what it was made of. -/
theorem mem_ofList (hf : ∀ e ∈ es, ∀ e' ∈ es, e.1 = e'.1 → e.2 = e'.2) : (q, t) ∈ ofList es ↔ (q, t) ∈ es := by
  refine ⟨fun h => (mem_of_mem_foldl h).resolve_left List.not_mem_nil, fun h => mem_foldl ?_ (.inr h)⟩
  exact fun e he hq => hf e he _ h hq

end Listing

namespace Disk

variable {d : Disk} {ps : List Path} {p q : Path} {l k : Location} {content : ByteArray} {t : Int} {ls : Listing}

theorem modified?_of_look (h : d.look ⟨true, false⟩ p = .ok (.found l (.file content t))) : d.modified? p = some t := by
  rw [modified?, h]

theorem filesAt_of_look (h : d.look ⟨true, false⟩ p = .ok (.found l (.file content t))) : d.filesAt p = .ok [p] := by
  rw [filesAt, h]

theorem modified?_of_absent {name : String} (h : d.look ⟨true, false⟩ p = .ok (.absent l name)) : d.modified? p = none := by
  rw [modified?, h]

theorem filesAt_of_absent {name : String} (h : d.look ⟨true, false⟩ p = .ok (.absent l name)) : d.filesAt p = .ok [] := by
  rw [filesAt, h]

theorem filesAt_of_directory (h : d.look ⟨true, false⟩ p = .ok (.found l .directory)) :
    d.filesAt p = .ok (d.filesBelow l p) := by
  rw [filesAt, h]

/-- A path that cannot be followed, and does not lead to nothing either, has no listing. -/
theorem snapshot_of_error {f : Failure} {ps : List Path} (h : d.look ⟨true, false⟩ p = .error f) (hf : meansNothing f = false) :
    d.snapshot (p :: ps) = .error f := by
  have hfiles : d.filesAt p = .error f := by
    rw [filesAt, h]
    exact if_neg (Bool.eq_false_iff.1 hf)
  rw [snapshot, List.mapM_cons, hfiles]
  rfl

/-- Every entry below a directory that is no directory is among its files. -/
theorem mem_filesBelow {names : List String} {n : Node} (hne : names ≠ []) (hg : d.tree.get? (l ++ names) = some n)
    (hn : n ≠ .directory) : ⟨p.anchor, p.parts ++ names⟩ ∈ d.filesBelow l p := by
  have hentry : (l ++ names, n) ∈ d.tree.entries := by
    unfold Tree.get? at hg
    rw [if_neg (by simp [hne])] at hg
    exact mem_of_valueAt? hg
  have hbelow : (names, n) ∈ d.tree.below l := by
    refine List.mem_filterMap.2 ⟨_, hentry, ?_⟩
    have hlen : 0 < names.length := List.length_pos_iff.2 hne
    simp [hlen]
  refine List.mem_filterMap.2 ⟨_, hbelow, ?_⟩
  cases n with
  | directory => exact absurd rfl hn
  | file | link => rfl

/-- The listing of a file. -/
theorem snapshot_of_look (h : d.look ⟨true, false⟩ p = .ok (.found l (.file content t))) :
    d.snapshot [p] = .ok [(p, t)] := by
  simp only [snapshot, List.mapM_cons, filesAt_of_look h]
  simp [modified?_of_look h, pure, Except.pure, bind, Except.bind, Listing.ofList, Listing.insert]

theorem mem_mapM_ok {α β : Type} {f : α → Outcome β} {as : List α} {bs : List β} (h : as.mapM f = .ok bs) (b : β) :
    b ∈ bs ↔ ∃ a ∈ as, f a = .ok b := by
  induction as generalizing bs with
  | nil =>
    rw [List.mapM_nil] at h
    cases h
    simp
  | cons a as ih =>
    rw [List.mapM_cons] at h
    cases hf : f a with
    | error e =>
      rw [hf] at h
      cases h
    | ok c =>
      rw [hf] at h
      cases hm : as.mapM f with
      | error e =>
        rw [hm] at h
        cases h
      | ok cs =>
        rw [hm] at h
        cases h
        simp [ih hm, hf, eq_comm]

/-- A listing has a file just if a watched path stands for it and the path of the file leads to it. -/
theorem mem_snapshot (h : d.snapshot ps = .ok ls) :
    (q, t) ∈ ls ↔ d.modified? q = some t ∧ ∃ p ∈ ps, ∃ files, d.filesAt p = .ok files ∧ q ∈ files := by
  unfold snapshot at h
  cases hm : ps.mapM d.filesAt with
  | error e =>
    rw [hm] at h
    cases h
  | ok filess =>
    rw [hm] at h
    cases h
    rw [Listing.mem_ofList]
    · simp only [List.mem_filterMap, List.mem_flatten, Option.map_eq_some_iff, Prod.mk.injEq, mem_mapM_ok hm]
      constructor
      · rintro ⟨p, ⟨files, ⟨r, hr, hf⟩, hp⟩, u, hu, rfl, rfl⟩
        exact ⟨hu, r, hr, files, hf, hp⟩
      · rintro ⟨hu, r, hr, files, hf, hp⟩
        exact ⟨q, ⟨files, ⟨r, hr, hf⟩, hp⟩, t, hu, rfl, rfl⟩
    · simp only [List.mem_filterMap, Option.map_eq_some_iff]
      rintro _ ⟨p, -, u, hu, rfl⟩ _ ⟨p', -, u', hu', rfl⟩ rfl
      exact Option.some.inj (hu.symm.trans hu')

end Disk

end Hotload.Files
