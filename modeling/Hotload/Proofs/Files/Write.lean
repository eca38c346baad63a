import Hotload.Proofs.Files.Walk

/-!
What writing a file and making directories do to a tree. A file is written where there was a file or nothing and can be
looked at from then on by the same path; directories are made where there was nothing. All other entries stay.
-/
namespace Hotload.Files

theorem Path.mem_ancestry {p q : Path} : q ∈ p.ancestry ↔ ∃ n ≤ p.parts.length, q = ⟨p.anchor, p.parts.take n⟩ := by
  simp only [ancestry, List.mem_map, List.mem_range]
  constructor
  · rintro ⟨k, -, rfl⟩
    exact ⟨p.parts.length - k, by omega, rfl⟩
  · rintro ⟨n, hn, rfl⟩
    exact ⟨p.parts.length - n, by omega, by rw [Nat.sub_sub_self hn]⟩

theorem Path.self_mem_ancestry (p : Path) : p ∈ p.ancestry :=
  mem_ancestry.2 ⟨p.parts.length, Nat.le_refl _, by rw [List.take_length]⟩

theorem Path.ancestry_parent {p q : Path} (h : q ∈ p.parent.ancestry) : q ∈ p.ancestry := by
  obtain ⟨n, hn, rfl⟩ := mem_ancestry.1 h
  simp only [parent, List.length_dropLast] at hn
  refine mem_ancestry.2 ⟨n, by omega, ?_⟩
  simp only [parent, List.dropLast_eq_take, List.take_take, Nat.min_eq_left hn]

namespace Tree

variable {t : Tree} {l k : Location} {content : ByteArray} {modified : Int}

theorem carries_put (hl : l ≠ []) (h : ∀ n, t.get? l = some n → ∃ content modified, n = .file content modified)
    (content : ByteArray) (modified : Int) : Carries t (t.put l (.file content modified)) := by
  intro k n hk hn
  rw [get?_put t _ k hl, if_neg, hk]
  rintro rfl
  obtain ⟨c, m, rfl⟩ := h n hk
  exact hn c m rfl

/-- Putting a file somewhere takes no directory and no link in. -/
theorem carries_of_put (hl : l ≠ []) : Carries (t.put l (.file content modified)) t := by
  intro k n hk hn
  rw [get?_put t _ k hl] at hk
  split at hk
  · cases hk
    exact absurd rfl (hn content modified)
  · exact hk

end Tree

namespace Disk

variable {d d' : Disk} {p : Path} {i : Intent} {x : Landing} {content : ByteArray} {modified : Int}

theorem look_eq_ok : d.look i p = .ok x ↔
    p.hasNul = false ∧ p.byteSize < pathLimit ∧ d.tree.Leads i linkLimit (d.start p) p.parts x := by
  unfold look
  split
  · simp [*]
  · split
    · rename_i hb
      simp [Nat.not_lt.2 hb]
    · rename_i hn hb
      have hn' : p.hasNul = false := Bool.eq_false_iff.2 hn
      simp only [hn', Nat.not_le.1 hb, true_and]
      rw [← Tree.walk_eq_ok]
      cases d.tree.walk i linkLimit (d.start p) p.parts <;> simp

theorem look_of_walk_error {e : Errno} (hn : p.hasNul = false) (hb : p.byteSize < pathLimit)
    (h : d.tree.walk i linkLimit (d.start p) p.parts = .error e) : d.look i p = .error (.system e p.toString) := by
  rw [look, if_neg (Bool.eq_false_iff.1 hn), if_neg (Nat.not_le.2 hb), h]

/-- Without a NUL in the path, every failure is one of the system. -/
theorem isSystem_of_look {f : Failure} (hn : p.hasNul = false) (h : d.look i p = .error f) : f.isSystem = true := by
  unfold look at h
  rw [if_neg (by simp [hn])] at h
  split at h
  · cases h
    rfl
  · split at h
    · cases h
    · cases h
      rfl

theorem isSystem_of_readFile {f : Failure} (hn : p.hasNul = false) (h : d.readFile p = .error f) : f.isSystem = true := by
  unfold readFile at h
  split at h
  · cases h
  · cases h
    rfl
  · cases h
    rfl
  · rename_i hl
    cases h
    exact isSystem_of_look hn hl

theorem hasNul_of_readFile {content : ByteArray} (h : d.readFile p = .ok content) : p.hasNul = false := by
  unfold readFile at h
  split at h
  · rename_i hl
    exact (look_eq_ok.1 hl).1
  · cases h
  · cases h
  · cases h

/-- A file is not read because of the system, or because its path is none. -/
theorem readFile_error {f : Failure} (h : d.readFile p = .error f) : f.isSystem = true ∨ f = .nulByte := by
  cases hn : p.hasNul with
  | false => exact .inl (isSystem_of_readFile hn h)
  | true =>
    rw [readFile, look, if_pos hn] at h
    cases h
    exact .inr rfl

/-- A way that leads to where a file can be written does so whether or not one is to be made. -/
theorem look_uncreating (h : d.look ⟨true, true⟩ p = .ok x) : d.look ⟨true, false⟩ p = .ok x := by
  obtain ⟨hn, hb, hl⟩ := look_eq_ok.1 h
  exact look_eq_ok.2 ⟨hn, hb, hl.uncreating⟩

/-- A directory is found in every tree with the same directories and links. -/
theorem look_carry_directory {l : Location} (hw : d'.workingDirectory = d.workingDirectory)
    (hc : d.tree.Carries d'.tree) (h : d.look i p = .ok (.found l .directory)) : d'.look i p = .ok (.found l .directory) := by
  obtain ⟨hn, hb, hl⟩ := look_eq_ok.1 h
  refine look_eq_ok.2 ⟨hn, hb, ?_⟩
  have hs : d'.start p = d.start p := by simp [start, hw]
  rw [hs]
  exact hl.carry_found hc nofun

/-- So is a file that is still there. -/
theorem look_carry_file {l : Location} (hw : d'.workingDirectory = d.workingDirectory) (hc : d.tree.Carries d'.tree)
    (h : d.look i p = .ok (.found l (.file content modified))) (hf : d'.tree.get? l = some (.file content modified)) :
    d'.look i p = .ok (.found l (.file content modified)) := by
  obtain ⟨hn, hb, hl⟩ := look_eq_ok.1 h
  refine look_eq_ok.2 ⟨hn, hb, ?_⟩
  have hs : d'.start p = d.start p := by simp [start, hw]
  rw [hs]
  exact hl.carry_file hc rfl hf

theorem hasNul_child {name : String} (h : p.hasNul = false) (hn : name.toList.contains (Char.ofNat 0) = false) :
    (p.child name).hasNul = false := by
  simp only [Path.hasNul] at h
  simp only [Path.hasNul, Path.child, List.any_append, h, List.any_cons, hn, List.any_nil, Bool.or_self]

theorem hasNul_parent (h : p.hasNul = false) : p.parent.hasNul = false := by
  simp only [Path.hasNul, Path.parent, List.any_eq_false] at h ⊢
  exact fun part hp => h part (List.dropLast_subset _ hp)

/-- A file in a directory is found by the path of the directory and its name. -/
theorem look_child {l : Location} {name : String} {c : Bool} (h : d.look ⟨true, false⟩ p = .ok (.found l .directory))
    (he : Tree.Enters ⟨true, c⟩ name []) (hn : name.toList.contains (Char.ofNat 0) = false)
    (hb : (p.child name).byteSize < pathLimit) (hf : d.tree.get? (l ++ [name]) = some (.file content modified)) :
    d.look ⟨true, c⟩ (p.child name) = .ok (.found (l ++ [name]) (.file content modified)) := by
  obtain ⟨hp, -, hl⟩ := look_eq_ok.1 h
  exact look_eq_ok.2 ⟨hasNul_child hp hn, hb, hl.child he hf⟩

/-- A file is written where the path leads, and that is where there was a file or nothing. -/
theorem writeFile_ok (h : d.writeFile p content modified = .ok d') :
    ∃ x, d.look ⟨true, true⟩ p = .ok x ∧ x.isWritable = true ∧
      d' = { d with tree := d.tree.put x.location (.file content modified) } := by
  unfold writeFile at h
  split at h
  · rename_i hl
    cases h
    exact ⟨_, hl, rfl, rfl⟩
  · cases h
  · rename_i hl
    cases h
    exact ⟨_, hl, rfl, rfl⟩
  · cases h

theorem writeFile_of_look (h : d.look ⟨true, true⟩ p = .ok x) (hw : x.isWritable = true) (content : ByteArray)
    (modified : Int) :
    d.writeFile p content modified = .ok { d with tree := d.tree.put x.location (.file content modified) } := by
  unfold writeFile
  rw [h]
  cases x with
  | absent parent name => rfl
  | found l n =>
    cases n with
    | file => rfl
    | directory | link => cases hw

theorem isSystem_of_writeFile {f : Failure} (hn : p.hasNul = false) (h : d.writeFile p content modified = .error f) :
    f.isSystem = true := by
  unfold writeFile at h
  split at h
  · cases h
  · cases h
    rfl
  · cases h
  · rename_i hl
    cases h
    exact isSystem_of_look hn hl

/-- What a place where a file can be written holds. -/
theorem get?_of_writable (h : d.look i p = .ok x) (hw : x.isWritable = true) :
    x.location ≠ [] ∧ ∀ n, d.tree.get? x.location = some n → ∃ c m, x = .found x.location (.file c m) ∧ n = .file c m := by
  obtain ⟨-, -, hl⟩ := look_eq_ok.1 h
  refine ⟨hl.location_ne_nil hw, fun n hg => ?_⟩
  cases x with
  | absent parent name =>
    rw [Landing.location, hl.get?_absent] at hg
    cases hg
  | found l m =>
    cases m with
    | file c t =>
      obtain hd | hf := hl.get?_found
      · cases hd
      · cases hf.symm.trans hg
        exact ⟨c, t, rfl, rfl⟩
    | directory | link => cases hw

/-- Directories and links are the same before and after a file is written. -/
theorem carries_writeFile (h : d.writeFile p content modified = .ok d') :
    d.tree.Carries d'.tree ∧ d'.tree.Carries d.tree ∧ d'.workingDirectory = d.workingDirectory ∧ d'.spare = d.spare := by
  obtain ⟨x, hl, hw, rfl⟩ := writeFile_ok h
  obtain ⟨hne, hg⟩ := get?_of_writable hl hw
  refine ⟨Tree.carries_put hne (fun n hn => ?_) _ _, Tree.carries_of_put hne, rfl, rfl⟩
  obtain ⟨c, m, -, rfl⟩ := hg n hn
  exact ⟨c, m, rfl⟩

/-- A file that was written is where the path led. -/
theorem look_written (h : d.writeFile p content modified = .ok d') (hl : d.look ⟨true, true⟩ p = .ok x) :
    d'.look ⟨true, false⟩ p = .ok (.found x.location (.file content modified)) := by
  have hc := (carries_writeFile h).1
  obtain ⟨x', hl', hw, rfl⟩ := writeFile_ok h
  cases hl.symm.trans hl'
  obtain ⟨hn, hb, hleads⟩ := look_eq_ok.1 (look_uncreating hl)
  refine look_eq_ok.2 ⟨hn, hb, hleads.carry_file hc hw ?_⟩
  rw [Tree.get?_put _ _ _ (hleads.location_ne_nil hw), if_pos rfl]

/-- A file that was written is there for whoever looks. -/
theorem look_writeFile (h : d.writeFile p content modified = .ok d') :
    ∃ l, d'.look ⟨true, false⟩ p = .ok (.found l (.file content modified)) := by
  obtain ⟨x, hl, -, -⟩ := writeFile_ok h
  exact ⟨x.location, look_written h hl⟩

/-- Nothing is lost, and what is new are directories. -/
structure Grows (d d' : Disk) : Prop where
  workingDirectory : d'.workingDirectory = d.workingDirectory
  spare : d'.spare = d.spare
  kept : ∀ l n, d.tree.get? l = some n → d'.tree.get? l = some n
  made : ∀ l n, d'.tree.get? l = some n → d.tree.get? l = some n ∨ n = .directory

theorem Grows.refl (d : Disk) : Grows d d := ⟨rfl, rfl, fun _ _ h => h, fun _ _ h => .inl h⟩

theorem Grows.trans {d'' : Disk} (h : Grows d d') (h' : Grows d' d'') : Grows d d'' where
  workingDirectory := h'.workingDirectory.trans h.workingDirectory
  spare := h'.spare.trans h.spare
  kept l n hl := h'.kept l n (h.kept l n hl)
  made l n hl := (h'.made l n hl).elim (h.made l n) .inr

theorem grows_makeDirectory (h : d.makeDirectory p = .ok d') : Grows d d' := by
  unfold makeDirectory at h
  split at h
  · cases h
  · rename_i parent name hl
    cases h
    have hne : parent ++ [name] ≠ [] := List.append_ne_nil_of_right_ne_nil _ (List.cons_ne_nil _ _)
    have hg := (look_eq_ok.1 hl).2.2.get?_absent
    refine ⟨rfl, rfl, fun l n hn => ?_, fun l n hn => ?_⟩
    · rw [Tree.get?_put _ _ _ hne, if_neg, hn]
      rintro rfl
      cases hg.symm.trans hn
    · rw [Tree.get?_put _ _ _ hne] at hn
      split at hn
      · cases hn
        exact .inr rfl
      · exact .inl hn
  · cases h

/-- A directory that was made is where the path leads, and it is all that is new. -/
theorem look_makeDirectory (h : d.makeDirectory p = .ok d') :
    ∃ l, d'.look ⟨false, false⟩ p = .ok (.found l .directory) ∧
      ∀ k n, d'.tree.get? k = some n → d.tree.get? k = some n ∨ k = l ∧ n = .directory := by
  have hgrows := grows_makeDirectory h
  unfold makeDirectory at h
  split at h
  · cases h
  · rename_i parent name hl
    cases h
    have hne : parent ++ [name] ≠ [] := List.append_ne_nil_of_right_ne_nil _ (List.cons_ne_nil _ _)
    obtain ⟨hn, hb, hleads⟩ := look_eq_ok.1 hl
    refine ⟨parent ++ [name], look_eq_ok.2 ⟨hn, hb, hleads.carry_made (fun l m hg _ => hgrows.kept l m hg) ?_⟩,
      fun k n hg => ?_⟩
    · rw [Tree.get?_put _ _ _ hne, if_pos rfl]
    · rw [Tree.get?_put _ _ _ hne] at hg
      split at hg
      · rename_i hk
        cases hg
        exact .inr ⟨hk.symm, rfl⟩
      · exact .inl hg
  · cases h

theorem makeDirectory_of_look {l : Location} {name : String} (h : d.look ⟨false, false⟩ p = .ok (.absent l name)) :
    d.makeDirectory p = .ok { d with tree := d.tree.put (l ++ [name]) .directory } := by
  rw [makeDirectory, h]

/-- A directory that is missing is made once the one above it is there. -/
theorem makeDirectories_below {d₁ d₂ : Disk} (h : d.makeDirectory p = .error (missing p)) (hp : p.parts ≠ [])
    (hd : d.makeDirectories p.parent = (.ok (), d₁)) (hm : d₁.makeDirectory p = .ok d₂) :
    d.makeDirectories p = (.ok (), d₂) := by
  have hmiss : isMissing (missing p) = true := rfl
  rw [makeDirectories, h]
  dsimp only
  rw [if_pos hmiss, dif_neg hp, hd]
  dsimp only
  rw [hm]

/-- Nothing else is made if the directory is there as soon as the one above it is. -/
theorem makeDirectories_beside {d₁ : Disk} {l : Location} (h : d.makeDirectory p = .error (missing p)) (hp : p.parts ≠ [])
    (hd : d.makeDirectories p.parent = (.ok (), d₁))
    (hl : ∀ follow, d₁.look ⟨follow, false⟩ p = .ok (.found l .directory)) :
    d.makeDirectories p = (.ok (), d₁) := by
  have hmiss : isMissing (missing p) = true := rfl
  have hsys : (Failure.system .present p.toString).isSystem = true := rfl
  have hm : d₁.makeDirectory p = .error (.system .present p.toString) := by rw [makeDirectory, hl]
  have hs : d₁.settle p (.system .present p.toString) = .ok () := by
    rw [settle, if_pos hsys, isDirectory, node?, hl]
    rfl
  rw [makeDirectories, h]
  dsimp only
  rw [if_pos hmiss, dif_neg hp, hd]
  dsimp only
  rw [hm]
  dsimp only
  rw [if_neg (show ¬isMissing (.system .present p.toString) = true from nofun), hs]

theorem look_following {l : Location} {c : Bool} (h : d.look ⟨false, c⟩ p = .ok (.found l .directory)) :
    d.look ⟨true, c⟩ p = .ok (.found l .directory) := by
  obtain ⟨hn, hb, hl⟩ := look_eq_ok.1 h
  exact look_eq_ok.2 ⟨hn, hb, hl.following⟩

theorem isDirectory_ok (h : d.isDirectory p = .ok true) : ∃ l, d.look ⟨true, false⟩ p = .ok (.found l .directory) := by
  unfold isDirectory node? at h
  split at h
  · rename_i l n hl
    cases n with
    | directory => exact ⟨l, hl⟩
    | file | link => cases h
  · cases h
  · split at h <;> cases h

theorem settle_ok {f : Failure} (h : d.settle p f = .ok ()) : ∃ l, d.look ⟨true, false⟩ p = .ok (.found l .directory) := by
  unfold settle at h
  split at h
  · split at h
    · rename_i hd
      exact isDirectory_ok hd
    · cases h
    · cases h
  · cases h

/-- What was made with all that was missing above it is a directory. -/
theorem look_makeDirectories (h : d.makeDirectories p = (.ok (), d')) :
    ∃ l, d'.look ⟨true, false⟩ p = .ok (.found l .directory) := by
  have hmade {d d' : Disk} {p : Path} (hm : d.makeDirectory p = .ok d') :
      ∃ l, d'.look ⟨true, false⟩ p = .ok (.found l .directory) := by
    obtain ⟨l, hl, -⟩ := look_makeDirectory hm
    exact ⟨l, look_following hl⟩
  rw [makeDirectories] at h
  split at h
  · rename_i hm
    cases h
    exact hmade hm
  · split at h
    · split at h
      · cases h
      · split at h
        · cases h
        · split at h
          · rename_i hm
            cases h
            exact hmade hm
          · rw [Prod.mk.injEq] at h
            obtain ⟨hs, rfl⟩ := h
            split at hs
            · cases hs
            · exact settle_ok hs
    · rw [Prod.mk.injEq] at h
      obtain ⟨hs, rfl⟩ := h
      exact settle_ok hs

/-- Whatever comes of it, making directories only adds directories. -/
theorem grows_makeDirectories (d : Disk) (p : Path) : Grows d (d.makeDirectories p).2 := by
  fun_induction makeDirectories d p with
  | case1 p d' h => exact grows_makeDirectory h
  | case2 => exact .refl d
  | case3 p f h hm hp g d' hd ih => rwa [hd] at ih
  | case4 p f h hm hp d' hd d'' h' ih =>
    rw [hd] at ih
    exact ih.trans (grows_makeDirectory h')
  | case5 p f h hm hp d' hd g h' ih => rwa [hd] at ih
  | case6 => exact .refl d

/-- A directory that a path, or one above it, leads to. -/
def OnTheWay (d : Disk) (p : Path) (l : Location) : Prop :=
  ∃ q ∈ p.ancestry, d.look ⟨false, false⟩ q = .ok (.found l .directory)

theorem OnTheWay.of_parent {l : Location} (h : d.OnTheWay p.parent l) : d.OnTheWay p l := by
  obtain ⟨q, hq, hl⟩ := h
  exact ⟨q, Path.ancestry_parent hq, hl⟩

theorem OnTheWay.carry {l : Location} (hw : d'.workingDirectory = d.workingDirectory) (hc : d.tree.Carries d'.tree)
    (h : d.OnTheWay p l) : d'.OnTheWay p l := by
  obtain ⟨q, hq, hl⟩ := h
  exact ⟨q, hq, look_carry_directory hw hc hl⟩

theorem Grows.carries (h : Grows d d') : d.tree.Carries d'.tree := fun l n hg _ => h.kept l n hg

/-- Whatever comes of making directories, each new one is on the way. -/
theorem onTheWay_makeDirectories (d : Disk) (p : Path) {l : Location} {n : Node}
    (h : (d.makeDirectories p).2.tree.get? l = some n) :
    d.tree.get? l = some n ∨ n = .directory ∧ (d.makeDirectories p).2.OnTheWay p l := by
  fun_induction makeDirectories d p with
  | case1 p d' hm =>
    obtain ⟨k, hl, hnew⟩ := look_makeDirectory hm
    obtain hold | ⟨rfl, rfl⟩ := hnew _ _ h
    · exact .inl hold
    · exact .inr ⟨rfl, p, p.self_mem_ancestry, hl⟩
  | case2 => exact .inl h
  | case3 p f hm hf hp g d' hd ih =>
    rw [hd] at ih
    exact (ih h).imp_right fun ⟨hn, hw⟩ => ⟨hn, hw.of_parent⟩
  | case4 p f hm hf hp d' hd d'' hm' ih =>
    rw [hd] at ih
    obtain ⟨k, hl, hnew⟩ := look_makeDirectory hm'
    obtain hold | ⟨rfl, rfl⟩ := hnew _ _ h
    · have hgrows := grows_makeDirectory hm'
      exact (ih hold).imp_right fun ⟨hn, hw⟩ => ⟨hn, (hw.carry hgrows.workingDirectory hgrows.carries).of_parent⟩
    · exact .inr ⟨rfl, p, p.self_mem_ancestry, hl⟩
  | case5 p f hm hf hp d' hd g hm' ih =>
    rw [hd] at ih
    exact (ih h).imp_right fun ⟨hn, hw⟩ => ⟨hn, hw.of_parent⟩
  | case6 => exact .inl h

theorem isSystem_of_makeDirectory {f : Failure} (hn : p.hasNul = false) (h : d.makeDirectory p = .error f) :
    f.isSystem = true := by
  unfold makeDirectory at h
  split at h
  · cases h
    rfl
  · cases h
  · rename_i hl
    cases h
    exact isSystem_of_look hn hl

/-- A question about what is there only fails as the system does. -/
theorem isSystem_of_node? {f : Failure} (h : d.node? p = .error f) : f.isSystem = true := by
  unfold node? at h
  split at h
  · cases h
  · cases h
  · rename_i g hl
    split at h
    · cases h
    · rename_i hg
      cases h
      by_cases hn : p.hasNul = true
      · rw [look, if_pos hn] at hl
        cases hl
        exact absurd rfl hg
      · exact isSystem_of_look (Bool.eq_false_iff.2 hn) hl

theorem node?_of_map {α : Type} {g : Option Node → α} {f : Failure} (h : (d.node? p).map g = .error f) :
    d.node? p = .error f := by
  cases hd : d.node? p with
  | ok n =>
    rw [hd] at h
    cases h
  | error f' =>
    rw [hd] at h
    cases h
    rfl

theorem isSystem_of_fileExists {f : Failure} (h : d.fileExists p = .error f) : f.isSystem = true :=
  isSystem_of_node? (node?_of_map h)

theorem isSystem_of_isDirectory {f : Failure} (h : d.isDirectory p = .error f) : f.isSystem = true :=
  isSystem_of_node? (node?_of_map h)

theorem isSystem_of_settle {f g : Failure} (hf : f.isSystem = true) (h : d.settle p f = .error g) : g.isSystem = true := by
  unfold settle at h
  rw [if_pos hf] at h
  split at h
  · cases h
  · cases h
    exact hf
  · rename_i hi
    cases h
    exact isSystem_of_isDirectory hi

/-- A path with a NUL in it is not even tried. -/
theorem makeDirectories_of_nul (h : p.hasNul = true) : d.makeDirectories p = (.error .nulByte, d) := by
  have hm : d.makeDirectory p = .error .nulByte := by rw [makeDirectory, look, if_pos h]
  have hs : d.settle p .nulByte = .error .nulByte := rfl
  rw [makeDirectories, hm]
  dsimp only
  rw [if_neg (show ¬isMissing .nulByte = true from nofun), hs]

theorem isSystem_of_makeDirectories {f : Failure} (hn : p.hasNul = false) (h : (d.makeDirectories p).1 = .error f) :
    f.isSystem = true := by
  fun_induction makeDirectories d p generalizing f with
  | case1 => cases h
  | case2 p g hm hg hp =>
    cases h
    exact isSystem_of_makeDirectory hn hm
  | case3 p g hm hg hp f' d' hd ih =>
    cases h
    rw [hd] at ih
    exact ih (hasNul_parent hn) rfl
  | case4 => cases h
  | case5 p g hm hg hp d' hd g' h' ih =>
    have hs := isSystem_of_makeDirectory hn h'
    dsimp only at h
    split at h
    · cases h
      exact hs
    · exact isSystem_of_settle hs h
  | case6 p g hm hg => exact isSystem_of_settle (isSystem_of_makeDirectory hn hm) h

end Disk

end Hotload.Files
