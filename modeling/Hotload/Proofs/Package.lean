import Hotload.Package.Create
import Hotload.Proofs.Files.Canonical

/-!
What creating a package does to the files that are there. The manifest is looked for before the directories are made, and
it is written after that; in between the same path can come to lead elsewhere, as a double dot after a name that was
missing does. The file that it leads to then is the only one that can be changed.
-/
namespace Hotload.Package

open Files

variable {d d' : Disk} {root : Path} {l : Location} {text : String} {f : Failure}

/-- A file that the look for a manifest does not come to, but that is written over with one once the directories are
there. -/
inductive Overwrites (d : Disk) (root : Path) : Location → String → Prop where
  | of {d' : Disk} {l : Location} {name : String} {content : ByteArray} {modified : Int} :
      checkRoot d root = .ok () → d.makeDirectories (root.child sourceDirectory) = (.ok (), d') →
      Package.name d' root = .ok name →
      d'.look ⟨true, true⟩ (root.child manifestName) = .ok (.found l (.file content modified)) →
      Overwrites d root l (manifestText name)

/-- A failure that comes before the manifest is written. -/
inductive Fails (d : Disk) (root : Path) (f : Failure) : Prop where
  | directories {d' : Disk} : d.makeDirectories (root.child sourceDirectory) = (.error f, d') → Fails d root f
  | name {d' : Disk} : d.makeDirectories (root.child sourceDirectory) = (.ok (), d') → Package.name d' root = .error f →
      Fails d root f
  | manifest {d' : Disk} {name : String} : d.makeDirectories (root.child sourceDirectory) = (.ok (), d') →
      Package.name d' root = .ok name →
      d'.writeFile (root.child manifestName) (manifestText name).toUTF8 now = .error f → Fails d root f

/-- The manifest was written, and nothing after that but a source that was missing. -/
inductive Fills (d : Disk) (root : Path) (d' : Disk) : Prop where
  | of {d₁ d₂ : Disk} {name : String} : d.makeDirectories (root.child sourceDirectory) = (.ok (), d₁) →
      Package.name d₁ root = .ok name →
      d₁.writeFile (root.child manifestName) (manifestText name).toUTF8 now = .ok d₂ →
      (d' = d₂ ∨ ∃ entry content, d₂.fileExists entry = .ok false ∧ d₂.writeFile entry content now = .ok d') →
      Fills d root d'

theorem fillDirectory_cases (d : Disk) (root : Path) :
    (∃ f, Fails d root f ∧
      fillDirectory d root = (.error f, (d.makeDirectories (root.child sourceDirectory)).2)) ∨
      Fills d root (fillDirectory d root).2 := by
  unfold fillDirectory
  split
  · rename_i f d₁ hd
    exact .inl ⟨f, .directories hd, by rw [hd]⟩
  · rename_i d₁ hd
    split
    · rename_i f hn
      exact .inl ⟨f, .name hd hn, by rw [hd]⟩
    · rename_i name hn
      split
      · rename_i f hw
        exact .inl ⟨f, .manifest hd hn hw, by rw [hd]⟩
      · rename_i d₂ hw
        refine .inr (.of hd hn hw ?_)
        dsimp only
        split
        · exact .inl rfl
        · exact .inl rfl
        · rename_i he
          split
          · exact .inl rfl
          · rename_i d₃ hs
            exact .inr ⟨_, _, he, hs⟩

/-- A refusal changes nothing; what comes after it is told by the filling. -/
theorem create_cases (d : Disk) (root : Path) :
    (∃ f, checkRoot d root = .error f ∧ create d root = (.error f, d)) ∨
      checkRoot d root = .ok () ∧ (create d root).2 = (fillDirectory d root).2 ∧
        ∀ f, (fillDirectory d root).1 = .error f →
          (create d root).1 = .error (if f.isSystem then .packageFailed root.toString f else f) := by
  unfold create
  split
  · rename_i f hc
    exact .inl ⟨f, hc, rfl⟩
  · rename_i hc
    refine .inr ⟨hc, ?_⟩
    rcases fillDirectory d root with ⟨r, d'⟩
    cases r with
    | ok u => exact ⟨rfl, nofun⟩
    | error f =>
      refine ⟨rfl, fun g hg => ?_⟩
      cases hg
      rfl

/-- A package is created where no step fails. -/
theorem create_of_steps {d₁ d₂ d₃ : Disk} {name : String} (hc : checkRoot d root = .ok ())
    (hd : d.makeDirectories (root.child sourceDirectory) = (.ok (), d₁)) (hn : Package.name d₁ root = .ok name)
    (hw : d₁.writeFile (root.child manifestName) (manifestText name).toUTF8 now = .ok d₂)
    (he : d₂.fileExists ((root.child sourceDirectory).child entryName) = .ok false)
    (hs : d₂.writeFile ((root.child sourceDirectory).child entryName) entryText.toUTF8 now = .ok d₃) :
    (create d root).1 = .ok (root.child manifestName) := by
  have hf : fillDirectory d root = (.ok (), d₃) := by
    unfold fillDirectory
    simp only [hd, hn, hw, he, hs]
  rw [create, hc]
  dsimp only
  rw [hf]

/-- Writing a file that is missing changes no entry. -/
theorem kept_of_missing {p : Path} {content : ByteArray} {modified : Int} {n : Node}
    (hm : d.fileExists p = .ok false) (hw : d.writeFile p content modified = .ok d') (hg : d.tree.get? l = some n) :
    d'.tree.get? l = some n := by
  obtain ⟨x, hl, hx, rfl⟩ := Disk.writeFile_ok hw
  obtain ⟨hne, hnode⟩ := Disk.get?_of_writable hl hx
  rw [Tree.get?_put _ _ _ hne, if_neg, hg]
  rintro rfl
  obtain ⟨c, m, hfound, -⟩ := hnode n hg
  have hlook := Disk.look_uncreating hl
  rw [hfound] at hlook
  simp [Disk.fileExists, Disk.node?, hlook, Except.map] at hm

/-- Once the manifest is written, an entry that was there is as it was, or it is the manifest that was written over it. -/
theorem Fills.get? {n : Node} (h : Fills d root d') (hc : checkRoot d root = .ok ()) (hg : d.tree.get? l = some n) :
    d'.tree.get? l = some n ∧ (∀ text, ¬Overwrites d root l text) ∨
      ∃ text, Overwrites d root l text ∧ d'.tree.get? l = some (.file text.toUTF8 now) := by
  obtain @⟨d₁, d₂, name, hd, hn, hw, hrest⟩ := h
  have hrest {k : Location} {m : Node} (hk : d₂.tree.get? k = some m) : d'.tree.get? k = some m := by
    obtain rfl | ⟨entry, content, he, hs⟩ := hrest
    · exact hk
    · exact kept_of_missing he hs hk
  have hgrows := Disk.grows_makeDirectories d (root.child sourceDirectory)
  rw [hd] at hgrows
  obtain ⟨x, hl, hx, rfl⟩ := Disk.writeFile_ok hw
  obtain ⟨hne, hnode⟩ := Disk.get?_of_writable hl hx
  by_cases hk : x.location = l
  · subst hk
    obtain ⟨c, m, hfound, -⟩ := hnode n (hgrows.kept _ _ hg)
    rw [hfound] at hl
    refine .inr ⟨_, .of hc hd hn hl, hrest ?_⟩
    rw [Tree.get?_put _ _ _ hne, if_pos rfl]
  · refine .inl ⟨hrest ?_, fun text ho => ?_⟩
    · rw [Tree.get?_put _ _ _ hne, if_neg hk]
      exact hgrows.kept _ _ hg
    · obtain ⟨-, hd', -, hl'⟩ := ho
      rw [hd] at hd'
      cases hd'
      rw [hl] at hl'
      cases hl'
      exact hk rfl

/-- Before the manifest is written, nothing is written over. -/
theorem Fails.not_overwrites (h : Fails d root f) (text : String) : ¬Overwrites d root l text := by
  rintro ⟨-, hd, hn, hl⟩
  cases h with
  | directories hd' => cases hd.symm.trans hd'
  | name hd' hn' =>
    cases hd.symm.trans hd'
    cases hn.symm.trans hn'
  | manifest hd' hn' hw =>
    cases hd.symm.trans hd'
    cases hn.symm.trans hn'
    rw [Disk.writeFile_of_look hl rfl] at hw
    cases hw

/-- Every entry is as it was, unless it is the one that was written over with the manifest. -/
theorem get?_create {n : Node} (hg : d.tree.get? l = some n) :
    (create d root).2.tree.get? l = some n ∧ (∀ text, ¬Overwrites d root l text) ∨
      ∃ text, Overwrites d root l text ∧ (create d root).2.tree.get? l = some (.file text.toUTF8 now) := by
  obtain ⟨f, hc, h⟩ | ⟨hc, h, -⟩ := create_cases d root
  · refine .inl ⟨by rw [h]; exact hg, ?_⟩
    rintro text ⟨hc', -, -, -⟩
    cases hc.symm.trans hc'
  · obtain ⟨f, hf, hfill⟩ | hfill := fillDirectory_cases d root
    · refine .inl ⟨?_, hf.not_overwrites⟩
      rw [h, hfill]
      exact (Disk.grows_makeDirectories d _).kept _ _ hg
    · rw [h]
      exact hfill.get? hc hg

theorem Overwrites.text_eq {text' : String} (h : Overwrites d root l text) (h' : Overwrites d root l text') :
    text = text' := by
  obtain ⟨-, hd, hn, -⟩ := h
  obtain ⟨-, hd', hn', -⟩ := h'
  cases hd.symm.trans hd'
  cases hn.symm.trans hn'
  rfl

/-- What was written over was a file before, as the directories that are made are no files. -/
theorem Overwrites.get? (h : Overwrites d root l text) : ∃ content modified, d.tree.get? l = some (.file content modified) := by
  obtain ⟨-, hd, -, hl⟩ := h
  have hgrows := Disk.grows_makeDirectories d (root.child sourceDirectory)
  rw [hd] at hgrows
  obtain hn | hg := (Disk.look_eq_ok.1 hl).2.2.get?_found
  · cases hn
  · obtain hg | hn := hgrows.made _ _ hg
    · exact ⟨_, _, hg⟩
    · cases hn

theorem Overwrites.written (h : Overwrites d root l text) :
    (create d root).2.tree.get? l = some (.file text.toUTF8 now) := by
  obtain ⟨content, modified, hg⟩ := h.get?
  obtain ⟨-, hno⟩ | ⟨text', h', hnew⟩ := get?_create hg
  · exact absurd h (hno text)
  · rw [hnew, h.text_eq h']

theorem enters_manifest (c : Bool) : Tree.Enters ⟨true, c⟩ manifestName [] :=
  ⟨by decide, by decide, by cases c <;> rfl, by decide⟩

/-- A manifest that can be looked at is refused. -/
theorem checkRoot_of_manifest {content : ByteArray} {modified : Int} (hr : d.look ⟨true, false⟩ root = .ok (.found l .directory))
    (hb : (root.child manifestName).byteSize < pathLimit)
    (hg : d.tree.get? (l ++ [manifestName]) = some (.file content modified)) :
    checkRoot d root = .error (.packagePresent root.toString) := by
  have hl := Disk.look_child hr (enters_manifest false) (by decide) hb hg
  have he : d.fileExists (root.child manifestName) = .ok true := by simp [Disk.fileExists, Disk.node?, hl, Except.map]
  rw [checkRoot, he]
  rfl

theorem Fails.isScaffold (h : Fails d root f) (hn : root.hasNul = false) :
    f.isSystem = true ∨
      ∃ d', d.makeDirectories (root.child sourceDirectory) = (.ok (), d') ∧ Package.name d' root = .error f := by
  cases h with
  | directories hd =>
    have hn' : (root.child sourceDirectory).hasNul = false := Disk.hasNul_child hn (by decide)
    exact .inl (Disk.isSystem_of_makeDirectories (d := d) hn' (by rw [hd]))
  | name hd hf => exact .inr ⟨_, hd, hf⟩
  | manifest _ _ hw => exact .inl (Disk.isSystem_of_writeFile (Disk.hasNul_child hn (by decide)) hw)

/-- If the root is a directory after the manifest was written, then the manifest that it had was written over. -/
theorem Fills.overwrites {content : ByteArray} {modified : Int} (h : Fills d root d') (hc : checkRoot d root = .ok ())
    (hr : d'.look ⟨true, false⟩ root = .ok (.found l .directory))
    (hg : d.tree.get? (l ++ [manifestName]) = some (.file content modified)) :
    ∃ text, Overwrites d root (l ++ [manifestName]) text := by
  obtain @⟨d₁, d₂, name, hd, hn, hw, hrest⟩ := h
  have hr₂ : d₂.look ⟨true, false⟩ root = .ok (.found l .directory) := by
    obtain rfl | ⟨entry, source, -, hs⟩ := hrest
    · exact hr
    · obtain ⟨-, hback, hdir, -⟩ := Disk.carries_writeFile hs
      exact Disk.look_carry_directory hdir.symm hback hr
  have hr₁ : d₁.look ⟨true, false⟩ root = .ok (.found l .directory) := by
    obtain ⟨-, hback, hdir, -⟩ := Disk.carries_writeFile hw
    exact Disk.look_carry_directory hdir.symm hback hr₂
  have hg₁ : d₁.tree.get? (l ++ [manifestName]) = some (.file content modified) := by
    have hgrows := Disk.grows_makeDirectories d (root.child sourceDirectory)
    rw [hd] at hgrows
    exact hgrows.kept _ _ hg
  obtain ⟨x, hl, -, -⟩ := Disk.writeFile_ok hw
  exact ⟨_, .of hc hd hn (Disk.look_child hr₁ (enters_manifest true) (by decide) (Disk.look_eq_ok.1 hl).2.1 hg₁)⟩

/-- Failures that do not say that a package cannot be created: the path of the manifest is too long to look at, or the
root has no canonical path. -/
def Unplaced (d : Disk) (root : Path) (f : Failure) : Prop :=
  pathLimit ≤ (root.child manifestName).byteSize ∨
    ∃ d', d.makeDirectories (root.child sourceDirectory) = (.ok (), d') ∧ Package.name d' root = .error f

/-- A directory that has a manifest already is refused, unless that manifest was written over. -/
theorem create_refuses {content : ByteArray} {modified : Int}
    (hr : (create d root).2.look ⟨true, false⟩ root = .ok (.found l .directory))
    (hg : d.tree.get? (l ++ [manifestName]) = some (.file content modified))
    (ho : ∀ text, ¬Overwrites d root (l ++ [manifestName]) text) :
    ∃ f, (create d root).1 = .error f ∧ (f.kind = .own .scaffold ∨ Unplaced d root f) := by
  have hnul : root.hasNul = false := (Disk.look_eq_ok.1 hr).1
  obtain ⟨f, hc, h⟩ | ⟨hc, h, herr⟩ := create_cases d root
  · rw [h] at hr
    refine ⟨f, by rw [h], ?_⟩
    by_cases hb : (root.child manifestName).byteSize < pathLimit
    · cases hc.symm.trans (checkRoot_of_manifest hr hb hg)
      exact .inl rfl
    · exact .inr (.inl (Nat.not_lt.1 hb))
  · obtain ⟨f, hf, hfill⟩ | hfill := fillDirectory_cases d root
    · refine ⟨_, herr f (by rw [hfill]), ?_⟩
      obtain hs | hname := hf.isScaffold hnul
      · rw [if_pos hs]
        exact .inl rfl
      · split
        · exact .inl rfl
        · exact .inr (.inr hname)
    · obtain ⟨text, hover⟩ := hfill.overwrites hc (h ▸ hr) hg
      exact absurd hover (ho text)

/-- A directory with a manifest, and nothing else. -/
def packaged : Disk :=
  ⟨⟨[(["existing"], .directory), (["existing", manifestName], .file .empty 0)]⟩, [], 950⟩

/-- A way to that directory, through one that is missing. -/
def detour : Path := .ofString "new/../existing"

/-- The same place once all directories on that way are there. -/
def repackaged : Disk :=
  ⟨(packaged.tree.put ["new"] .directory).put ["existing", sourceDirectory] .directory, [], 950⟩

section Detour

variable {t : Tree} {i : Intent} {rest : List String}

theorem enters_new (h : rest.all (· = "") = false) : Tree.Enters i "new" rest :=
  ⟨by decide, by decide, by simp [h], by decide⟩

theorem enters_existing (h : rest.all (· = "") = false) : Tree.Enters i "existing" rest :=
  ⟨by decide, by decide, by simp [h], by decide⟩

/-- While the first directory is missing, nothing is found behind it. -/
theorem look_blocked (hg : t.get? ["new"] = none) (hr : rest.all (· = "") = false)
    (hn : Path.hasNul ⟨.relative, "new" :: rest⟩ = false) (hb : Path.byteSize ⟨.relative, "new" :: rest⟩ < pathLimit) :
    (Disk.mk t [] 950).look i ⟨.relative, "new" :: rest⟩ = .error (Disk.missing ⟨.relative, "new" :: rest⟩) := by
  have hs : (Disk.mk t [] 950).start ⟨.relative, "new" :: rest⟩ = [] := rfl
  have hne : rest ≠ [] := by
    rintro rfl
    cases hr
  unfold Disk.look
  rw [if_neg (by simp [hn]), if_neg (Nat.not_le.2 hb), hs, Tree.walk_enters (enters_new hr)]
  simp [hg, hne, Disk.missing]

/-- Once it is there, the way goes through it and back. -/
theorem look_open {x : Landing} (hg : t.get? ["new"] = some .directory)
    (hn : Path.hasNul ⟨.relative, "new" :: ".." :: rest⟩ = false)
    (hb : Path.byteSize ⟨.relative, "new" :: ".." :: rest⟩ < pathLimit) (h : t.Leads i linkLimit [] rest x) :
    (Disk.mk t [] 950).look i ⟨.relative, "new" :: ".." :: rest⟩ = .ok x :=
  Disk.look_eq_ok.2 ⟨hn, hb, .down (enters_new (by simp)) hg (.up h)⟩

end Detour

theorem checkRoot_detour : checkRoot packaged detour = .ok () := by
  have hm : packaged.look ⟨true, false⟩ (detour.child manifestName) =
      .error (Disk.missing (detour.child manifestName)) := look_blocked rfl (by decide) (by decide) (by decide)
  have hr : packaged.look ⟨true, false⟩ detour = .error (Disk.missing detour) :=
    look_blocked rfl (by decide) (by decide) (by decide)
  simp [checkRoot, Disk.fileExists, Disk.node?, hm, hr]
  rfl

theorem makeDirectories_detour : packaged.makeDirectories (detour.child sourceDirectory) = (.ok (), repackaged) := by
  have hblocked {rest : List String} (hr : rest.all (· = "") = false)
      (hn : Path.hasNul ⟨.relative, "new" :: rest⟩ = false) (hb : Path.byteSize ⟨.relative, "new" :: rest⟩ < pathLimit) :
      packaged.makeDirectory ⟨.relative, "new" :: rest⟩ = .error (Disk.missing ⟨.relative, "new" :: rest⟩) := by
    have hl : packaged.look ⟨false, false⟩ ⟨.relative, "new" :: rest⟩ = .error (Disk.missing ⟨.relative, "new" :: rest⟩) :=
      look_blocked rfl hr hn hb
    rw [Disk.makeDirectory, hl]
  have hnew : packaged.makeDirectories ⟨.relative, ["new"]⟩ = (.ok (), ⟨packaged.tree.put ["new"] .directory, [], 950⟩) := by
    have hl : packaged.look ⟨false, false⟩ ⟨.relative, ["new"]⟩ = .ok (.absent [] "new") :=
      Disk.look_eq_ok.2 ⟨by decide, by decide, .absent ⟨by decide, by decide, by decide, by decide⟩ rfl⟩
    rw [Disk.makeDirectories, Disk.makeDirectory_of_look hl]
    rfl
  have hback : packaged.makeDirectories ⟨.relative, ["new", ".."]⟩ = (.ok (), ⟨packaged.tree.put ["new"] .directory, [], 950⟩) :=
    Disk.makeDirectories_beside (hblocked (by decide) (by decide) (by decide)) (by decide) hnew
      fun _ => look_open rfl (by decide) (by decide) .here
  have hroot : packaged.makeDirectories detour = (.ok (), ⟨packaged.tree.put ["new"] .directory, [], 950⟩) :=
    Disk.makeDirectories_beside (hblocked (by decide) (by decide) (by decide)) (by decide) hback
      fun _ => look_open rfl (by decide) (by decide) (.down ⟨by decide, by decide, by simp, by decide⟩ rfl .here)
  have hsource : (Disk.mk (packaged.tree.put ["new"] .directory) [] 950).look ⟨false, false⟩ (detour.child sourceDirectory) =
      .ok (.absent ["existing"] sourceDirectory) :=
    look_open rfl (by decide) (by decide)
      (.down (enters_existing (by decide)) rfl (.absent ⟨by decide, by decide, by simp, by decide⟩ rfl))
  exact Disk.makeDirectories_below (hblocked (by decide) (by decide) (by decide)) (by decide) hroot
    (Disk.makeDirectory_of_look hsource)

theorem fileExists_of_absent {p : Path} {parent : Location} {last : String}
    (h : d.look ⟨true, false⟩ p = .ok (.absent parent last)) :
    d.fileExists p = .ok false := by
  simp [Disk.fileExists, Disk.node?, h, Except.map]

theorem canonical_detour : repackaged.canonical false detour = .ok ⟨.rooted, ["existing"]⟩ := by
  have hn : repackaged.look ⟨false, false⟩ (Path.current.child "new") = .ok (.found ["new"] .directory) :=
    Disk.look_eq_ok.2 ⟨by decide, by decide, .down ⟨by decide, by decide, by simp, by decide⟩ rfl .here⟩
  have he : repackaged.look ⟨false, false⟩ (Path.current.child "existing") = .ok (.found ["existing"] .directory) :=
    Disk.look_eq_ok.2 ⟨by decide, by decide, .down ⟨by decide, by decide, by simp, by decide⟩ rfl .here⟩
  have hr : repackaged.look ⟨true, false⟩ ⟨.rooted, ["existing"]⟩ = .ok (.found ["existing"] .directory) :=
    Disk.look_eq_ok.2 ⟨by decide, by decide, .down ⟨by decide, by decide, by simp, by decide⟩ rfl .here⟩
  have hu : (Path.current.child "new").up = .current := rfl
  have ht : repackaged.trace false repackaged.nesting (Disk.traceStart detour) [] detour.parts =
      .ok (.whole (Path.current.child "existing"), []) := by
    change repackaged.trace false repackaged.nesting .current [] ["new", "..", "existing"] = _
    rw [Disk.trace_plain (by decide) (by decide) (Disk.linkAt_of_directory hn), Disk.trace_up, hu,
      Disk.trace_plain (by decide) (by decide) (Disk.linkAt_of_directory he), Disk.trace]
  exact Disk.canonical_of_found ht (by decide) hr

theorem eq_empty_of_append {a b c : String} (h : (a ++ b ++ c).utf8ByteSize = 0) : a = "" := by
  rw [String.utf8ByteSize_append, String.utf8ByteSize_append] at h
  exact String.utf8ByteSize_eq_zero_iff.1 (by omega)

theorem manifestText_ne_empty (name : String) : (manifestText name).toUTF8 ≠ .empty := by
  intro h
  have hsize : (manifestText name).utf8ByteSize = 0 := congrArg ByteArray.size h
  exact absurd (eq_empty_of_append hsize) (by decide)

/-- Creating a package keeps every entry, the file apart that the look for a manifest did not come to and that is written
over with one. So all files keep what is in them just if there is no such file, or it held that same manifest; and where
the root turns out to be a directory that had a manifest, either it is that file or the package was refused. -/
theorem create_spares_iff (d : Disk) (root : Path) :
    (∀ l n, d.tree.get? l = some n →
      (create d root).2.tree.get? l = some n ∧ (∀ text, ¬Overwrites d root l text) ∨
        ∃ text content modified, Overwrites d root l text ∧ n = .file content modified ∧
          (create d root).2.tree.get? l = some (.file text.toUTF8 now)) ∧
      ((∀ l content modified, d.tree.get? l = some (.file content modified) →
          ∃ later, (create d root).2.tree.get? l = some (.file content later)) ↔
        ∀ l text content modified, Overwrites d root l text → d.tree.get? l = some (.file content modified) →
          content = text.toUTF8) ∧
      ∀ l content modified, (create d root).2.look ⟨true, false⟩ root = .ok (.found l .directory) →
        d.tree.get? (l ++ [manifestName]) = some (.file content modified) →
          (∃ text, Overwrites d root (l ++ [manifestName]) text) ∨
            (create d root).2.tree.get? (l ++ [manifestName]) = some (.file content modified) ∧
              ∃ f, (create d root).1 = .error f ∧ (f.kind = .own .scaffold ∨ Unplaced d root f) := by
  refine ⟨fun l n hg => ?_, ⟨fun h l text content modified ho hg => ?_, fun h l content modified hg => ?_⟩,
    fun l content modified hr hg => ?_⟩
  · obtain hkept | ⟨text, ho, hnew⟩ := get?_create hg
    · exact .inl hkept
    · obtain ⟨content, modified, hold⟩ := ho.get?
      cases hg.symm.trans hold
      exact .inr ⟨text, content, modified, ho, rfl, hnew⟩
  · obtain ⟨later, hsame⟩ := h l content modified hg
    cases hsame.symm.trans ho.written
    rfl
  · obtain ⟨hkept, -⟩ | ⟨text, ho, hnew⟩ := get?_create hg
    · exact ⟨modified, hkept⟩
    · rw [h l text content modified ho hg]
      exact ⟨now, hnew⟩
  · obtain ⟨hkept, hno⟩ | ⟨text, ho, -⟩ := get?_create hg
    · exact .inr ⟨hkept, create_refuses hr hg hno⟩
    · exact .inl ⟨text, ho⟩

/-- A package can be lost: its place is not refused, and the manifest that it had is no longer in it. -/
theorem create_spares_fails :
    packaged.tree.get? ["existing", manifestName] = some (.file .empty 0) ∧
      (create packaged detour).1 = .ok (detour.child manifestName) ∧
      ∀ later, (create packaged detour).2.tree.get? ["existing", manifestName] ≠ some (.file .empty later) := by
  have hl : repackaged.look ⟨true, true⟩ (detour.child manifestName) =
      .ok (.found ["existing", manifestName] (.file .empty 0)) :=
    look_open rfl (by decide) (by decide) (.down (enters_existing (by decide)) rfl (.file (enters_manifest true) rfl))
  have hname : Package.name repackaged detour = .ok (nameFor "existing") := by
    rw [Package.name, canonical_detour]
    rfl
  refine ⟨rfl, ?_, fun later hlater => ?_⟩
  · generalize nameFor "existing" = name at hname
    have he (c : Bool) : (Disk.mk (repackaged.tree.put ["existing", manifestName] (.file (manifestText name).toUTF8 now))
        [] 950).look ⟨true, c⟩ ((detour.child sourceDirectory).child entryName) =
          .ok (.absent ["existing", sourceDirectory] entryName) :=
      look_open rfl (by decide) (by decide)
        (.down (enters_existing (by decide)) rfl
          (.down ⟨by decide, by decide, by cases c <;> decide, by decide⟩ rfl
            (.absent ⟨by decide, by decide, by cases c <;> decide, by decide⟩ rfl)))
    exact create_of_steps checkRoot_detour makeDirectories_detour hname (Disk.writeFile_of_look hl rfl _ _)
      (fileExists_of_absent (he false)) (Disk.writeFile_of_look (he true) rfl _ _)
  · have ho : Overwrites packaged detour ["existing", manifestName] (manifestText (nameFor "existing")) :=
      .of checkRoot_detour makeDirectories_detour hname hl
    exact manifestText_ne_empty _ (Node.file.inj (Option.some.inj (ho.written.symm.trans hlater))).1

end Hotload.Package
