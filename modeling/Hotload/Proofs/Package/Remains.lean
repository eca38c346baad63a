import Hotload.Proofs.Action
import Hotload.Proofs.Files.Canonical
import Hotload.Proofs.Package
import Mathlib

/-!
What an attempt to create a package leaves when it fails. A refusal comes before anything is done. After that nothing is
taken back: the directories that were made stay, and so does the manifest, if it was the source of the entry point that
could not be looked at or written.
-/
namespace Hotload

namespace Package

open Files

variable {d d' : Disk} {root : Path} {l : Location} {name : String} {f : Failure}

/-- The source of the entry point. -/
def entryPath (root : Path) : Path :=
  (root.child sourceDirectory).child entryName

/-- The manifest is written, and the entry point is what fails. -/
inductive Strands (d : Disk) (root : Path) (f : Failure) (d' : Disk) : Prop where
  | of {d₁ : Disk} {name : String} : d.makeDirectories (root.child sourceDirectory) = (.ok (), d₁) →
      Package.name d₁ root = .ok name →
      d₁.writeFile (root.child manifestName) (manifestText name).toUTF8 now = .ok d' →
      (d'.fileExists (entryPath root) = .error f ∨
        d'.fileExists (entryPath root) = .ok false ∧ d'.writeFile (entryPath root) entryText.toUTF8 now = .error f) →
      Strands d root f d'

/-- What a failed attempt leaves of a tree and adds to it: directories on the way to the sources, and maybe a file. -/
structure Leaves (root : Path) (written : Option Location) (d d' : Disk) : Prop where
  kept : ∀ l n, written ≠ some l → d.tree.get? l = some n → d'.tree.get? l = some n
  made : ∀ l n, written ≠ some l → d'.tree.get? l = some n →
    d.tree.get? l = some n ∨ n = .directory ∧ d'.OnTheWay (root.child sourceDirectory) l

theorem fillDirectory_error (h : (fillDirectory d root).1 = .error f) :
    Fails d root f ∧ (fillDirectory d root).2 = (d.makeDirectories (root.child sourceDirectory)).2 ∨
      Strands d root f (fillDirectory d root).2 := by
  unfold fillDirectory at h ⊢
  split at h
  · rename_i d₁ hd
    cases h
    exact .inl ⟨.directories hd, by rw [hd]⟩
  · rename_i d₁ hd
    split at h
    · rename_i hn
      cases h
      exact .inl ⟨.name hd hn, by rw [hd]⟩
    · rename_i name hn
      split at h
      · rename_i hw
        cases h
        exact .inl ⟨.manifest hd hn hw, by rw [hd]⟩
      · rename_i d₂ hw
        refine .inr ?_
        dsimp only at h ⊢
        split at h
        · rename_i he
          cases h
          exact .of hd hn hw (.inl he)
        · cases h
        · rename_i he
          split at h
          · rename_i hs
            cases h
            exact .of hd hn hw (.inr ⟨he, hs⟩)
          · cases h

theorem leaves_makeDirectories (d : Disk) (root : Path) :
    Leaves root none d (d.makeDirectories (root.child sourceDirectory)).2 where
  kept l n _ hg := (Disk.grows_makeDirectories d _).kept l n hg
  made _ _ _ hg := Disk.onTheWay_makeDirectories d _ hg

/-- Directories, the manifest, and nothing else. -/
theorem Strands.leaves (h : Strands d root f d') :
    ∃ l name, Package.name (d.makeDirectories (root.child sourceDirectory)).2 root = .ok name ∧
      d'.look ⟨true, false⟩ (root.child manifestName) = .ok (.found l (.file (manifestText name).toUTF8 now)) ∧
        Leaves root (some l) d d' := by
  obtain @⟨d₁, name, hd, hn, hw, -⟩ := h
  have hmade := leaves_makeDirectories d root
  rw [hd] at hmade ⊢
  obtain ⟨hcarries, -, hworking, -⟩ := Disk.carries_writeFile hw
  obtain ⟨x, hl, hx, hput⟩ := Disk.writeFile_ok hw
  have hne := (Disk.get?_of_writable hl hx).1
  have hsame {k : Location} (hk : some x.location ≠ some k) : d'.tree.get? k = d₁.tree.get? k := by
    rw [hput, Tree.get?_put _ _ _ hne, if_neg fun he => hk (congrArg some he)]
  refine ⟨x.location, name, hn, Disk.look_written hw hl, fun k n hk hg => ?_, fun k n hk hg => ?_⟩
  · rw [hsame hk]
    exact hmade.kept k n nofun hg
  · rw [hsame hk] at hg
    exact (hmade.made k n nofun hg).imp_right fun ⟨hdir, hway⟩ => ⟨hdir, hway.carry hworking hcarries⟩

/-- A manifest that can be looked at keeps a package from being created. -/
theorem create_of_present {n : Node} (h : d.look ⟨true, false⟩ (root.child manifestName) = .ok (.found l n)) :
    create d root = (.error (.packagePresent root.toString), d) := by
  have he : d.fileExists (root.child manifestName) = .ok true := by simp [Disk.fileExists, Disk.node?, h, Except.map]
  have hc : checkRoot d root = .error (.packagePresent root.toString) := by
    rw [checkRoot, he]
    rfl
  rw [create, hc]

theorem Strands.isSystem (h : Strands d root f d') (hn : root.hasNul = false) : f.isSystem = true := by
  obtain ⟨-, -, -, he | ⟨-, hw⟩⟩ := h
  · exact Disk.isSystem_of_fileExists he
  · exact Disk.isSystem_of_writeFile (Disk.hasNul_child (Disk.hasNul_child hn (by decide)) (by decide)) hw

/-- A failure on the way is a system's error, or it is raised as it is and is not the tool's own. -/
theorem fillDirectory_error_kind (h : (fillDirectory d root).1 = .error f) : f.isSystem = true ∨ f.kind ≠ .own .scaffold := by
  by_cases hn : root.hasNul = true
  · have hchild : (root.child sourceDirectory).hasNul = true := by
      simp only [Path.hasNul] at hn
      simp only [Path.hasNul, Path.child, List.any_append, hn, Bool.true_or]
    rw [fillDirectory, Disk.makeDirectories_of_nul hchild] at h
    cases h
    refine .inr fun hk => ?_
    cases hk
  · have hn' : root.hasNul = false := Bool.eq_false_iff.2 hn
    obtain ⟨hfails, -⟩ | hstrands := fillDirectory_error h
    · refine (hfails.isScaffold hn').imp_right ?_
      rintro ⟨d₁, -, hname⟩
      unfold Package.name at hname
      cases hc : d₁.canonical false root with
      | ok q =>
        rw [hc] at hname
        cases hname
      | error g =>
        rw [hc] at hname
        cases hname
        obtain rfl | ⟨path, rfl⟩ := Disk.canonical_error hc
        all_goals
          intro hk
          cases hk
    · exact .inl (hstrands.isSystem hn')

theorem checkRoot_error (h : checkRoot d root = .error f) :
    f.isSystem = true ∨ f = .packagePresent root.toString ∨ f = .packageBlocked root.toString := by
  unfold checkRoot at h
  obtain he | ⟨present, -, h⟩ := Outcome.bind_error h
  · exact .inl (Disk.isSystem_of_fileExists he)
  · split at h
    · cases h
      exact .inr (.inl rfl)
    · obtain he | ⟨found, -, h⟩ := Outcome.bind_error h
      · exact .inl (Disk.isSystem_of_fileExists he)
      · split at h
        · obtain hd | ⟨directory, -, h⟩ := Outcome.bind_error h
          · exact .inl (Disk.isSystem_of_isDirectory hd)
          · split at h
            · cases h
            · cases h
              exact .inr (.inr rfl)
        · cases h

/-- An attempt fails by a refusal, or as the filling does. -/
theorem create_error (h : (create d root).1 = .error f) :
    checkRoot d root = .error f ∧ (create d root).2 = d ∨
      ∃ cause, (fillDirectory d root).1 = .error cause ∧ (create d root).2 = (fillDirectory d root).2 ∧
        f = if cause.isSystem then .packageFailed root.toString cause else cause := by
  unfold create at h ⊢
  split at h
  · rename_i hc
    cases h
    exact .inl ⟨hc, rfl⟩
  · generalize fillDirectory d root = filled at h ⊢
    obtain ⟨r, d'⟩ := filled
    cases r with
    | ok u => cases h
    | error cause =>
      cases h
      exact .inr ⟨cause, rfl, rfl, rfl⟩

theorem kind_ne_of_isSystem (h : f.isSystem = true) : f.kind ≠ .own .scaffold := by
  intro hk
  rw [Failure.isSystem, hk] at h
  cases h

/-- A package directory in which the source of the entry point is a link to itself. -/
def looped : Disk :=
  ⟨⟨[(["p"], .directory), (["p", sourceDirectory], .directory), (["p", sourceDirectory, entryName], .link entryName)]⟩, [], 950⟩

def loopedRoot : Path := ⟨.relative, ["p"]⟩

/-- The same with a manifest. -/
def loopedAfter : Disk :=
  { looped with tree := looped.tree.put ["p", manifestName] (.file (manifestText "p").toUTF8 now) }

section Looped

variable {t : Tree} {i : Intent} {rest : List String} {x : Landing}

theorem enters_plain {part : String} (hp : Path.isIdle part = false) (hu : part ≠ "..") (hs : part.utf8ByteSize ≤ nameLimit)
    (hr : rest.all (· = "") = false ∨ rest = []) : Tree.Enters i part rest :=
  ⟨hp, hu, by obtain h | rfl := hr <;> simp [*], hs⟩

theorem look_loop {d : Disk} (hw : d.workingDirectory = []) (hp : d.tree.get? ["p"] = some .directory)
    (hs : d.tree.get? ["p", sourceDirectory] = some .directory)
    (he : d.tree.get? ["p", sourceDirectory, entryName] = some (.link entryName)) (hf : i.follow = true) :
    d.look i (entryPath loopedRoot) = .error (.system .loop (entryPath loopedRoot).toString) := by
  have hstart : d.start (entryPath loopedRoot) = [] := by rw [Disk.start, hw]; rfl
  have hparts : (entryPath loopedRoot).parts = ["p", sourceDirectory, entryName] := rfl
  refine Disk.look_of_walk_error (by decide) (by decide) ?_
  rw [hstart, hparts, Tree.walk_enters (enters_plain (by decide) (by decide) (by decide) (.inl (by decide)))]
  simp only [List.nil_append, hp]
  rw [Tree.walk_enters (enters_plain (by decide) (by decide) (by decide) (.inl (by decide)))]
  simp only [List.cons_append, List.nil_append, hs]
  exact Tree.walk_circular (enters_plain (by decide) (by decide) (by decide) (.inr rfl)) he hf (by decide) (by decide)

end Looped

theorem look_loopedRoot {i : Intent} : looped.look i loopedRoot = .ok (.found ["p"] .directory) :=
  Disk.look_eq_ok.2 ⟨by decide, by decide, .down (enters_plain (by decide) (by decide) (by decide) (.inr rfl)) rfl .here⟩

theorem look_loopedManifest {i : Intent} : looped.look i (loopedRoot.child manifestName) = .ok (.absent ["p"] manifestName) :=
  Disk.look_eq_ok.2 ⟨by decide, by decide,
    .down (enters_plain (by decide) (by decide) (by decide) (.inl (by decide))) rfl
      (.absent (enters_plain (by decide) (by decide) (by decide) (.inr rfl)) rfl)⟩

theorem checkRoot_looped : checkRoot looped loopedRoot = .ok () := by
  have hr : looped.node? loopedRoot = .ok (some .directory) := by rw [Disk.node?, look_loopedRoot]
  rw [checkRoot, fileExists_of_absent look_loopedManifest]
  simp only [Disk.fileExists, Disk.isDirectory, hr]
  rfl

set_option maxRecDepth 20000 in
theorem makeDirectories_looped : looped.makeDirectories (loopedRoot.child sourceDirectory) = (.ok (), looped) := by
  cbv

set_option maxRecDepth 20000 in
theorem name_looped : Package.name looped loopedRoot = .ok "p" := by
  cbv

theorem create_looped : create looped loopedRoot =
    (.error (.packageFailed "p" (.system .loop "p/src/mod.mun")), loopedAfter) := by
  have hw : looped.writeFile (loopedRoot.child manifestName) (manifestText "p").toUTF8 now = .ok loopedAfter :=
    Disk.writeFile_of_look look_loopedManifest rfl _ _
  have hloop {i : Intent} (hf : i.follow = true) : loopedAfter.look i (entryPath loopedRoot) =
      .error (.system .loop (entryPath loopedRoot).toString) := look_loop rfl rfl rfl rfl hf
  have he : loopedAfter.fileExists (entryPath loopedRoot) = .ok false := by
    simp [Disk.fileExists, Disk.node?, hloop, Disk.meansNothing, Except.map]
  have hs : loopedAfter.writeFile (entryPath loopedRoot) entryText.toUTF8 now =
      .error (.system .loop (entryPath loopedRoot).toString) := by
    rw [Disk.writeFile, hloop rfl]
  rw [entryPath] at he hs
  simp only [create, checkRoot_looped, fillDirectory, makeDirectories_looped, name_looped, hw, he, hs]
  rfl

/-- An attempt that fails as one to create a package was refused, and then nothing has changed, or the system refused a
step, and then nothing is taken back: all that was there stays, and so do the directories that were made on the way to
the sources. A manifest is among what is left just if the step that failed was one with the source of the entry point
behind it, and then that manifest has every later attempt refused. -/
theorem create_leaves (h : (create d root).1 = .error f) (hk : f.kind = .own .scaffold) :
    (f = .packagePresent root.toString ∨ f = .packageBlocked root.toString) ∧ (create d root).2 = d ∨
      ∃ cause, f = .packageFailed root.toString cause ∧ cause.isSystem = true ∧
        (Fails d root cause ∧ (create d root).2 = (d.makeDirectories (root.child sourceDirectory)).2 ∧
            Leaves root none d (create d root).2 ∨
          Strands d root cause (create d root).2 ∧
            ∃ l name, Package.name (d.makeDirectories (root.child sourceDirectory)).2 root = .ok name ∧
              (create d root).2.look ⟨true, false⟩ (root.child manifestName) =
                .ok (.found l (.file (manifestText name).toUTF8 now)) ∧
              Leaves root (some l) d (create d root).2 ∧
              create (create d root).2 root = (.error (.packagePresent root.toString), (create d root).2)) := by
  obtain ⟨hc, hsame⟩ | ⟨cause, hfill, htree, rfl⟩ := create_error h
  · exact .inl ⟨(checkRoot_error hc).resolve_left fun hs => kind_ne_of_isSystem hs hk, hsame⟩
  · have hsystem : cause.isSystem = true := by
      obtain hs | hne := fillDirectory_error_kind hfill
      · exact hs
      · split at hk
        · assumption
        · exact absurd hk hne
    rw [if_pos hsystem, htree]
    refine .inr ⟨cause, rfl, hsystem, ?_⟩
    obtain ⟨hfails, hmade⟩ | hstrands := fillDirectory_error hfill
    · refine .inl ⟨hfails, hmade, ?_⟩
      rw [hmade]
      exact leaves_makeDirectories d root
    · obtain ⟨l, name, hname, hlook, hleaves⟩ := hstrands.leaves
      exact .inr ⟨hstrands, l, name, hname, hlook, hleaves, create_of_present hlook⟩

theorem create_leaves_looped :
    ∃ f, (create looped loopedRoot).1 = .error f ∧ f.kind = .own .scaffold ∧
      Strands looped loopedRoot (.system .loop "p/src/mod.mun") (create looped loopedRoot).2 ∧
      create (create looped loopedRoot).2 loopedRoot = (.error (.packagePresent "p"), (create looped loopedRoot).2) := by
  have hf : (create looped loopedRoot).1 = .error (.packageFailed "p" (.system .loop "p/src/mod.mun")) := by
    rw [create_looped]
  obtain ⟨hrefused | hrefused, -⟩ | ⟨cause, hcause, -, ⟨-, htree, -⟩ | ⟨hstrands, -, -, -, -, -, hlater⟩⟩ :=
    create_leaves hf rfl
  · cases hrefused
  · cases hrefused
  · rw [create_looped, makeDirectories_looped] at htree
    cases congrArg (fun d => d.tree.get? ["p", manifestName]) htree
  · cases hcause
    exact ⟨_, hf, rfl, hstrands, hlater⟩

/-- A failed attempt can leave a manifest where there was none, and with it a package that cannot be created any more. -/
theorem create_leaves_fails :
    ∃ f, (create looped loopedRoot).1 = .error f ∧ f.kind = .own .scaffold ∧
      looped.tree.get? ["p", manifestName] = none ∧
      (create looped loopedRoot).2.tree.get? ["p", manifestName] = some (.file (manifestText "p").toUTF8 now) ∧
      (create (create looped loopedRoot).2 loopedRoot).1 = .error (.packagePresent "p") := by
  have hlook : loopedAfter.look ⟨true, false⟩ (loopedRoot.child manifestName) =
      .ok (.found ["p", manifestName] (.file (manifestText "p").toUTF8 now)) :=
    Disk.look_written (Disk.writeFile_of_look look_loopedManifest rfl _ _) look_loopedManifest
  rw [create_looped]
  refine ⟨_, rfl, rfl, rfl, rfl, ?_⟩
  rw [create_of_present hlook]
  rfl

end Package

end Hotload
