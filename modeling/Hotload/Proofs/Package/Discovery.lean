import Hotload.Proofs.Manifest.Nearest
import Hotload.Proofs.Package.Remains

/-!
What there is once a package was created, and that it is found from below. The manifest is in the directory that the root
leads to, and the source of the entry point is in that of the sources. The search from a path below the root comes up to
the manifest, by the text, unless the system finds a path on the way too long.
-/
namespace Hotload

namespace Manifest

open Files

variable {d : Disk} {root : Path} {names : List String}

/-- The path of a manifest that is looked for below a root. -/
def candidate (d : Disk) (root : Path) (names : List String) : Path :=
  (d.absolute (root.descend names)).child Package.manifestName

theorem candidate_eq (d : Disk) (root : Path) (names : List String) :
    candidate d root names = d.absolute ((root.descend names).child Package.manifestName) := by
  have hchild (p : Path) : p.child Package.manifestName = p.descend [Package.manifestName] := rfl
  rw [candidate, hchild, hchild, Disk.absolute_descend d (root.descend names)]

/-- What the search comes to below a directory with a manifest if there is none on the way: that manifest, unless the system
finds the path of a candidate too long. -/
inductive Discovers (d : Disk) (root : Path) (names : List String) : Outcome (Option Path) → Prop where
  | found : (∀ above, above <+: names → ¬d.Oversized (candidate d root above)) →
      Discovers d root names (.ok (some ((d.absolute root).child Package.manifestName)))
  | refused {above : List String} : above <+: names → d.Oversized (candidate d root above) →
      Discovers d root names (.error (.system .nameTooLong (candidate d root above).toString))

theorem find_concat (d : Disk) (root : Path) (names : List String) (name : String) :
    find d (root.descend (names ++ [name])) =
      match d.fileExists (candidate d root (names ++ [name])) with
      | .error f => .error f
      | .ok true => .ok (some (candidate d root (names ++ [name])))
      | .ok false => find d (root.descend names) := by
  have hcandidates : candidates d (root.descend (names ++ [name])) =
      candidate d root (names ++ [name]) :: candidates d (root.descend names) := by
    have hmap (p : Path) : candidates d p = (d.absolute p).ancestry.map (·.child Package.manifestName) := rfl
    rw [hmap, hmap, candidate, Disk.absolute_descend, Disk.absolute_descend, Path.descend_concat, Path.ancestry_child,
      List.map_cons]
  rw [find, hcandidates, firstPresent]
  rfl

/-- If the first candidate is too long, that is all that the search says. -/
theorem find_of_oversized (h : d.Oversized (candidate d root names)) :
    find d (root.descend names) = .error (.system .nameTooLong (candidate d root names).toString) := by
  obtain ⟨rest, hfind⟩ := find_first d (root.descend names)
  have herror := Disk.fileExists_error_iff.2 ⟨h, rfl⟩
  rw [candidate] at herror
  rw [hfind, herror, candidate]

section Search

variable (hw : d.Settled) {l : Location} {n : Node}
  (hr : d.look ⟨true, false⟩ (root.child Package.manifestName) = .ok (.found l n))

include hw hr

/-- The manifest of the root is found, or its absolute path is too long. -/
theorem fileExists_root : d.fileExists (candidate d root []) ≠ .ok false := by
  rw [candidate_eq, Path.descend_nil]
  intro hmissing
  by_cases hb : (d.absolute (root.child Package.manifestName)).byteSize < pathLimit
  · have hpresent := Disk.fileExists_eq_true_iff.2 ⟨l, n, Disk.look_absolute hw rfl hb hr⟩
    cases hmissing.symm.trans hpresent
  · have hnul := Disk.hasNul_absolute hw (Disk.look_eq_ok.1 hr).1
    have hlong : d.Oversized _ := Disk.oversized_of_byteSize hnul (Nat.not_lt.1 hb)
    cases hmissing.symm.trans (Disk.fileExists_error_iff.2 ⟨hlong, rfl⟩)

/-- The search goes up through paths without a manifest to the one of the root. -/
theorem find_discovers (hno : ∀ above, above <+: names → above ≠ [] → ∀ l n,
      d.look ⟨true, false⟩ ((root.descend above).child Package.manifestName) ≠ .ok (.found l n)) :
    Discovers d root names (find d (root.descend names)) := by
  have hshort {above : List String} {b : Bool} (h : d.fileExists (candidate d root above) = .ok b) :
      ¬d.Oversized (candidate d root above) := by
    intro hlong
    cases h.symm.trans (Disk.fileExists_error_iff.2 ⟨hlong, rfl⟩)
  induction names using List.reverseRecOn with
  | nil =>
    obtain ⟨rest, hfind⟩ := find_first d (root.descend [])
    rw [hfind]
    cases hf : d.fileExists ((d.absolute (root.descend [])).child Package.manifestName) with
    | error f =>
      obtain ⟨hlong, rfl⟩ := Disk.fileExists_error_iff.1 hf
      exact .refused (List.prefix_refl _) hlong
    | ok present =>
      cases present with
      | false => exact absurd hf (fileExists_root hw hr)
      | true =>
        rw [Path.descend_nil]
        refine .found fun above habove => ?_
        rw [List.prefix_nil.1 habove]
        exact hshort hf
  | append_singleton names name ih =>
    have hrest := ih fun above habove => hno above (habove.trans (List.prefix_append _ _))
    rw [find_concat]
    cases hf : d.fileExists (candidate d root (names ++ [name])) with
    | error f =>
      obtain ⟨hlong, rfl⟩ := Disk.fileExists_error_iff.1 hf
      exact .refused (List.prefix_refl _) hlong
    | ok present =>
      cases present with
      | true =>
        obtain ⟨k, n', hlook⟩ := Disk.fileExists_eq_true_iff.1 hf
        rw [candidate_eq] at hlook
        have hpresent := Disk.look_of_absolute hw rfl (by simp [Path.child]) hlook
        exact absurd hpresent (hno _ (List.prefix_refl _) (by simp) k n')
      | false =>
        dsimp only
        generalize find d (root.descend names) = result at hrest
        cases hrest with
        | found hall =>
          refine .found fun above habove => ?_
          obtain rfl | hprefix := List.prefix_concat_iff.1 habove
          · exact hshort hf
          · exact hall above hprefix
        | refused habove hlong => exact .refused (habove.trans (List.prefix_append _ _)) hlong

end Search

end Manifest

namespace Package

open Files

variable {d d' : Disk} {root m : Path} {R S : Location} {n : Node} {name : String}

/-- Every step of creating a package was done. -/
inductive Completes (d : Disk) (root : Path) (d' : Disk) : Prop where
  | of {d₁ d₂ : Disk} {name : String} : d.makeDirectories (root.child sourceDirectory) = (.ok (), d₁) →
      Package.name d₁ root = .ok name →
      d₁.writeFile (root.child manifestName) (manifestText name).toUTF8 now = .ok d₂ →
      (d₂.fileExists (entryPath root) = .ok true ∧ d' = d₂ ∨
        d₂.fileExists (entryPath root) = .ok false ∧ d₂.writeFile (entryPath root) entryText.toUTF8 now = .ok d') →
      Completes d root d'

theorem completes_of_create (h : (create d root).1 = .ok m) :
    m = root.child manifestName ∧ Completes d root (create d root).2 := by
  unfold create at h ⊢
  split at h
  · cases h
  · rename_i hc
    rcases hfill : fillDirectory d root with ⟨f | u, d'⟩
    · rw [hfill] at h
      cases h
    · rw [hfill] at h
      cases h
      refine ⟨rfl, ?_⟩
      unfold fillDirectory at hfill
      split at hfill
      · cases hfill
      · rename_i d₁ hd
        split at hfill
        · cases hfill
        · rename_i name hn
          split at hfill
          · cases hfill
          · rename_i d₂ hw
            dsimp only at hfill
            split at hfill
            · cases hfill
            · rename_i he
              cases hfill
              exact .of hd hn hw (.inl ⟨he, rfl⟩)
            · rename_i he
              split at hfill
              · cases hfill
              · rename_i d₃ hs
                cases hfill
                exact .of hd hn hw (.inr ⟨he, hs⟩)

/-- What there is once a package was created, the root and the sources being in two places: the manifest with its text and,
for the entry point, what was there before or was made on the way there, and else the standard source. -/
structure Created (d d' : Disk) (root : Path) (R S : Location) : Prop where
  directory : d'.look ⟨true, false⟩ root = .ok (.found R .directory)
  sources : d'.look ⟨true, false⟩ (root.child sourceDirectory) = .ok (.found S .directory)
  manifest : ∃ name, Package.name d' root = .ok name ∧
    d'.look ⟨true, false⟩ (root.child manifestName) = .ok (.found (R ++ [manifestName]) (.file (manifestText name).toUTF8 now))
  entry : ∃ n, d'.look ⟨true, false⟩ (entryPath root) = .ok (.found (S ++ [entryName]) n) ∧
    (d.tree.get? (S ++ [entryName]) = some n ∨
      d.tree.get? (S ++ [entryName]) = none ∧
        (n = .file entryText.toUTF8 now ∨ n = .directory ∧ d'.OnTheWay (root.child sourceDirectory) (S ++ [entryName])))

theorem isName_entry : IsName entryName :=
  ⟨by decide, by decide, by decide, by decide, by decide⟩

theorem manifest_ne_entry (R S : Location) : R ++ [manifestName] ≠ S ++ [entryName] := by
  intro h
  have hlast := (List.append_inj' h rfl).2
  exact absurd hlast (by decide)

/-- What is there once directories were made was there before or was made on the way. -/
theorem made_or_kept {p : Path} {l : Location} (hd : d.makeDirectories p = (.ok (), d')) (hn : d'.tree.get? l = some n) :
    d.tree.get? l = some n ∨ d.tree.get? l = none ∧ n = .directory ∧ d'.OnTheWay p l := by
  have hgrows := Disk.grows_makeDirectories d p
  have hmade := Disk.onTheWay_makeDirectories d p (l := l) (n := n)
  rw [hd] at hgrows hmade
  cases hg : d.tree.get? l with
  | none =>
    obtain hold | hnew := hmade hn
    · cases hg.symm.trans hold
    · exact .inr ⟨rfl, hnew⟩
  | some n' =>
    cases hn.symm.trans (hgrows.kept l n' hg)
    exact .inl rfl

theorem missing_of_made {p : Path} {l : Location} (hd : d.makeDirectories p = (.ok (), d')) (hl : d'.tree.get? l = none) :
    d.tree.get? l = none := by
  have hgrows := Disk.grows_makeDirectories d p
  rw [hd] at hgrows
  cases hg : d.tree.get? l with
  | none => rfl
  | some n => cases hl.symm.trans (hgrows.kept l n hg)

theorem unlinked_of_made {p : Path} {l : Location} (hd : d.makeDirectories p = (.ok (), d'))
    (hl : ∀ target, d.tree.get? l ≠ some (.link target)) (target : String) : d'.tree.get? l ≠ some (.link target) := by
  intro hg
  obtain hold | ⟨-, hdirectory, -⟩ := made_or_kept hd hg
  · exact hl target hold
  · cases hdirectory

/-- The source of the entry point is what was there before or was made on the way, and else it is written. -/
theorem entry_cases {d₂ : Disk} (hS : d₂.look ⟨true, false⟩ (root.child sourceDirectory) = .ok (.found S .directory))
    (hl : ∀ target, d₂.tree.get? (S ++ [entryName]) ≠ some (.link target))
    (h : d₂.fileExists (entryPath root) = .ok true ∧ d' = d₂ ∨
      d₂.fileExists (entryPath root) = .ok false ∧ d₂.writeFile (entryPath root) entryText.toUTF8 now = .ok d') :
    (entryPath root).byteSize < pathLimit ∧
      ((∃ n, d₂.tree.get? (S ++ [entryName]) = some n ∧ d' = d₂) ∨
        d₂.tree.get? (S ++ [entryName]) = none ∧
          d' = { d₂ with tree := d₂.tree.put (S ++ [entryName]) (.file entryText.toUTF8 now) }) := by
  obtain ⟨hpresent, rfl⟩ | ⟨hmissing, hs⟩ := h
  · obtain ⟨l, n, hlook⟩ := Disk.fileExists_eq_true_iff.1 hpresent
    have hb := (Disk.look_eq_ok.1 hlook).2.1
    have hname := Disk.look_name hS isName_entry hb hl
    rw [← entryPath, hlook] at hname
    refine ⟨hb, .inl ?_⟩
    cases hg : d'.tree.get? (S ++ [entryName]) with
    | none =>
      rw [hg] at hname
      cases hname
    | some n' => exact ⟨n', rfl, rfl⟩
  · obtain ⟨x, hlook, -, -⟩ := Disk.writeFile_ok hs
    have hb := (Disk.look_eq_ok.1 hlook).2.1
    have hname := Disk.look_name hS isName_entry hb hl
    refine ⟨hb, .inr ⟨?_, Disk.writeFile_name hS isName_entry hl hs⟩⟩
    cases hg : d₂.tree.get? (S ++ [entryName]) with
    | none => rfl
    | some n =>
      rw [hg] at hname
      cases hmissing.symm.trans (Disk.fileExists_eq_true_iff.2 ⟨_, _, hname⟩)

theorem Completes.created (h : Completes d root d')
    (hm : ∀ R target, d'.look ⟨true, false⟩ root = .ok (.found R .directory) →
      d.tree.get? (R ++ [manifestName]) ≠ some (.link target))
    (he : ∀ S target, d'.look ⟨true, false⟩ (root.child sourceDirectory) = .ok (.found S .directory) →
      d.tree.get? (S ++ [entryName]) ≠ some (.link target)) : ∃ R S, Created d d' root R S := by
  obtain @⟨d₁, d₂, name, hd, hname, hw, hrest⟩ := h
  have hsecond : d₂.Alike d' := by
    obtain ⟨-, rfl⟩ | ⟨-, hs⟩ := hrest
    · exact .refl _
    · exact Disk.alike_writeFile hs
  have halike : d₁.Alike d' := (Disk.alike_writeFile hw).trans hsecond
  obtain ⟨S, hS⟩ := Disk.look_makeDirectories hd
  have habove : root ∈ (root.child sourceDirectory).ancestry := by
    rw [Path.ancestry_child]
    exact List.mem_cons_of_mem _ root.self_mem_ancestry
  obtain ⟨R, hR⟩ := Disk.look_above hS habove
  have hR' := halike.look_directory hR
  have hS' := halike.look_directory hS
  have hput := Disk.writeFile_name hR Manifest.isName_manifest (unlinked_of_made hd fun target => hm R target hR') hw
  have hne := manifest_ne_entry R S
  have hmanifest₂ : d₂.tree.get? (R ++ [manifestName]) = some (.file (manifestText name).toUTF8 now) := by
    rw [hput, Tree.get?_put _ _ _ (by simp), if_pos rfl]
  have hentry₂ : d₂.tree.get? (S ++ [entryName]) = d₁.tree.get? (S ++ [entryName]) := by
    rw [hput, Tree.get?_put _ _ _ (by simp), if_neg hne]
  have hunlinked₂ (target : String) : d₂.tree.get? (S ++ [entryName]) ≠ some (.link target) := by
    rw [hentry₂]
    exact unlinked_of_made hd (fun target => he S target hS') target
  obtain ⟨hsize, hcases⟩ := entry_cases ((Disk.alike_writeFile hw).look_directory hS) hunlinked₂ hrest
  have hmanifest : d'.tree.get? (R ++ [manifestName]) = some (.file (manifestText name).toUTF8 now) := by
    obtain ⟨-, -, rfl⟩ | ⟨-, rfl⟩ := hcases
    · exact hmanifest₂
    · rw [Tree.get?_put _ _ _ (by simp), if_neg hne.symm, hmanifest₂]
  have hentry : ∃ n, d'.tree.get? (S ++ [entryName]) = some n ∧ (∀ target, n ≠ .link target) ∧
      (d.tree.get? (S ++ [entryName]) = some n ∨ d.tree.get? (S ++ [entryName]) = none ∧
        (n = .file entryText.toUTF8 now ∨ n = .directory ∧ d'.OnTheWay (root.child sourceDirectory) (S ++ [entryName]))) := by
    obtain ⟨n, hn, rfl⟩ | ⟨hnone, rfl⟩ := hcases
    · refine ⟨n, hn, fun target hlink => hunlinked₂ target (hlink ▸ hn), ?_⟩
      rw [hentry₂] at hn
      obtain hold | ⟨hnone, hdirectory, hway⟩ := made_or_kept hd hn
      · exact .inl hold
      · exact .inr ⟨hnone, .inr ⟨hdirectory, hway.carry halike.workingDirectory halike.there⟩⟩
    · refine ⟨.file entryText.toUTF8 now, ?_, Node.file_ne_link _ _, .inr ⟨?_, .inl rfl⟩⟩
      · rw [Tree.get?_put _ _ _ (by simp), if_pos rfl]
      · rw [hentry₂] at hnone
        exact missing_of_made hd hnone
  obtain ⟨x, hlook, -, -⟩ := Disk.writeFile_ok hw
  refine ⟨R, S, hR', hS', ⟨name, ?_, ?_⟩, ?_⟩
  · rw [Package.name, halike.canonical_eq]
    exact hname
  · have hfound := Disk.look_name hR' Manifest.isName_manifest (Disk.look_eq_ok.1 hlook).2.1
    rw [hmanifest] at hfound
    exact hfound fun target hlink => Node.file_ne_link _ _ target (Option.some.inj hlink)
  · obtain ⟨n, hn, hnotLink, hstory⟩ := hentry
    have hfound := Disk.look_name hS' isName_entry hsize
    rw [hn] at hfound
    refine ⟨n, hfound fun target hlink => ?_, hstory⟩
    cases hlink
    exact hnotLink target rfl

theorem Completes.carries (h : Completes d root d') :
    d'.workingDirectory = d.workingDirectory ∧ d.tree.Carries d'.tree := by
  obtain @⟨d₁, d₂, name, hd, -, hw, hrest⟩ := h
  have hgrows := Disk.grows_makeDirectories d (root.child sourceDirectory)
  rw [hd] at hgrows
  have hfirst := Disk.alike_writeFile hw
  have hsecond : d₂.Alike d' := by
    obtain ⟨-, rfl⟩ | ⟨-, hs⟩ := hrest
    · exact .refl _
    · exact Disk.alike_writeFile hs
  have halike := hfirst.trans hsecond
  exact ⟨halike.workingDirectory.trans hgrows.workingDirectory,
    fun l n hg hn => halike.there l n (hgrows.carries l n hg hn) hn⟩

/-- A package that was created is whole, is found from every path below that has no manifest on the way, and is not created
again. -/
theorem create_discoverable (hw : d.Settled) (h : (create d root).1 = .ok m)
    (hm : ∀ R target, (create d root).2.look ⟨true, false⟩ root = .ok (.found R .directory) →
      d.tree.get? (R ++ [manifestName]) ≠ some (.link target))
    (he : ∀ S target, (create d root).2.look ⟨true, false⟩ (root.child sourceDirectory) = .ok (.found S .directory) →
      d.tree.get? (S ++ [entryName]) ≠ some (.link target)) :
    m = root.child manifestName ∧ (∃ R S, Created d (create d root).2 root R S) ∧
      (∀ names, (∀ above, above <+: names → above ≠ [] → ∀ l n,
          (create d root).2.look ⟨true, false⟩ ((root.descend above).child manifestName) ≠ .ok (.found l n)) →
        Manifest.Discovers (create d root).2 root names (Manifest.find (create d root).2 (root.descend names))) ∧
      create (create d root).2 root = (.error (.packagePresent root.toString), (create d root).2) := by
  obtain ⟨rfl, hcomplete⟩ := completes_of_create h
  obtain ⟨R, S, hcreated⟩ := hcomplete.created hm he
  obtain ⟨name, -, hlook⟩ := hcreated.manifest
  obtain ⟨hworking, hcarries⟩ := hcomplete.carries
  have hw' := hw.carry hworking hcarries
  exact ⟨rfl, ⟨R, S, hcreated⟩, fun names hno => Manifest.find_discovers hw' hlook hno, create_of_present hlook⟩

/-- A directory with an empty directory of sources. -/
def sourced : Disk :=
  ⟨⟨[(["w"], .directory), (["w", sourceDirectory], .directory)]⟩, ["w"], 950⟩

/-- That directory, by a way through the place of the entry point. -/
def throughEntry : Path :=
  ⟨.relative, [sourceDirectory, entryName, "..", ".."]⟩

/-- The same once that way can be gone. -/
def entered : Disk :=
  { sourced with tree := sourced.tree.put ["w", sourceDirectory, entryName] .directory }

theorem plain_sourced : sourced.tree.Plain := by
  refine Tree.plain_of_entries fun e he target hlink => ?_
  simp only [sourced, List.mem_cons, List.not_mem_nil, or_false] at he
  obtain rfl | rfl := he <;> cases hlink

theorem settled_sourced : sourced.Settled :=
  (Tree.Stands.nil _).concat ⟨by decide, by decide, by decide, by decide, by decide⟩ rfl

section Through

variable {t : Tree} {i : Intent} {rest : List String}

theorem enters_sources (h : rest.all (· = "") = false) : Tree.Enters i sourceDirectory rest :=
  ⟨by decide, by decide, by simp [h], by decide⟩

theorem enters_entry (h : rest.all (· = "") = false ∨ rest = []) : Tree.Enters i entryName rest :=
  enters_plain (by decide) (by decide) (by decide) h

/-- Nothing is found through an entry point that is not there. -/
theorem look_unentered {follow : Bool} (hr : rest ≠ [])
    (hn : Path.hasNul ⟨.relative, sourceDirectory :: entryName :: rest⟩ = false)
    (hb : Path.byteSize ⟨.relative, sourceDirectory :: entryName :: rest⟩ < pathLimit) :
    sourced.look ⟨follow, false⟩ ⟨.relative, sourceDirectory :: entryName :: rest⟩ =
      .error (Disk.missing ⟨.relative, sourceDirectory :: entryName :: rest⟩) := by
  have hs : sourced.tree.get? (["w"] ++ [sourceDirectory]) = some .directory := rfl
  have he : sourced.tree.get? (["w"] ++ [sourceDirectory] ++ [entryName]) = none := rfl
  refine Disk.look_of_walk_error hn hb ?_
  change sourced.tree.walk _ linkLimit ["w"] _ = _
  rw [Tree.walk_enters ⟨by decide, by decide, rfl, by decide⟩, hs]
  dsimp only
  rw [Tree.walk_enters ⟨by decide, by decide, rfl, by decide⟩, he]
  simp [hr]

/-- Once it is a directory, the way goes through it and back. -/
theorem look_entered {x : Landing} (hs : t.get? ["w", sourceDirectory] = some .directory)
    (he : t.get? ["w", sourceDirectory, entryName] = some .directory)
    (hn : Path.hasNul ⟨.relative, sourceDirectory :: entryName :: ".." :: ".." :: rest⟩ = false)
    (hb : Path.byteSize ⟨.relative, sourceDirectory :: entryName :: ".." :: ".." :: rest⟩ < pathLimit)
    (h : t.Leads i linkLimit ["w"] rest x) :
    (Disk.mk t ["w"] 950).look i ⟨.relative, sourceDirectory :: entryName :: ".." :: ".." :: rest⟩ = .ok x :=
  Disk.look_eq_ok.2 ⟨hn, hb,
    .down (enters_sources (by simp [entryName])) hs (.down (enters_entry (.inl (by simp))) he (.up (.up h)))⟩

end Through

theorem checkRoot_through : checkRoot sourced throughEntry = .ok () := by
  have hm : sourced.look ⟨true, false⟩ (throughEntry.child manifestName) =
      .error (Disk.missing (throughEntry.child manifestName)) := look_unentered (by decide) (by decide) (by decide)
  have hr : sourced.look ⟨true, false⟩ throughEntry = .error (Disk.missing throughEntry) :=
    look_unentered (by decide) (by decide) (by decide)
  simp [checkRoot, Disk.fileExists, Disk.node?, hm, hr]
  rfl

theorem makeDirectories_through : sourced.makeDirectories (throughEntry.child sourceDirectory) = (.ok (), entered) := by
  have hblocked {rest : List String} (hr : rest ≠ [])
      (hn : Path.hasNul ⟨.relative, sourceDirectory :: entryName :: rest⟩ = false)
      (hb : Path.byteSize ⟨.relative, sourceDirectory :: entryName :: rest⟩ < pathLimit) :
      sourced.makeDirectory ⟨.relative, sourceDirectory :: entryName :: rest⟩ =
        .error (Disk.missing ⟨.relative, sourceDirectory :: entryName :: rest⟩) := by
    rw [Disk.makeDirectory, look_unentered hr hn hb]
  have hentry : sourced.makeDirectories ⟨.relative, [sourceDirectory, entryName]⟩ = (.ok (), entered) := by
    have hl : sourced.look ⟨false, false⟩ ⟨.relative, [sourceDirectory, entryName]⟩ =
        .ok (.absent ["w", sourceDirectory] entryName) :=
      Disk.look_eq_ok.2 ⟨by decide, by decide,
        .down (enters_sources (by decide)) rfl (.absent (enters_entry (.inr rfl)) rfl)⟩
    rw [Disk.makeDirectories, Disk.makeDirectory_of_look hl]
    rfl
  have hup : sourced.makeDirectories ⟨.relative, [sourceDirectory, entryName, ".."]⟩ = (.ok (), entered) :=
    Disk.makeDirectories_beside (hblocked (by decide) (by decide) (by decide)) (by decide) hentry fun _ =>
      Disk.look_eq_ok.2 ⟨by decide, by decide,
        .down (enters_sources (by decide)) rfl (.down (enters_entry (.inl (by decide))) rfl (.up .here))⟩
  have hroot : sourced.makeDirectories throughEntry = (.ok (), entered) :=
    Disk.makeDirectories_beside (hblocked (by decide) (by decide) (by decide)) (by decide) hup fun _ =>
      look_entered rfl rfl (by decide) (by decide) .here
  exact Disk.makeDirectories_beside (hblocked (by decide) (by decide) (by decide)) (by decide) hroot fun _ =>
    look_entered rfl rfl (by decide) (by decide) (.down ⟨by decide, by decide, rfl, by decide⟩ rfl .here)

theorem canonical_through : entered.canonical false throughEntry = .ok ⟨.rooted, ["w"]⟩ := by
  have hs : entered.look ⟨false, false⟩ (Path.current.child sourceDirectory) = .ok (.found ["w", sourceDirectory] .directory) :=
    Disk.look_eq_ok.2 ⟨by decide, by decide, .down ⟨by decide, by decide, by decide, by decide⟩ rfl .here⟩
  have he : entered.look ⟨false, false⟩ ((Path.current.child sourceDirectory).child entryName) =
      .ok (.found ["w", sourceDirectory, entryName] .directory) :=
    Disk.look_eq_ok.2 ⟨by decide, by decide, .down (enters_sources (by decide)) rfl (.down (enters_entry (.inr rfl)) rfl .here)⟩
  have ht : entered.trace false entered.nesting (Disk.traceStart throughEntry) [] throughEntry.parts =
      .ok (.whole .current, []) := by
    change entered.trace false entered.nesting .current [] [sourceDirectory, entryName, "..", ".."] = _
    rw [Disk.trace_plain (by decide) (by decide) (Disk.linkAt_of_directory hs),
      Disk.trace_plain (by decide) (by decide) (Disk.linkAt_of_directory he), Disk.trace_up, Disk.trace_up, Disk.trace]
    rfl
  have hr : entered.look ⟨true, false⟩ ⟨.rooted, ["w"]⟩ = .ok (.found ["w"] .directory) :=
    Disk.look_eq_ok.2 ⟨by decide, by decide, .down ⟨by decide, by decide, by decide, by decide⟩ rfl .here⟩
  exact Disk.canonical_of_found ht (by decide) hr

/-- What is there after that. -/
def createdThrough : Disk :=
  { entered with tree := entered.tree.put ["w", manifestName] (.file (manifestText (nameFor "w")).toUTF8 now) }

/-- The package is created, and a directory is in the place of its entry point. -/
theorem create_through : create sourced throughEntry = (.ok (throughEntry.child manifestName), createdThrough) := by
  have hname : Package.name entered throughEntry = .ok (nameFor "w") := by
    rw [Package.name, canonical_through]
    rfl
  have hl : entered.look ⟨true, true⟩ (throughEntry.child manifestName) = .ok (.absent ["w"] manifestName) :=
    look_entered rfl rfl (by decide) (by decide) (.absent (enters_manifest true) rfl)
  have hw : entered.writeFile (throughEntry.child manifestName) (manifestText (nameFor "w")).toUTF8 now = .ok createdThrough :=
    Disk.writeFile_of_look hl rfl _ _
  have hentry : createdThrough.fileExists ((throughEntry.child sourceDirectory).child entryName) = .ok true := by
    refine Disk.fileExists_eq_true_iff.2 ⟨["w", sourceDirectory, entryName], .directory, ?_⟩
    exact look_entered rfl rfl (by decide) (by decide)
      (.down (enters_sources (by decide)) rfl (.down (enters_entry (.inr rfl)) rfl .here))
  simp only [create, checkRoot_through, fillDirectory, makeDirectories_through, hname, hw, hentry]

theorem settled_createdThrough : createdThrough.Settled :=
  (Tree.Stands.nil _).concat ⟨by decide, by decide, by decide, by decide, by decide⟩ rfl

theorem look_createdThrough : createdThrough.look ⟨true, false⟩ throughEntry = .ok (.found ["w"] .directory) :=
  look_entered rfl rfl (by decide) (by decide) .here

/-- There is no manifest among the sources. -/
theorem look_sources {p : Path} (hp : createdThrough.look ⟨true, false⟩ p = .ok (.found ["w"] .directory))
    (hs : (p.child sourceDirectory).byteSize < pathLimit)
    (hm : ((p.child sourceDirectory).child manifestName).byteSize < pathLimit) :
    createdThrough.look ⟨true, false⟩ ((p.child sourceDirectory).child manifestName) =
      .ok (.absent ["w", sourceDirectory] manifestName) := by
  have hname : IsName sourceDirectory := ⟨by decide, by decide, by decide, by decide, by decide⟩
  have hsources : createdThrough.tree.get? (["w"] ++ [sourceDirectory]) = some .directory := rfl
  have hnone : createdThrough.tree.get? (["w"] ++ [sourceDirectory] ++ [manifestName]) = none := rfl
  have hlook := Disk.look_name hp hname hs fun target => by rw [hsources]; exact nofun
  rw [hsources] at hlook
  rw [Disk.look_name hlook Manifest.isName_manifest hm fun target => by rw [hnone]; exact nofun, hnone]
  rfl

/-- The two paths at which the manifest is looked for from the sources are not too long. -/
theorem not_oversized_through {above : List String} (h : above <+: [sourceDirectory]) :
    ¬createdThrough.Oversized (Manifest.candidate createdThrough throughEntry above) := by
  rw [Disk.Oversized]
  obtain rfl | rfl : above = [] ∨ above = [sourceDirectory] := by simpa [List.prefix_cons_iff] using h
  · have hmanifest : createdThrough.look ⟨true, false⟩ (throughEntry.child manifestName) =
        .ok (.found ["w", manifestName] (.file (manifestText (nameFor "w")).toUTF8 now)) :=
      look_entered rfl rfl (by decide) (by decide) (.file (enters_manifest false) rfl)
    rw [Manifest.candidate_eq, Path.descend_nil, Disk.look_absolute settled_createdThrough rfl (by decide) hmanifest]
    rintro ⟨⟩
  · have hlook := look_sources look_createdThrough (by decide) (by decide)
    rw [Manifest.candidate_eq, show (throughEntry.descend [sourceDirectory]).child manifestName =
      (throughEntry.child sourceDirectory).child manifestName from rfl,
      Disk.look_absolute settled_createdThrough rfl (by decide) hlook]
    rintro ⟨⟩

/-- The package is found from its sources. -/
theorem create_discoverable_through :
    (create sourced throughEntry).1 = .ok (throughEntry.child manifestName) ∧
      (∃ R S, Created sourced (create sourced throughEntry).2 throughEntry R S) ∧
      Manifest.find (create sourced throughEntry).2 (throughEntry.descend [sourceDirectory]) =
        .ok (some (((create sourced throughEntry).2.absolute throughEntry).child manifestName)) ∧
      create (create sourced throughEntry).2 throughEntry =
        (.error (.packagePresent throughEntry.toString), (create sourced throughEntry).2) := by
  have hok : (create sourced throughEntry).1 = .ok (throughEntry.child manifestName) := by rw [create_through]
  obtain ⟨-, hcreated, hfinds, hagain⟩ :=
    create_discoverable settled_sourced hok (fun _ target _ => plain_sourced _ target) fun _ target _ => plain_sourced _ target
  refine ⟨hok, hcreated, ?_, hagain⟩
  have hdiscovers := hfinds [sourceDirectory] fun above habove hne l n => by
    obtain rfl | rfl : above = [] ∨ above = [sourceDirectory] := by
      simpa [List.prefix_cons_iff] using habove
    · exact absurd rfl hne
    · rw [create_through]
      have hlook := look_sources look_createdThrough (by decide) (by decide)
      intro hfound
      cases hlook.symm.trans hfound
  rw [create_through] at hdiscovers ⊢
  generalize Manifest.find _ _ = r at hdiscovers ⊢
  cases hdiscovers with
  | found => rfl
  | refused habove hlong => exact absurd hlong (not_oversized_through habove)

/-- So many names that their path is too long. -/
def longWay : List String :=
  List.replicate 2048 "n"

theorem isName_longWay {name : String} (h : name ∈ longWay) : IsName name := by
  obtain rfl := List.eq_of_mem_replicate h
  exact ⟨by decide, by decide, by decide, by decide, by decide⟩

/-- Nothing is there on that way. -/
theorem look_longWay {above : List String} (ha : above <+: longWay) (hne : above ≠ []) (l : Location) (n : Node) :
    createdThrough.look ⟨true, false⟩ ((throughEntry.descend above).child manifestName) ≠ .ok (.found l n) := by
  intro hlook
  cases above with
  | nil => exact hne rfl
  | cons name above =>
    have hmem : name ∈ longWay := ha.subset List.mem_cons_self
    obtain rfl := List.eq_of_mem_replicate hmem
    obtain ⟨j, -, hwalk⟩ := (Disk.look_eq_ok.1 look_createdThrough).2.2.resume rfl ("n" :: (above ++ [manifestName]))
    have hfound := (Disk.look_eq_ok.1 hlook).2.2.walk_eq
    have hparts : ((throughEntry.descend ("n" :: above)).child manifestName).parts =
        throughEntry.parts ++ "n" :: (above ++ [manifestName]) := by simp [Path.descend, Path.child]
    have hnone : createdThrough.tree.get? (["w"] ++ ["n"]) = none := rfl
    rw [Tree.walk_enters ((isName_longWay hmem).enters rfl _), hnone] at hwalk
    rw [hparts] at hfound
    have hstart : createdThrough.start ((throughEntry.descend ("n" :: above)).child manifestName) =
        createdThrough.start throughEntry := rfl
    rw [hstart, hwalk] at hfound
    simp at hfound

theorem hasNul_longWay : (throughEntry.descend longWay).hasNul = false := by
  have hthrough : throughEntry.hasNul = false := by decide
  rw [Path.hasNul] at hthrough
  rw [Path.descend, Path.hasNul, List.any_append, hthrough, Bool.false_or, List.any_eq_false]
  exact fun name hname => Bool.eq_false_iff.1 (isName_longWay hname).noNul

/-- The path at its end is too long. -/
theorem oversized_longWay : createdThrough.Oversized (Manifest.candidate createdThrough throughEntry longWay) := by
  have hnul := Disk.hasNul_child hasNul_longWay Manifest.isName_manifest.noNul
  have hspan : Path.span longWay = 2048 * ("n".utf8ByteSize + 1) := Path.span_replicate 2048 "n"
  have hletter : "n".utf8ByteSize = 1 := rfl
  have hbytes := Path.span_lt_byteSize throughEntry longWay manifestName
  rw [hspan, hletter] at hbytes
  have hlimit : pathLimit = 2048 * (1 + 1) := by decide
  have hlong : pathLimit ≤ ((throughEntry.descend longWay).child manifestName).byteSize := by omega
  rw [Manifest.candidate_eq]
  refine Disk.oversized_of_byteSize (Disk.hasNul_absolute settled_createdThrough hnul) ?_
  exact Nat.le_trans hlong (Disk.byteSize_absolute _ (List.append_ne_nil_of_right_ne_nil _ (List.cons_ne_nil _ _)))

/-- A package that was created can lack its entry point, and not be found from below. -/
theorem create_discoverable_fails :
    (create sourced throughEntry).1 = .ok (throughEntry.child manifestName) ∧
      (∀ l target, sourced.tree.get? l ≠ some (.link target)) ∧
      sourced.tree.get? ["w", sourceDirectory, entryName] = none ∧
      (create sourced throughEntry).2.look ⟨true, false⟩ (entryPath throughEntry) =
        .ok (.found ["w", sourceDirectory, entryName] .directory) ∧
      (∀ name ∈ longWay, IsName name) ∧
      (∀ above, above <+: longWay → above ≠ [] → ∀ l n, (create sourced throughEntry).2.look ⟨true, false⟩
        ((throughEntry.descend above).child manifestName) ≠ .ok (.found l n)) ∧
      ∃ path, Manifest.find (create sourced throughEntry).2 (throughEntry.descend longWay) =
        .error (.system .nameTooLong path) := by
  rw [create_through]
  refine ⟨rfl, plain_sourced, rfl, ?_, ?_, ?_, _, Manifest.find_of_oversized oversized_longWay⟩
  · exact look_entered rfl rfl (by decide) (by decide)
      (.down (enters_sources (by decide)) rfl (.down (enters_entry (.inr rfl)) rfl .here))
  · exact fun name => isName_longWay
  · exact fun above => look_longWay

end Package

end Hotload
