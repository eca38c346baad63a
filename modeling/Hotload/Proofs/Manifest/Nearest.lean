import Hotload.Manifest
import Hotload.Proofs.Files.Place

/-!
What the search for a manifest finds in a tree without links. It goes up by the text of the path, and the directories that
contain a directory are another matter: behind a double dot the path above is that of a directory below. The search is
right just where the first directory with a manifest, by the text, really contains the one that was searched.
-/
namespace Hotload.Manifest

open Files

variable {d : Disk} {p q : Path} {D k : Location}

/-- Whether there is a manifest in a directory. -/
def holds (d : Disk) (l : Location) : Bool :=
  (d.tree.get? (l ++ [Package.manifestName])).isSome

/-- The nearest directory with a manifest among a directory and those that contain it, if there is one. -/
inductive Nearest (d : Disk) (D : Location) : Option Location → Prop where
  | some {k : Location} : k <+: D → holds d k = true → (∀ k', k' <+: D → holds d k' = true → k' <+: k) →
      Nearest d D (some k)
  | none : (∀ k, k <+: D → holds d k = false) → Nearest d D none

/-- What is wanted of the search: an absolute path to the nearest manifest, or nothing if there is no manifest. -/
inductive Answers (d : Disk) (D : Location) : Outcome (Option Path) → Prop where
  | some {k : Location} {q : Path} {n : Node} : Nearest d D (some k) → q.isAbsolute = true →
      d.look ⟨true, false⟩ q = .ok (.found (k ++ [Package.manifestName]) n) → Answers d D (.ok (some q))
  | none : Nearest d D none → Answers d D (.ok none)

theorem isName_manifest : IsName Package.manifestName :=
  ⟨by decide, by decide, by decide, by decide, by decide⟩

/-- The first candidate is looked at before any other one. -/
theorem find_first (d : Disk) (p : Path) :
    ∃ rest, find d p =
      match d.fileExists ((d.absolute p).child Package.manifestName) with
      | .error f => .error f
      | .ok true => .ok (some ((d.absolute p).child Package.manifestName))
      | .ok false => firstPresent d rest := by
  obtain ⟨above, habove⟩ := Path.ancestry_eq_cons (d.absolute p)
  have hcandidates : candidates d p = (d.absolute p).ancestry.map (·.child Package.manifestName) := rfl
  rw [find, hcandidates, habove, List.map_cons, firstPresent]
  exact ⟨_, rfl⟩

/-- The first path above, by the text, whose names lead to a directory with a manifest. -/
def firstHolder (d : Disk) (p : Path) : Option Path :=
  (d.absolute p).ancestry.find? fun q => holds d (place [] q.parts)

theorem holds_of_firstHolder (h : firstHolder d p = some q) : holds d (place [] q.parts) = true := by
  have hq := List.find?_some h
  exact hq

section Search

variable (ht : d.tree.Plain) (hw : d.Settled) (hp : d.look ⟨true, false⟩ p = .ok (.found D .directory))

include ht hw hp

/-- The directory is where the names of its absolute path lead. -/
theorem place_absolute : place [] (d.absolute p).parts = D :=
  ((Disk.leads_absolute hw rfl hp).location_eq ht).symm

/-- The way to the directory comes through one for each path above, and there the manifest is looked for. -/
theorem look_candidate (hb : ((d.absolute p).child Package.manifestName).byteSize < pathLimit)
    (hq : q ∈ (d.absolute p).ancestry) :
    d.look ⟨true, false⟩ (q.child Package.manifestName) =
      match d.tree.get? (place [] q.parts ++ [Package.manifestName]) with
      | none => .ok (.absent (place [] q.parts) Package.manifestName)
      | some n => .ok (.found (place [] q.parts ++ [Package.manifestName]) n) := by
  have habsolute := Disk.look_absolute hw rfl (Path.byteSize_lt_of_above (List.prefix_append _ _) hb) hp
  obtain ⟨m, hm⟩ := Disk.look_above habsolute hq
  have hplace : m = place [] q.parts := by
    have hleads := (Disk.look_eq_ok.1 hm).2.2
    rw [Disk.start, if_pos (Disk.isAbsolute_of_mem_ancestry hq)] at hleads
    exact hleads.location_eq ht
  have hshort := Nat.lt_of_le_of_lt (Path.byteSize_child_le hq Package.manifestName) hb
  rw [← hplace]
  exact Disk.look_name hm isName_manifest hshort (ht _)

theorem fileExists_candidate (hb : ((d.absolute p).child Package.manifestName).byteSize < pathLimit)
    (hq : q ∈ (d.absolute p).ancestry) :
    d.fileExists (q.child Package.manifestName) = .ok (holds d (place [] q.parts)) := by
  rw [Disk.fileExists, Disk.node?, look_candidate ht hw hp hb hq, holds]
  cases d.tree.get? (place [] q.parts ++ [Package.manifestName]) <;> rfl

/-- The search finds the manifest of the longest path above whose names lead to a directory with one. -/
theorem find_of_short (hb : ((d.absolute p).child Package.manifestName).byteSize < pathLimit) :
    find d p = .ok ((firstHolder d p).map (·.child Package.manifestName)) := by
  have hpresent {ps : List Path} (hps : ∀ q ∈ ps, q ∈ (d.absolute p).ancestry) :
      firstPresent d (ps.map (·.child Package.manifestName)) =
        .ok ((ps.find? fun q => holds d (place [] q.parts)).map (·.child Package.manifestName)) := by
    induction ps with
    | nil => rfl
    | cons q ps ih =>
      have hrest := ih fun q' hq => hps q' (List.mem_cons_of_mem _ hq)
      rw [List.map_cons, firstPresent, fileExists_candidate ht hw hp hb (hps q List.mem_cons_self), List.find?_cons]
      cases holds d (place [] q.parts) with
      | true => rfl
      | false => exact hrest
  exact hpresent fun q hq => hq

omit ht in
/-- If the first candidate is too long, that is all that the search says. -/
theorem find_of_long (hb : pathLimit ≤ ((d.absolute p).child Package.manifestName).byteSize) :
    find d p = .error (.system .nameTooLong ((d.absolute p).child Package.manifestName).toString) := by
  have hnul := Disk.hasNul_child (Disk.hasNul_absolute hw (Disk.look_eq_ok.1 hp).1) isName_manifest.noNul
  have hlong : d.Oversized ((d.absolute p).child Package.manifestName) := Disk.oversized_of_byteSize hnul hb
  obtain ⟨rest, hfind⟩ := find_first d p
  rw [hfind, Disk.fileExists_error_iff.2 ⟨hlong, rfl⟩]

/-- A directory that contains the one that is searched is passed on the way to it. If some first names do not lead into it,
then that is so after them. -/
theorem exists_holder {first second : List String} (hparts : first ++ second = (d.absolute p).parts)
    (hk : k <+: D) (hno : k <+: place [] first → k = place [] first) :
    ∃ q ∈ (d.absolute p).ancestry, first <+: q.parts ∧ place [] q.parts = k := by
  have hend : k <+: place (place [] first) second := by
    rwa [← place_append, hparts, place_absolute ht hw hp]
  obtain ⟨third, hthird, hplace⟩ := exists_place_eq hend hno
  refine ⟨⟨(d.absolute p).anchor, first ++ third⟩, Path.mem_ancestry_iff.2 ⟨rfl, ?_⟩, List.prefix_append _ _, ?_⟩
  · rw [← hparts]
    exact (List.prefix_append_right_inj first).2 hthird
  · rwa [place_append]

theorem nearest_of_none (hf : firstHolder d p = none) : Nearest d D none := by
  refine .none fun k hk => ?_
  obtain ⟨q, hq, -, hplace⟩ := exists_holder ht hw hp (List.nil_append _) hk List.prefix_nil.1
  have hno := List.find?_eq_none.1 hf q hq
  rw [hplace] at hno
  exact Bool.eq_false_iff.2 hno

/-- If the first directory with a manifest contains the one that is searched, no other one is nearer. -/
theorem nearest_of_some (hf : firstHolder d p = some q) (hq : place [] q.parts <+: D) :
    Nearest d D (some (place [] q.parts)) := by
  have hholds : holds d (place [] q.parts) = true := holds_of_firstHolder hf
  refine .some hq hholds fun k hk hkholds => ?_
  obtain ⟨-, second, hparts⟩ := Path.mem_ancestry_iff.1 (List.mem_of_find?_eq_some hf)
  by_cases habove : k <+: place [] q.parts
  · exact habove
  · obtain ⟨q', hq', hbelow, hplace⟩ := exists_holder ht hw hp hparts hk fun h => absurd h habove
    -- No longer path has a manifest, so the nearer one is at the path itself.
    have hlength := Path.length_le_of_find? hf hq' (by rwa [hplace])
    have hsame : k = place [] q.parts := by rw [hbelow.eq_of_length_le hlength, hplace]
    exact hsame ▸ List.prefix_refl k

theorem look_firstHolder (hb : ((d.absolute p).child Package.manifestName).byteSize < pathLimit)
    (hf : firstHolder d p = some q) :
    ∃ n, d.look ⟨true, false⟩ (q.child Package.manifestName) =
      .ok (.found (place [] q.parts ++ [Package.manifestName]) n) := by
  obtain ⟨n, hn⟩ := Option.isSome_iff_exists.1 (holds_of_firstHolder hf)
  have hlook := look_candidate ht hw hp hb (List.mem_of_find?_eq_some hf)
  rw [hn] at hlook
  exact ⟨n, hlook⟩

theorem answers_of_contains (hb : ((d.absolute p).child Package.manifestName).byteSize < pathLimit)
    (hc : ∀ q, firstHolder d p = some q → place [] q.parts <+: D) : Answers d D (find d p) := by
  rw [find_of_short ht hw hp hb]
  cases hf : firstHolder d p with
  | none => exact .none (nearest_of_none ht hw hp hf)
  | some q =>
    obtain ⟨n, hlook⟩ := look_firstHolder ht hw hp hb hf
    have habs : q.isAbsolute = true := Disk.isAbsolute_of_mem_ancestry (List.mem_of_find?_eq_some hf)
    exact .some (nearest_of_some ht hw hp hf (hc q hf)) habs hlook

/-- What is found is the manifest of the first directory that has one, so that is the nearest one. -/
theorem contains_of_answers (hb : ((d.absolute p).child Package.manifestName).byteSize < pathLimit)
    (ha : Answers d D (find d p)) (hf : firstHolder d p = some q) : place [] q.parts <+: D := by
  obtain ⟨n, hlook⟩ := look_firstHolder ht hw hp hb hf
  rw [find_of_short ht hw hp hb, hf] at ha
  cases ha with
  | some hnearest _ hfound =>
    have hk := hlook.symm.trans hfound
    simp only [Except.ok.injEq, Landing.found.injEq, List.append_cancel_right_eq] at hk
    cases hnearest with
    | some hcontains => rwa [hk.1]

/-- The search does what is wanted of it just if the path of the first candidate is not too long, and the first directory
by the text that has a manifest contains the one that is searched. -/
theorem find_answers_iff :
    Answers d D (find d p) ↔ ((d.absolute p).child Package.manifestName).byteSize < pathLimit ∧
      ∀ q, firstHolder d p = some q → place [] q.parts <+: D := by
  by_cases hb : ((d.absolute p).child Package.manifestName).byteSize < pathLimit
  · constructor
    · intro ha
      exact ⟨hb, fun q hf => contains_of_answers ht hw hp hb ha hf⟩
    · intro hc
      exact answers_of_contains ht hw hp hb hc.2
  · rw [find_of_long hw hp (Nat.not_lt.1 hb)]
    exact ⟨nofun, fun h => absurd h.1 hb⟩

end Search

/-- A directory without a manifest, in which there is one with a manifest. -/
def nested : Disk :=
  ⟨⟨[(["w"], .directory), (["w", "a"], .directory), (["w", "a", Package.manifestName], .file .empty 0)]⟩, ["w"], 950⟩

theorem plain_nested : nested.tree.Plain := by
  refine Tree.plain_of_entries fun e he target hlink => ?_
  simp only [nested, List.mem_cons, List.not_mem_nil, or_false] at he
  obtain rfl | rfl | rfl := he <;> cases hlink

theorem settled_nested : nested.Settled :=
  (Tree.Stands.nil _).concat ⟨by decide, by decide, by decide, by decide, by decide⟩ rfl

theorem enters_below (rest : List String) : Tree.Enters ⟨true, false⟩ "a" rest :=
  ⟨by decide, by decide, rfl, by decide⟩

theorem find_answers_below :
    Answers nested ["w", "a"] (find nested ⟨.relative, ["a"]⟩) := by
  have hlook : nested.look ⟨true, false⟩ ⟨.relative, ["a"]⟩ = .ok (.found ["w", "a"] .directory) :=
    Disk.look_eq_ok.2 ⟨by decide, by decide, .down (enters_below _) rfl .here⟩
  have hholder : firstHolder nested ⟨.relative, ["a"]⟩ = some ⟨.rooted, ["w", "a"]⟩ := by decide
  refine (find_answers_iff plain_nested settled_nested hlook).2 ⟨by decide, fun q hq => ?_⟩
  cases hholder.symm.trans hq
  exact List.prefix_refl _

/-- Up again from that directory, its manifest is found, though there is no manifest for the directory that is searched. -/
theorem find_answers_fails :
    nested.look ⟨true, false⟩ ⟨.relative, ["a", ".."]⟩ = .ok (.found ["w"] .directory) ∧ Nearest nested ["w"] none ∧
      find nested ⟨.relative, ["a", ".."]⟩ = .ok (some ⟨.rooted, ["w", "a", Package.manifestName]⟩) ∧
      ¬Answers nested ["w"] (find nested ⟨.relative, ["a", ".."]⟩) := by
  have hlook : nested.look ⟨true, false⟩ ⟨.relative, ["a", ".."]⟩ = .ok (.found ["w"] .directory) :=
    Disk.look_eq_ok.2 ⟨by decide, by decide, .down (enters_below _) rfl (.up .here)⟩
  have hfind : find nested ⟨.relative, ["a", ".."]⟩ = .ok (some ⟨.rooted, ["w", "a", Package.manifestName]⟩) := by
    have hholder : firstHolder nested ⟨.relative, ["a", ".."]⟩ = some ⟨.rooted, ["w", "a"]⟩ := by decide
    rw [find_of_short plain_nested settled_nested hlook (by decide), hholder]
    rfl
  have hnone : Nearest nested ["w"] none := by
    refine .none fun k hk => ?_
    obtain rfl | habove := List.prefix_concat_iff.1 (show k <+: [] ++ ["w"] from hk)
    · decide
    · rw [List.prefix_nil.1 habove]
      decide
  refine ⟨hlook, hnone, hfind, ?_⟩
  rw [hfind]
  rintro (⟨hnearest, -, -⟩ | -)
  cases hnearest with
  | some hk hholds =>
    cases hnone with
    | none hno => simp [hno _ hk] at hholds

end Hotload.Manifest
