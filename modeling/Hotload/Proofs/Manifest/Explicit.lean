import Hotload.Proofs.Files.Strict
import Hotload.Proofs.Manifest.Nearest

/-!
What a manifest path given by hand comes to. It is to be the canonical path of what it refers to, or an invalid manifest if
it refers to nothing. It goes wrong where the tracing of the path and the system do not agree on what is there, and where
something else than the system ends the tracing.
-/
namespace Hotload.Manifest

open Files

variable {d : Disk} {given : String} {l : Location} {n : Node} {q : Path}

/-- A path given by hand refers to an entry. -/
def Refers (d : Disk) (given : String) (l : Location) (n : Node) : Prop :=
  d.look ⟨true, false⟩ (Path.ofString given) = .ok (.found l n)

/-- It refers to nothing, as there is no entry or a name on the way is too long for one. -/
def Missing (d : Disk) (given : String) : Prop :=
  (∃ above name, d.look ⟨true, false⟩ (Path.ofString given) = .ok (.absent above name)) ∨
    ∃ e, (e = .noEntry ∨ e = .nameTooLong ∧ (Path.ofString given).byteSize < pathLimit) ∧
      d.look ⟨true, false⟩ (Path.ofString given) = .error (.system e (Path.ofString given).toString)

/-- Over so many links its names lead to a location, or to a name that is missing. -/
def Leads (d : Disk) (given : String) (c : Nat) (o : Option Location) : Prop :=
  d.tree.Follows c (d.start (Path.ofString given)) (Path.ofString given).parts o

/-- An absolute path to an entry, without dots and without links. -/
structure Direct (d : Disk) (q : Path) (l : Location) : Prop where
  rooted : q = ⟨.rooted, l⟩
  names : ∀ name ∈ l, IsName name
  solid : ∀ above, above <+: l → d.tree.Solid above

/-- What is wanted of a path given by hand: a direct path to the entry that it refers to, which is canonical itself, or an
invalid manifest if it refers to nothing. -/
inductive Resolves (d : Disk) (given : String) : Outcome Path → Prop where
  | path {l : Location} {n : Node} {q : Path} : Refers d given l n → Direct d q l →
      d.look ⟨true, false⟩ q = .ok (.found l n) → d.canonical true q = .ok q → Resolves d given (.ok q)
  | invalid : (∀ l n, ¬Refers d given l n) → Resolves d given (.error (.invalidManifest given))

/-- The ways in which that goes wrong. -/
inductive Slips (d : Disk) (given : String) : Outcome Path → Prop where
  /-- There is a NUL in the path. -/
  | nul : (Path.ofString given).hasNul = true → Slips d given (.error .nulByte)
  /-- The names do not lead anywhere, as links go round in a loop or lead too deep. -/
  | loop {path : String} : (∀ c o, Leads d given c o → d.nesting < c) → Slips d given (.error (.linkLoop path))
  /-- The system refuses the path, but the names lead to an entry. -/
  | refused {c : Nat} {l : Location} : (∀ l n, ¬Refers d given l n) → Leads d given c (some l) → Direct d ⟨.rooted, l⟩ l →
      Slips d given (.ok ⟨.rooted, l⟩)
  /-- The path refers to an entry, and another path on the way to it is too long. -/
  | lost {l : Location} {n : Node} {q : Path} : Refers d given l n → pathLimit ≤ q.byteSize →
      d.canonical true (Path.ofString given) = .error (.system .nameTooLong q.toString) →
      Slips d given (.error (.invalidManifest given))
  /-- The path refers to an entry, and the direct path to it is too long. -/
  | long {l : Location} {n : Node} : Refers d given l n → Direct d ⟨.rooted, l⟩ l →
      pathLimit ≤ (⟨.rooted, l⟩ : Path).byteSize → Slips d given (.ok ⟨.rooted, l⟩)

/-- No answer is a slip. -/
theorem Slips.not_resolves {result : Outcome Path} (h : Slips d given result) : ¬Resolves d given result := by
  intro ha
  cases h with
  | nul | loop => cases ha
  | refused hno =>
    cases ha with
    | path hrefers => exact hno _ _ hrefers
  | lost hrefers =>
    cases ha with
    | invalid hno => exact hno _ _ hrefers
  | long _ _ hlong =>
    cases ha with
    | path _ _ hlook => exact Nat.not_lt.2 hlong (Disk.look_eq_ok.1 hlook).2.1

theorem explicit_of_canonical (h : d.canonical true (Path.ofString given) = .ok q) : explicit d given = .ok q := by
  rw [explicit, h]

theorem explicit_of_refused {f : Failure} (h : d.canonical true (Path.ofString given) = .error f) (hs : f.isSystem = true) :
    explicit d given = .error (.invalidManifest given) := by
  rw [explicit, h]
  exact congrArg Except.error (if_pos hs)

theorem explicit_of_other {f : Failure} (h : d.canonical true (Path.ofString given) = .error f) (hs : f.isSystem = false) :
    explicit d given = .error f := by
  rw [explicit, h]
  exact congrArg Except.error (if_neg (Bool.eq_false_iff.1 hs))

section Proper

variable (ht : d.tree.Proper)

include ht

theorem direct_of_denotes {r : Path} (h : Disk.Denotes d r l) : Direct d ⟨.rooted, l⟩ l where
  rooted := rfl
  names name hn := by
    obtain ⟨e, hg, -⟩ := h.solid
    exact ht.named l e hg name hn
  solid _ ha := h.solid.of_prefix ht ha

theorem leads_of_missing (h : Missing d given) :
    (Path.ofString given).hasNul = false ∧ ∃ c ≤ linkLimit, Leads d given c none := by
  obtain ⟨above, name, h⟩ | ⟨e, he, h⟩ := h
  · obtain ⟨hn, -, hleads⟩ := Disk.look_eq_ok.1 h
    exact ⟨hn, hleads.follows⟩
  · exact Disk.follows_of_missing ht he h

variable (hw : d.Settled)

include hw

theorem traced_of_leads {c : Nat} {o : Option Location} (h : Leads d given c o) (hc : c ≤ d.nesting) :
    Disk.Traced d [] o
      (d.trace true d.nesting (Disk.traceStart (Path.ofString given)) [] (Path.ofString given).parts) :=
  Disk.traced_of_follows ht hw h (Disk.denotes_traceStart hw _) d.known_nil (d.awaits_nil c) hc

/-- Where the names lead somewhere, the path comes to that, unless the system finds a path on the way too long. -/
theorem explicit_of_leads {c : Nat} {o : Option Location} (hn : (Path.ofString given).hasNul = false) (h : Leads d given c o)
    (hc : c ≤ d.nesting) :
    (∃ l, o = some l ∧ explicit d given = .ok ⟨.rooted, l⟩ ∧ Direct d ⟨.rooted, l⟩ l) ∨
      (o = none ∧ explicit d given = .error (.invalidManifest given)) ∨
      ∃ q : Path, pathLimit ≤ q.byteSize ∧ d.canonical true (Path.ofString given) = .error (.system .nameTooLong q.toString) ∧
        explicit d given = .error (.invalidManifest given) := by
  have htraced := traced_of_leads ht hw h hc
  generalize hresult : d.trace true d.nesting _ _ _ = result at htraced
  cases htraced with
  | @whole r m seen' hr =>
    have hcanonical := Disk.canonical_of_whole hresult
    rw [hr.collapse ht hw] at hcanonical
    exact .inl ⟨m, rfl, explicit_of_canonical hcanonical, direct_of_denotes ht hr⟩
  | missing hs =>
    obtain hs | rfl := hs
    · exact .inr (.inl ⟨rfl, explicit_of_refused (Disk.canonical_of_error hresult) hs⟩)
    · have hnul := List.any_eq_true.2 (Disk.nul_of_trace ht hw (Disk.denotes_traceStart hw _) d.known_nil hresult)
      cases hn.symm.trans hnul
  | @long o q hq =>
    have hcanonical := Disk.canonical_of_error hresult
    exact .inr (.inr ⟨q, hq, hcanonical, explicit_of_refused hcanonical rfl⟩)

/-- What is missing is an invalid manifest. -/
theorem explicit_of_missing (h : Missing d given) : explicit d given = .error (.invalidManifest given) := by
  obtain ⟨hn, c, hc, hleads⟩ := leads_of_missing ht h
  obtain ⟨l, hl, -⟩ | ⟨-, hinvalid⟩ | ⟨_, -, -, hinvalid⟩ :=
    explicit_of_leads ht hw hn hleads (Nat.le_trans hc (Nat.le_add_right _ _))
  · cases hl
  · exact hinvalid
  · exact hinvalid

/-- What the path refers to is answered, unless a path is too long. -/
theorem resolves_of_refers (h : Refers d given l n) :
    Resolves d given (explicit d given) ∨ Slips d given (explicit d given) := by
  obtain ⟨hn, -, hleads⟩ := Disk.look_eq_ok.1 h
  obtain ⟨c, hc, hfollows⟩ := hleads.follows
  obtain ⟨m, hm, hexplicit, hdirect⟩ | ⟨hnone, -⟩ | ⟨q, hq, hcanonical, hexplicit⟩ :=
    explicit_of_leads ht hw hn hfollows (Nat.le_trans hc (Nat.le_add_right _ _))
  · cases hm
    rw [hexplicit]
    by_cases hb : (⟨.rooted, l⟩ : Path).byteSize < pathLimit
    · have hsolid := hdirect.solid l (List.prefix_refl l)
      have hg := hleads.get?_of_directory ht (Disk.get?_start hw _)
      exact .inl (.path h hdirect (Disk.look_rooted ht hsolid hg hb) (Disk.canonical_rooted ht hw hsolid hb))
    · exact .inr (.long h hdirect (Nat.not_lt.1 hb))
  · cases hnone
  · rw [hexplicit]
    exact .inr (.lost h hq hcanonical)

/-- If the path refers to nothing, then it comes to an invalid manifest or goes wrong. -/
theorem resolves_of_not_refers (h : ∀ l n, ¬Refers d given l n) :
    Resolves d given (explicit d given) ∨ Slips d given (explicit d given) := by
  have hstart := Disk.denotes_traceStart hw (Path.ofString given)
  cases htrace : d.trace true d.nesting (Disk.traceStart (Path.ofString given)) [] (Path.ofString given).parts with
  | ok found =>
    obtain ⟨reached, seen⟩ := found
    obtain ⟨r, c, l, rfl, hfollows, hr, -⟩ := Disk.follows_of_trace ht hw hstart d.known_nil htrace
    have hcanonical := Disk.canonical_of_whole htrace
    rw [hr.collapse ht hw] at hcanonical
    rw [explicit_of_canonical hcanonical]
    exact .inr (.refused h hfollows (direct_of_denotes ht hr))
  | error f =>
    have hcanonical := Disk.canonical_of_error htrace
    obtain hs | rfl | ⟨path, rfl⟩ := Disk.trace_failure htrace
    · rw [explicit_of_refused hcanonical hs]
      exact .inl (.invalid h)
    · rw [explicit_of_other hcanonical rfl]
      exact .inr (.nul (List.any_eq_true.2 (Disk.nul_of_trace ht hw hstart d.known_nil htrace)))
    · have hexplicit := explicit_of_other hcanonical rfl
      rw [hexplicit]
      refine .inr (.loop fun c o hleads => Nat.lt_of_not_le fun hc => ?_)
      have htraced := traced_of_leads ht hw hleads hc
      rw [htrace] at htraced
      cases htraced with
      | missing hs =>
        obtain hs | hs := hs
        · cases hs
        · cases hs

/-- A path given by hand comes to what is wanted, or it goes wrong in one of the five ways. What is missing is always an
invalid manifest. -/
theorem explicit_resolves_iff :
    (Resolves d given (explicit d given) ↔ ¬Slips d given (explicit d given)) ∧
      (Missing d given → explicit d given = .error (.invalidManifest given)) := by
  refine ⟨⟨fun ha hs => hs.not_resolves ha, fun hs => ?_⟩, explicit_of_missing ht hw⟩
  have hcases : Resolves d given (explicit d given) ∨ Slips d given (explicit d given) := by
    by_cases h : ∃ l n, Refers d given l n
    · obtain ⟨l, n, h⟩ := h
      exact resolves_of_refers ht hw h
    · exact resolves_of_not_refers ht hw fun l n hrefers => h ⟨l, n, hrefers⟩
  exact hcases.resolve_right hs

end Proper

theorem isName_w : IsName "w" :=
  ⟨by decide, by decide, by decide, by decide, by decide⟩

theorem isName_link : IsName "ln" :=
  ⟨by decide, by decide, by decide, by decide, by decide⟩

theorem isName_below : IsName "a" :=
  ⟨by decide, by decide, by decide, by decide, by decide⟩

/-- A manifest beside a directory and a link to it. -/
def linked : Disk :=
  ⟨⟨[(["w"], .directory), (["w", "a"], .directory), (["w", "ln"], .link "a"), (["w", Package.manifestName], .file .empty 0)]⟩,
    ["w"], 950⟩

/-- A path through the link and up again. -/
def throughLink : String := "ln/../mun.toml"

theorem ofString_throughLink : Path.ofString throughLink = ⟨.relative, ["ln", "..", Package.manifestName]⟩ := by decide

theorem proper_linked : linked.tree.Proper := by
  refine Tree.proper_of_entries ?_ ?_ ?_
  · simp [linked, isName_w, isName_below, isName_link, isName_manifest]
  · intro e he
    simp only [linked, List.mem_cons, List.not_mem_nil, or_false] at he
    obtain rfl | rfl | rfl | rfl := he <;> rfl
  · simp [linked]

theorem settled_linked : linked.Settled :=
  (Tree.Stands.nil _).concat isName_w rfl

theorem refers_throughLink : Refers linked throughLink ["w", Package.manifestName] (.file .empty 0) := by
  have hleads : linked.tree.Leads ⟨true, false⟩ linkLimit ["w"] ["ln", "..", Package.manifestName]
      (.found ["w", Package.manifestName] (.file .empty 0)) := by
    refine .jump (isName_link.enters rfl _) rfl rfl ?_
    exact .down (isName_below.enters rfl _) rfl (.up (.file (isName_manifest.enters rfl _) rfl))
  rw [Refers, ofString_throughLink]
  exact Disk.look_eq_ok.2 ⟨by decide, by decide, hleads⟩

/-- The link is followed to the directory, and the double dot goes back from there. -/
theorem explicit_throughLink : explicit linked throughLink = .ok ⟨.rooted, ["w", Package.manifestName]⟩ := by
  have hcurrent : Disk.Denotes linked .current ["w"] := Disk.denotes_current settled_linked
  have hlink : linked.linkAt (Path.current.child "ln") = .ok (some "a") :=
    Disk.linkAt_of_some proper_linked hcurrent (e := .link "a") rfl (by decide)
  have hbelow : linked.linkAt (Path.current.child "a") = .ok none :=
    Disk.linkAt_of_some proper_linked hcurrent (e := .directory) rfl (by decide)
  have hmanifest : linked.linkAt (Path.current.child Package.manifestName) = .ok none :=
    Disk.linkAt_of_some proper_linked hcurrent (e := .file .empty 0) rfl (by decide)
  have hfollowed (seen : Seen) : linked.trace true 989 .current seen (components "a") =
      .ok (.whole (Path.current.child "a"), seen) := by
    have hparts : components "a" = ["a"] := by decide
    rw [hparts, Disk.trace_plain (by decide) (by decide) hbelow, Disk.trace]
  have hrest (seen : Seen) : linked.trace true (989 + 1) (Path.current.child "a") seen ["..", Package.manifestName] =
      .ok (.whole (Path.current.child Package.manifestName), seen) := by
    have hup : (Path.current.child "a").up = .current := by decide
    rw [Disk.trace_up, hup, Disk.trace_plain (by decide) (by decide) hmanifest, Disk.trace]
  have htrace : linked.trace true linked.nesting (Disk.traceStart (Path.ofString throughLink)) []
      (Path.ofString throughLink).parts =
        .ok (.whole (Path.current.child Package.manifestName), [(Path.current.child "ln", some (Path.current.child "a"))]) := by
    have hnesting : linked.nesting = 989 + 1 := rfl
    rw [ofString_throughLink, hnesting]
    exact (Disk.trace_followed (by decide) (by decide) hlink rfl (hfollowed _)).trans (hrest _)
  exact explicit_of_canonical (Disk.canonical_of_whole htrace)

theorem explicit_resolves_through :
    explicit linked throughLink = .ok ⟨.rooted, ["w", Package.manifestName]⟩ ∧
      Resolves linked throughLink (explicit linked throughLink) := by
  refine ⟨explicit_throughLink, (explicit_resolves_iff proper_linked settled_linked).1.2 fun hslips => ?_⟩
  rw [explicit_throughLink] at hslips
  cases hslips with
  | refused hno => exact hno _ _ refers_throughLink
  | long _ _ hlong => exact absurd hlong (by decide)

/-- A directory with a link that leads to itself. -/
def circular : Disk :=
  ⟨⟨[(["w"], .directory), (["w", "ln"], .link "ln")]⟩, ["w"], 950⟩

theorem ofString_link : Path.ofString "ln" = ⟨.relative, ["ln"]⟩ := by decide

theorem look_circular : circular.look ⟨true, false⟩ ⟨.relative, ["ln"]⟩ = .error (.system .loop "ln") := by
  have hwalk : circular.tree.walk ⟨true, false⟩ linkLimit ["w"] ["ln"] = .error .loop :=
    Tree.walk_circular (isName_link.enters rfl _) rfl rfl (by decide) (by decide)
  exact Disk.look_of_walk_error (by decide) (by decide) hwalk

theorem linkAt_circular : circular.linkAt (Path.current.child "ln") = .ok (some "ln") := by
  have hleads : circular.tree.Leads ⟨false, false⟩ linkLimit ["w"] ["ln"] (.found ["w", "ln"] (.link "ln")) :=
    .link (isName_link.enters rfl _) rfl rfl
  exact Disk.linkAt_eq_some.2 ⟨["w", "ln"], Disk.look_eq_ok.2 ⟨by decide, by decide, hleads⟩⟩

/-- Where a link leads to itself there is nothing, and that is no invalid manifest. -/
theorem explicit_resolves_fails :
    (∀ l n, ¬Refers circular "ln" l n) ∧ explicit circular "ln" = .error (.linkLoop "ln") ∧
      ¬Resolves circular "ln" (explicit circular "ln") := by
  have hrefers (l : Location) (n : Node) : ¬Refers circular "ln" l n := by
    rw [Refers, ofString_link, look_circular]
    exact nofun
  have hexplicit : explicit circular "ln" = .error (.linkLoop "ln") := by
    have hparts : components "ln" = ["ln"] := by decide
    have hloop : circular.loopFailure (Path.current.child "ln") = .linkLoop "ln" := by
      have hlook : circular.look ⟨true, false⟩ (Path.current.child "ln") = _ := look_circular
      rw [Disk.loopFailure, hlook]
      rfl
    have hinner (seen : Seen) (hs : valueAt? (Path.current.child "ln") seen = some none) :
        circular.trace true 989 .current seen (components "ln") = .error (.linkLoop "ln") := by
      rw [hparts, Disk.trace_circular (by decide) (by decide) linkAt_circular hs, hloop]
      rfl
    have htrace : circular.trace true circular.nesting (Disk.traceStart (Path.ofString "ln")) [] (Path.ofString "ln").parts =
        .error (.linkLoop "ln") := by
      have hnesting : circular.nesting = 989 + 1 := rfl
      rw [ofString_link, hnesting]
      exact Disk.trace_followed (by decide) (by decide) linkAt_circular rfl (hinner _ (by decide))
    exact explicit_of_other (Disk.canonical_of_error htrace) rfl
  refine ⟨hrefers, hexplicit, ?_⟩
  rw [hexplicit]
  exact nofun

end Hotload.Manifest
