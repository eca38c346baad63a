import Hotload.Proofs.Files.Growing
import Hotload.Proofs.Package.Discovery
import Hotload.Proofs.Package.Remains
import Hotload.Proofs.Text.Blank

/-!
Package names. A name is that of the directory with an underscore for each run of characters that a name cannot have,
without the underscores at its ends. Such a name stays as it is when a directory is called by it, and it can stand in a
manifest between quotation marks, where it is all of one line. Which directories were made in between is of no consequence
for the name.
-/
namespace Hotload.Package

open Files

/-- A character of names: a letter or digit of ASCII, an underscore or a hyphen. -/
def Plain (c : Char) : Prop :=
  c.isAlphanum = true ∨ c = '_' ∨ c = '-'

/-- A text with one underscore in the place of each longest run of characters that are not plain. -/
inductive Respelled : List Char → List Char → Prop where
  | nil : Respelled [] []
  | keep {c : Char} {s t : List Char} : Plain c → Respelled s t → Respelled (c :: s) (c :: t)
  | run {run s t : List Char} : run ≠ [] → (∀ c ∈ run, ¬Plain c) → (∀ c ∈ s.head?, Plain c) → Respelled s t →
      Respelled (run ++ s) ('_' :: t)

/-- A name that needs no change. -/
structure Tidy (n : String) : Prop where
  ne_empty : n ≠ ""
  plain : ∀ c ∈ n.toList, Plain c
  first : n.toList.head? ≠ some '_'
  last : n.toList.getLast? ≠ some '_'

/-- The name for a text: what is left of it respelled without the underscores at its ends, or a standing one. -/
inductive NamedAfter (s : String) : String → Prop where
  | rest {before after : List Char} {n : String} : Respelled s.toList (before ++ n.toList ++ after) →
      (∀ c ∈ before ++ after, c = '_') → n ≠ "" → n.toList.head? ≠ some '_' → n.toList.getLast? ≠ some '_' →
      NamedAfter s n
  | nothing {t : List Char} : Respelled s.toList t → (∀ c ∈ t, c = '_') → NamedAfter s "package"

variable {c : Char} {s t : List Char} {n text : String} {d d' : Disk} {p q root m : Path}

theorem isNameChar_iff : isNameChar c = true ↔ Plain c := by
  simp [isNameChar, Plain, Char.isAlphanum, Char.isAlpha, Char.isUpper, Char.isLower, Char.isDigit,
    UInt32.le_iff_toNat_le, or_assoc]

theorem isNameChar_eq_false : isNameChar c = false ↔ ¬Plain c := by
  rw [← isNameChar_iff, Bool.not_eq_true]

theorem isUnderscore_iff : isUnderscore c = true ↔ c = '_' :=
  decide_eq_true_iff

theorem isUnderscore_eq_false : isUnderscore c = false ↔ c ≠ '_' :=
  decide_eq_false_iff_not

/-- A run that starts one character earlier is still one run. -/
theorem Respelled.extend {d : Char} (h : Respelled (d :: s) t) (hc : ¬Plain c) (hd : ¬Plain d) :
    Respelled (c :: d :: s) t := by
  generalize hs : d :: s = u at h
  cases h with
  | nil => cases hs
  | keep hp =>
    cases hs
    exact absurd hp hd
  | @run run s' t' hne hrun hnext hrest =>
    have hlonger : ∀ x ∈ c :: run, ¬Plain x := List.forall_mem_cons.2 ⟨hc, hrun⟩
    exact .run (List.cons_ne_nil c run) hlonger hnext hrest

theorem respelled_squeeze (s : List Char) : Respelled s (squeeze s) := by
  have hone {c : Char} {s t : List Char} (hc : ¬Plain c) (hs : ∀ x ∈ s.head?, Plain x) (h : Respelled s t) :
      Respelled (c :: s) ('_' :: t) :=
    .run (List.cons_ne_nil c []) (fun x hx => List.mem_singleton.1 hx ▸ hc) hs h
  fun_induction squeeze s with
  | case1 => exact .nil
  | case2 c r hc ih => exact .keep (isNameChar_iff.1 hc) ih
  | case3 c hc => exact hone (isNameChar_eq_false.1 (Bool.eq_false_iff.2 hc)) nofun .nil
  | case4 c hc d r hd ih =>
    refine hone (isNameChar_eq_false.1 (Bool.eq_false_iff.2 hc)) (fun x hx => ?_) ih
    cases hx
    exact isNameChar_iff.1 hd
  | case5 c hc d r hd ih =>
    exact ih.extend (isNameChar_eq_false.1 (Bool.eq_false_iff.2 hc)) (isNameChar_eq_false.1 (Bool.eq_false_iff.2 hd))

theorem squeeze_keep (hc : Plain c) (s : List Char) : squeeze (c :: s) = c :: squeeze s := by
  rw [squeeze.eq_def]
  simp only [isNameChar_iff.2 hc, if_true]

theorem squeeze_run {run : List Char} (hne : run ≠ []) (hrun : ∀ c ∈ run, ¬Plain c) (hs : ∀ c ∈ s.head?, Plain c) :
    squeeze (run ++ s) = '_' :: squeeze s := by
  induction run with
  | nil => exact absurd rfl hne
  | cons c run ih =>
    have hc : isNameChar c = false := isNameChar_eq_false.2 (hrun c List.mem_cons_self)
    cases run with
    | nil =>
      cases s with
      | nil => simp [squeeze, hc]
      | cons d s =>
        have hd : isNameChar d = true := isNameChar_iff.2 (hs d rfl)
        rw [List.cons_append, List.nil_append, squeeze]
        simp [hc, hd]
    | cons d run =>
      have hd : isNameChar d = false := isNameChar_eq_false.2 (hrun d (by simp))
      have hrest := ih (List.cons_ne_nil _ _) fun x hx => hrun x (List.mem_cons_of_mem _ hx)
      rw [List.cons_append, List.cons_append, squeeze.eq_def]
      simpa [hc, hd] using hrest

theorem Respelled.eq_squeeze (h : Respelled s t) : t = squeeze s := by
  induction h with
  | nil => rfl
  | keep hc _ ih => rw [squeeze_keep hc, ← ih]
  | run hne hrun hs _ ih => rw [squeeze_run hne hrun hs, ← ih]

theorem Respelled.plain (h : Respelled s t) : ∀ c ∈ t, Plain c := by
  induction h with
  | nil => nofun
  | keep hc _ ih => exact List.forall_mem_cons.2 ⟨hc, ih⟩
  | run _ _ _ _ ih => exact List.forall_mem_cons.2 ⟨.inr (.inl rfl), ih⟩

theorem respelled_self (h : ∀ c ∈ s, Plain c) : Respelled s s := by
  induction s with
  | nil => exact .nil
  | cons c s ih => exact .keep (h c List.mem_cons_self) (ih fun x hx => h x (List.mem_cons_of_mem _ hx))

theorem namedAfter_nameFor (s : String) : NamedAfter s (nameFor s) := by
  have hs := respelled_squeeze s.toList
  obtain ⟨before, after, hsplit, houter⟩ := Text.exists_trimBy isUnderscore (squeeze s.toList)
  simp only [isUnderscore_iff] at houter
  unfold nameFor
  dsimp only
  split
  · rename_i hempty
    rw [String.ofList_eq_empty_iff] at hempty
    rw [hsplit, hempty, List.append_nil] at hs
    exact .nothing hs houter
  · rename_i hne
    obtain ⟨hfirst, hlast⟩ := Text.ends_trimBy isUnderscore (squeeze s.toList)
    rw [hsplit] at hs
    refine .rest (by rwa [String.toList_ofList]) houter hne (fun hf => ?_) fun hl => ?_
    · rw [String.toList_ofList] at hf
      exact isUnderscore_eq_false.1 (hfirst _ hf) rfl
    · rw [String.toList_ofList] at hl
      exact isUnderscore_eq_false.1 (hlast _ hl) rfl

theorem trim_squeeze {before middle after : List Char} (hs : Respelled s (before ++ middle ++ after))
    (ho : ∀ c ∈ before ++ after, c = '_') (hne : middle ≠ []) (hf : middle.head? ≠ some '_')
    (hl : middle.getLast? ≠ some '_') : Text.trimBy isUnderscore (squeeze s) = middle := by
  rw [← hs.eq_squeeze]
  refine Text.trimBy_of_ends (fun c hc => isUnderscore_iff.2 (ho c hc)) hne (fun c hc => ?_) fun c hc => ?_
  · rw [isUnderscore_eq_false]
    rintro rfl
    exact hf hc
  · rw [isUnderscore_eq_false]
    rintro rfl
    exact hl hc

theorem NamedAfter.eq_nameFor {s : String} (h : NamedAfter s n) : n = nameFor s := by
  cases h with
  | rest hs ho hne hf hl =>
    have htrim := trim_squeeze hs ho (fun hnil => hne (String.toList_eq_nil_iff.1 hnil)) hf hl
    rw [nameFor, htrim, String.ofList_toList, if_neg hne]
  | nothing hs ho =>
    have htrim : Text.trimBy isUnderscore (squeeze s.toList) = [] := by
      rw [← hs.eq_squeeze]
      exact Text.trimBy_of_all fun c hc => isUnderscore_iff.2 (ho c hc)
    rw [nameFor, htrim]
    rfl

theorem namedAfter_iff {s : String} : NamedAfter s n ↔ n = nameFor s :=
  ⟨NamedAfter.eq_nameFor, fun h => h ▸ namedAfter_nameFor s⟩

example : nameFor "_\"\n_" = "package" := by decide

theorem NamedAfter.tidy {s : String} (h : NamedAfter s n) : Tidy n := by
  cases h with
  | rest hs _ hne hf hl =>
    refine ⟨hne, fun c hc => hs.plain c ?_, hf, hl⟩
    exact List.mem_append_left _ (List.mem_append_right _ hc)
  | nothing => exact ⟨by decide, by simp [Plain], by decide, by decide⟩

/-- A tidy text is its own name. -/
theorem Tidy.namedAfter (h : Tidy n) : NamedAfter n n := by
  have hs : Respelled n.toList ([] ++ n.toList ++ []) := by simpa using respelled_self h.plain
  exact .rest hs nofun h.ne_empty h.first h.last

theorem name_of_canonical (h : d.canonical false p = .ok q) : Package.name d p = .ok (nameFor q.name) := by
  rw [Package.name, h]
  rfl

/-- The name of a package is not changed by directories that were made. -/
theorem name_before (hg : d.Grows d') (ht : d.tree.Proper) (h : Package.name d' p = .ok n) : Package.name d p = .ok n := by
  unfold Package.name at h
  cases hq : d'.canonical false p with
  | error f =>
    rw [hq] at h
    cases h
  | ok q =>
    rw [hq] at h
    exact (name_of_canonical (hg.canonical_before ht hq)).trans h

/-- What is written before the equals sign of a line. -/
def keyOf (line : List Char) : List Char :=
  Text.trim (line.takeWhile (· ≠ '='))

/-- The lines of a text that give a name. -/
def nameLines (text : String) : List String :=
  ((text.toList.splitOn '\n').filter fun line => keyOf line = "name".toList).map String.ofList

/-- A character that cannot stand between quotation marks as it is. -/
def NeedsEscape (c : Char) : Prop :=
  c = '"' ∨ c = '\\' ∨ c.toNat < 0x20 ∨ c.toNat = 0x7f

theorem Plain.toNat (h : Plain c) : 0x2d ≤ c.toNat ∧ c.toNat ≤ 0x7a ∧ c.toNat ≠ 0x5c := by
  have hunderscore : '_'.toNat = 0x5f := rfl
  have hhyphen : '-'.toNat = 0x2d := rfl
  rw [← isNameChar_iff] at h
  simp only [isNameChar, Bool.or_eq_true, Bool.and_eq_true, decide_eq_true_eq] at h
  obtain (((⟨hl, hh⟩ | ⟨hl, hh⟩) | ⟨hl, hh⟩) | rfl) | rfl := h <;> omega

theorem Plain.not_needsEscape (h : Plain c) : ¬NeedsEscape c := by
  obtain ⟨hl, hh, hb⟩ := h.toNat
  rintro (rfl | rfl | hlow | hdelete)
  · exact absurd hl (by decide)
  · exact hb rfl
  · omega
  · omega

/-- The line of a manifest that gives the name. -/
def nameLine (n : String) : String :=
  "name = \"" ++ n ++ "\""

theorem toList_nameLine (n : String) : (nameLine n).toList = "name = \"".toList ++ n.toList ++ ['"'] := by
  rw [nameLine, String.toList_append, String.toList_append]
  rfl

/-- The lines of a manifest; the last one is empty, as the text ends with the end of a line. -/
def manifestLines (n : String) : List (List Char) :=
  ["[package]".toList, (nameLine n).toList, "version = \"0.1.0\"".toList, "authors = []".toList, []]

theorem toList_manifestText (n : String) : (manifestText n).toList = ['\n'].intercalate (manifestLines n) := by
  have hbefore : "[package]\nname = \"".toList = "[package]".toList ++ '\n' :: "name = \"".toList := rfl
  have hafter : "\"\nversion = \"0.1.0\"\nauthors = []\n".toList =
      '"' :: '\n' :: ("version = \"0.1.0\"".toList ++ '\n' :: ("authors = []".toList ++ ['\n'])) := rfl
  unfold manifestText manifestLines
  rw [String.toList_append, String.toList_append, toList_nameLine, hbefore, hafter]
  generalize "[package]".toList = header
  generalize "version = \"0.1.0\"".toList = version
  generalize "authors = []".toList = authors
  simp only [List.intercalate_cons_cons, List.intercalate_singleton, List.append_assoc, List.cons_append, List.nil_append,
    List.append_nil]

theorem notMem_manifestLines (h : '\n' ∉ n.toList) : ∀ line ∈ manifestLines n, '\n' ∉ line := by
  have hname : '\n' ∉ (nameLine n).toList := by
    have hstart : '\n' ∉ "name = \"".toList := by decide
    have hend : '\n' ∉ ['"'] := by decide
    rw [toList_nameLine, List.mem_append, List.mem_append]
    exact not_or.2 ⟨not_or.2 ⟨hstart, h⟩, hend⟩
  have hheader : '\n' ∉ "[package]".toList := by decide
  have hrest : ∀ line ∈ ["version = \"0.1.0\"".toList, "authors = []".toList, []], '\n' ∉ line := by decide
  exact List.forall_mem_cons.2 ⟨hheader, List.forall_mem_cons.2 ⟨hname, hrest⟩⟩

theorem lines_manifestText (h : '\n' ∉ n.toList) : (manifestText n).toList.splitOn '\n' = manifestLines n := by
  rw [toList_manifestText]
  exact List.splitOn_intercalate _ (notMem_manifestLines h) (List.cons_ne_nil _ _)

theorem keyOf_nameLine (n : String) : keyOf (nameLine n).toList = "name".toList := by
  rw [toList_nameLine]
  rfl

theorem nameLines_manifestText (h : '\n' ∉ n.toList) : nameLines (manifestText n) = [nameLine n] := by
  rw [nameLines, lines_manifestText h, manifestLines, List.filter_cons_of_neg (by decide),
    List.filter_cons_of_pos (by exact decide_eq_true (keyOf_nameLine n)), List.filter_cons_of_neg (by decide),
    List.filter_cons_of_neg (by decide), List.filter_cons_of_neg (by decide), List.filter_nil, List.map_cons,
    String.ofList_toList, List.map_nil]

/-- A manifest that was written is found with the name that the package had before anything was made. -/
theorem Fills.manifest (h : Fills d root d') (ht : d.tree.Proper) : ∃ name l, Package.name d root = .ok name ∧
    d'.look ⟨true, false⟩ (root.child manifestName) = .ok (.found l (.file (manifestText name).toUTF8 now)) := by
  obtain @⟨d₁, d₂, name, hd, hname, hw, hrest⟩ := h
  have hgrows := Disk.grows_makeDirectories d (root.child sourceDirectory)
  rw [hd] at hgrows
  obtain ⟨l, hlook⟩ := Disk.look_writeFile hw
  refine ⟨name, l, name_before hgrows ht hname, ?_⟩
  obtain rfl | ⟨entry, content, hmissing, hs⟩ := hrest
  · exact hlook
  · -- The entry point was missing, so writing it has not replaced the manifest.
    obtain hnone | hfile := (Disk.look_eq_ok.1 hlook).2.2.get?_found
    · cases hnone
    · obtain ⟨hcarries, -, hworking, -⟩ := Disk.carries_writeFile hs
      exact Disk.look_carry_file hworking hcarries hlook (kept_of_missing hmissing hs hfile)

/-- A package that was created has a manifest that was written. -/
theorem fills_of_create (h : (create d root).1 = .ok m) : m = root.child manifestName ∧ Fills d root (create d root).2 := by
  refine ⟨(completes_of_create h).1, ?_⟩
  obtain ⟨f, -, hcreate⟩ | ⟨-, hdisk, herror⟩ := create_cases d root
  · cases (congrArg Prod.fst hcreate).symm.trans h
  · rw [hdisk]
    obtain ⟨f, -, hfill⟩ | hfills := fillDirectory_cases d root
    · cases (herror f (congrArg Prod.fst hfill)).symm.trans h
    · exact hfills

/-- A file that is found in the place of a manifest was there before, or it is the manifest that was written. -/
theorem manifest_cases {l : Location} {content : ByteArray} {modified : Int}
    (h : (create d root).2.look ⟨true, false⟩ (root.child manifestName) = .ok (.found l (.file content modified))) :
    d.tree.get? l = some (.file content modified) ∨ Fills d root (create d root).2 := by
  obtain hnone | hfile := (Disk.look_eq_ok.1 h).2.2.get?_found
  · cases hnone
  · obtain ⟨f, -, hcreate⟩ | ⟨-, hdisk, -⟩ := create_cases d root
    · rw [hcreate] at hfile
      exact .inl hfile
    · rw [hdisk] at hfile ⊢
      obtain ⟨f, -, hfill⟩ | hfills := fillDirectory_cases d root
      · rw [hfill] at hfile
        refine .inl (((Disk.grows_makeDirectories d _).made _ _ hfile).resolve_right nofun)
      · exact .inr hfills

/-- The name of a package is tidy and is what is left of the name of the directory that the path resolves to; a tidy name is
kept, so a directory called by the name of a package gives it again. The manifest of a package that is created has it in
its one line for a name, and nothing in it needs an escape. -/
theorem name_tidy_stable (h : d.canonical false p = .ok q) :
    ∃ n, Package.name d p = .ok n ∧ Tidy n ∧ (∀ n', NamedAfter q.name n' ↔ n' = n) ∧ (Tidy q.name → n = q.name) ∧
      (∀ (d' : Disk) (p' q' : Path), d'.canonical false p' = .ok q' → q'.name = n → Package.name d' p' = .ok n) ∧
      (d.tree.Proper → ∀ m, (create d p).1 = .ok m → ∃ l, (create d p).2.look ⟨true, false⟩ m =
        .ok (.found l (.file (manifestText n).toUTF8 now))) ∧
      (d.tree.Proper → ∀ l content modified, (create d p).2.look ⟨true, false⟩ (p.child manifestName) =
          .ok (.found l (.file content modified)) →
        d.tree.get? l = some (.file content modified) ∨ content = (manifestText n).toUTF8) ∧
      nameLines (manifestText n) = [nameLine n] ∧ ∀ c ∈ n.toList, ¬NeedsEscape c := by
  have hname := name_of_canonical h
  have htidy := (namedAfter_nameFor q.name).tidy
  have hbare : ∀ c ∈ (nameFor q.name).toList, ¬NeedsEscape c := fun c hc => (htidy.plain c hc).not_needsEscape
  have hwritten (ht : d.tree.Proper) (hfills : Fills d p (create d p).2) :
      ∃ l, (create d p).2.look ⟨true, false⟩ (p.child manifestName) =
        .ok (.found l (.file (manifestText (nameFor q.name)).toUTF8 now)) := by
    obtain ⟨name, l, hbefore, hlook⟩ := hfills.manifest ht
    obtain rfl : name = nameFor q.name := Except.ok.inj (hbefore.symm.trans hname)
    exact ⟨l, hlook⟩
  refine ⟨_, hname, htidy, fun n' => namedAfter_iff, fun hq => hq.namedAfter.eq_nameFor.symm, ?_, ?_, ?_, ?_, hbare⟩
  · intro d' p' q' hq' hcalled
    have hagain : nameFor (nameFor q.name) = nameFor q.name := htidy.namedAfter.eq_nameFor.symm
    rw [name_of_canonical hq', hcalled, hagain]
  · intro ht m hm
    obtain ⟨rfl, hfills⟩ := fills_of_create hm
    exact hwritten ht hfills
  · intro ht l content modified hlook
    obtain hold | hfills := manifest_cases hlook
    · exact .inl hold
    · obtain ⟨l', hlook'⟩ := hwritten ht hfills
      cases hlook.symm.trans hlook'
      exact .inr rfl
  · exact nameLines_manifestText fun hnewline => hbare _ hnewline (.inr (.inr (.inl (by decide))))

def quotedName : String := "a\"\nb\x7d"

/-- Nothing but a directory of that name. -/
def quoted : Disk :=
  ⟨⟨[([quotedName], .directory)]⟩, [], 950⟩

def quotedRoot : Path := ⟨.relative, [quotedName]⟩

theorem isName_quotedName : IsName quotedName :=
  ⟨by decide, by decide, by decide, by decide, by decide⟩

theorem proper_quoted : quoted.tree.Proper := by
  refine Tree.proper_of_entries ?_ ?_ ?_ <;> simp [quoted, isName_quotedName, Tree.get?]

section Quoted

variable {t : Tree} {i : Intent} {a : Anchor} {rest : List String} {x : Landing}

theorem look_quoted (hg : t.get? [quotedName] = some .directory) (hn : Path.hasNul ⟨a, quotedName :: rest⟩ = false)
    (hb : Path.byteSize ⟨a, quotedName :: rest⟩ < pathLimit) (hr : rest.all (· = "") = false ∨ rest = [])
    (h : t.Leads i linkLimit [quotedName] rest x) : (Disk.mk t [] 950).look i ⟨a, quotedName :: rest⟩ = .ok x := by
  have henters := enters_plain (i := i) isName_quotedName.proper isName_quotedName.downward isName_quotedName.short hr
  have hstart : (Disk.mk t [] 950).start ⟨a, quotedName :: rest⟩ = [] := ite_self _
  refine Disk.look_eq_ok.2 ⟨hn, hb, ?_⟩
  rw [hstart]
  exact .down henters hg h

theorem absent_quoted (hg : t.get? [quotedName] = some .directory) (hm : t.get? [quotedName, n] = none) (hname : IsName n)
    (hb : (quotedRoot.child n).byteSize < pathLimit) :
    (Disk.mk t [] 950).look i (quotedRoot.child n) = .ok (.absent [quotedName] n) := by
  have hn : (quotedRoot.child n).hasNul = false := Disk.hasNul_child (by decide) hname.noNul
  have hne : n ≠ "" := by
    rintro rfl
    exact absurd hname.proper (by decide)
  refine look_quoted hg hn hb (.inl (by simp [hne])) ?_
  exact .absent (enters_plain hname.proper hname.downward hname.short (.inr rfl)) hm

theorem canonical_quotedRoot (hg : t.get? [quotedName] = some .directory) :
    (Disk.mk t [] 950).canonical false quotedRoot = .ok ⟨.rooted, [quotedName]⟩ := by
  have hl {a : Anchor} {i : Intent} (hn : Path.hasNul ⟨a, [quotedName]⟩ = false)
      (hb : Path.byteSize ⟨a, [quotedName]⟩ < pathLimit) :
      (Disk.mk t [] 950).look i ⟨a, [quotedName]⟩ = .ok (.found [quotedName] .directory) :=
    look_quoted hg hn hb (.inr rfl) .here
  have htrace : (Disk.mk t [] 950).trace false (Disk.mk t [] 950).nesting (Disk.traceStart quotedRoot) [] quotedRoot.parts =
      .ok (.whole (Path.current.child quotedName), []) := by
    change (Disk.mk t [] 950).trace false (Disk.mk t [] 950).nesting .current [] [quotedName] = _
    rw [Disk.trace_plain (by decide) (by decide) (Disk.linkAt_of_directory (hl (by decide) (by decide))), Disk.trace]
  have hq : (⟨.rooted, []⟩ / Path.current.child quotedName : Path).collapse = ⟨.rooted, [quotedName]⟩ := by decide
  exact Disk.canonical_of_found htrace hq (hl (by decide) (by decide))

theorem name_quotedRoot (hg : t.get? [quotedName] = some .directory) :
    Package.name (Disk.mk t [] 950) quotedRoot = .ok "a_b" := by
  have hcalled : Path.name ⟨.rooted, [quotedName]⟩ = quotedName := rfl
  have hname : nameFor quotedName = "a_b" := by decide
  rw [name_of_canonical (canonical_quotedRoot hg), hcalled, hname]

end Quoted

theorem checkRoot_quoted : checkRoot quoted quotedRoot = .ok () := by
  have hl : quoted.look ⟨true, false⟩ quotedRoot = .ok (.found [quotedName] .directory) :=
    look_quoted rfl (by decide) (by decide) (.inr rfl) .here
  have hm : quoted.look ⟨true, false⟩ (quotedRoot.child manifestName) = .ok (.absent [quotedName] manifestName) :=
    absent_quoted rfl rfl Manifest.isName_manifest (by decide)
  have hr : quoted.node? quotedRoot = .ok (some .directory) := by rw [Disk.node?, hl]
  rw [checkRoot, fileExists_of_absent hm]
  simp only [Disk.fileExists, Disk.isDirectory, hr]
  rfl

theorem create_quoted : (create quoted quotedRoot).1 = .ok (quotedRoot.child manifestName) := by
  have hs : IsName sourceDirectory := ⟨by decide, by decide, by decide, by decide, by decide⟩
  have hsource : quoted.look ⟨false, false⟩ (quotedRoot.child sourceDirectory) = .ok (.absent [quotedName] sourceDirectory) :=
    absent_quoted rfl rfl hs (by decide)
  have hmake : quoted.makeDirectories (quotedRoot.child sourceDirectory) =
      (.ok (), ⟨quoted.tree.put [quotedName, sourceDirectory] .directory, [], 950⟩) := by
    rw [Disk.makeDirectories, Disk.makeDirectory_of_look hsource]
    rfl
  have hname : Package.name ⟨quoted.tree.put [quotedName, sourceDirectory] .directory, [], 950⟩ quotedRoot = .ok "a_b" :=
    name_quotedRoot rfl
  have hmanifest : (Disk.mk (quoted.tree.put [quotedName, sourceDirectory] .directory) [] 950).look ⟨true, true⟩
      (quotedRoot.child manifestName) = .ok (.absent [quotedName] manifestName) :=
    absent_quoted rfl rfl Manifest.isName_manifest (by decide)
  generalize "a_b" = name at hname
  have hw := Disk.writeFile_of_look hmanifest rfl (manifestText name).toUTF8 now
  have hentry {i : Intent} : (Disk.mk ((quoted.tree.put [quotedName, sourceDirectory] .directory).put [quotedName, manifestName]
      (.file (manifestText name).toUTF8 now)) [] 950).look i (entryPath quotedRoot) =
        .ok (.absent [quotedName, sourceDirectory] entryName) :=
    look_quoted rfl (by decide) (by decide) (.inl (by decide))
      (.down (enters_plain (by decide) (by decide) (by decide) (.inl (by decide))) rfl
        (.absent (enters_plain (by decide) (by decide) (by decide) (.inr rfl)) rfl))
  exact create_of_steps checkRoot_quoted hmake hname hw (fileExists_of_absent hentry)
    (Disk.writeFile_of_look hentry rfl _ _)

/-- The runs in between become an underscore, the one at the end goes, and the manifest that is written says so. -/
theorem name_tidy_stable_quoted :
    quoted.tree.Proper ∧ quoted.canonical false quotedRoot = .ok ⟨.rooted, [quotedName]⟩ ∧
      Package.name quoted quotedRoot = .ok "a_b" ∧
      (∃ l, (create quoted quotedRoot).2.look ⟨true, false⟩ (quotedRoot.child manifestName) =
        .ok (.found l (.file (manifestText "a_b").toUTF8 now))) ∧
      nameLines (manifestText "a_b") = ["name = \"a_b\""] := by
  have hcanonical : quoted.canonical false quotedRoot = .ok ⟨.rooted, [quotedName]⟩ := canonical_quotedRoot rfl
  obtain ⟨n, hname, -, -, -, -, hwritten, -, hlines, -⟩ := name_tidy_stable hcanonical
  have hline : nameLine "a_b" = "name = \"a_b\"" := by decide
  obtain rfl : n = "a_b" := Except.ok.inj (hname.symm.trans (name_quotedRoot rfl))
  rw [hline] at hlines
  exact ⟨proper_quoted, hcanonical, hname, hwritten proper_quoted _ create_quoted, hlines⟩

end Hotload.Package
