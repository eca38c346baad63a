import Hotload.Proofs.Files.Names

/-!
Ways in parts. A way to a directory goes on from there, and a way comes through a directory before each of its names. So a
path and the absolute one made from it lead to the same place if the working directory stands. In a tree without links
that place is told by the names alone: an idle one stays, a double dot goes up and any other one goes down.
-/
namespace Hotload.Files

namespace Tree

variable {t : Tree} {i : Intent} {k : Nat} {l m : Location} {first second names : List String} {x : Landing}

/-- With nothing to be made, a name can be looked up before any others. -/
theorem Enters.before {name : String} {rest : List String} (h : Enters i name rest) (hi : i.create = false)
    (rest' : List String) : Enters i name rest' :=
  ⟨h.proper, h.downward, by simp [hi], h.short⟩

/-- A way is in a directory wherever a name is still to come. -/
theorem Leads.start (h : Leads t ⟨true, false⟩ k l (first ++ second) x) (hs : second ≠ []) :
    ∃ m, Leads t ⟨true, false⟩ k l first (.found m .directory) := by
  generalize hn : first ++ second = names at h
  induction h generalizing first with
  | here => exact absurd (List.append_eq_nil_iff.1 hn).2 hs
  | absent | file | link =>
    cases first with
    | nil => exact ⟨_, .here⟩
    | cons name first => simp [hs] at hn
  | idle hidle _ ih =>
    cases first with
    | nil => exact ⟨_, .here⟩
    | cons name first =>
      cases hn
      obtain ⟨m, hm⟩ := ih rfl
      exact ⟨m, .idle hidle hm⟩
  | up _ ih =>
    cases first with
    | nil => exact ⟨_, .here⟩
    | cons name first =>
      cases hn
      obtain ⟨m, hm⟩ := ih rfl
      exact ⟨m, .up hm⟩
  | down he hg _ ih =>
    cases first with
    | nil => exact ⟨_, .here⟩
    | cons name first =>
      cases hn
      obtain ⟨m, hm⟩ := ih rfl
      exact ⟨m, .down (he.before rfl _) hg hm⟩
  | jump he _ hg _ ih =>
    cases first with
    | nil => exact ⟨_, .here⟩
    | cons name first =>
      cases hn
      obtain ⟨m, hm⟩ := ih (List.append_assoc _ _ _)
      exact ⟨m, .jump (he.before rfl _) (by simp) hg hm⟩

/-- A way to a directory goes on from there, with the links that are left. -/
theorem Leads.resume (h : Leads t i k l first (.found m .directory)) (hi : i = ⟨true, false⟩) (second : List String) :
    ∃ j ≤ k, t.walk i k l (first ++ second) = t.walk i j m second := by
  generalize hx : Landing.found m .directory = x at h
  induction h with
  | here =>
    cases hx
    exact ⟨_, Nat.le_refl _, rfl⟩
  | absent | file | link => cases hx
  | idle hn _ ih =>
    obtain ⟨j, hj, hw⟩ := ih hx
    exact ⟨j, hj, by rw [List.cons_append, walk_idle hn, hw]⟩
  | up _ ih =>
    obtain ⟨j, hj, hw⟩ := ih hx
    exact ⟨j, hj, by rw [List.cons_append, walk_up, hw]⟩
  | down he hg _ ih =>
    obtain ⟨j, hj, hw⟩ := ih hx
    refine ⟨j, hj, ?_⟩
    rw [List.cons_append, walk_enters (he.before (by rw [hi]) _), hg]
    exact hw
  | jump he _ hg _ ih =>
    obtain ⟨j, hj, hw⟩ := ih hx
    refine ⟨j, Nat.le_succ_of_le hj, ?_⟩
    rw [List.cons_append, walk_enters (he.before (by rw [hi]) _), hg]
    simpa [hi, List.append_assoc] using hw

/-- What is found by a name that is no link, the last one of a way. -/
theorem walk_name {name : String} (he : Enters i name []) (hl : ∀ target, t.get? (l ++ [name]) ≠ some (.link target)) :
    t.walk i k l [name] =
      match t.get? (l ++ [name]) with
      | none => .ok (.absent l name)
      | some n => .ok (.found (l ++ [name]) n) := by
  rw [walk_enters he]
  cases hg : t.get? (l ++ [name]) with
  | none => rfl
  | some n =>
    cases n with
    | directory => rw [walk]
    | file => rfl
    | link target => exact absurd hg (hl target)

/-- A location with directories all the way, each under a name that a file can have. -/
def Stands (t : Tree) (l : Location) : Prop :=
  ∀ above name, above ++ [name] <+: l → IsName name ∧ t.get? (above ++ [name]) = some .directory

theorem Stands.nil (t : Tree) : t.Stands [] := by
  intro above name h
  simp at h

theorem Stands.walk_below (h : t.Stands l) (hi : i.create = false) (hl : first ++ second = l) :
    t.walk i k first (second ++ names) = t.walk i k l names := by
  induction second generalizing first with
  | nil =>
    rw [List.append_nil] at hl
    rw [hl, List.nil_append]
  | cons name second ih =>
    have hnext : first ++ [name] ++ second = l := by rw [List.append_assoc, List.singleton_append, hl]
    obtain ⟨hname, hg⟩ := h first name ⟨second, hnext⟩
    rw [List.cons_append, walk_enters (hname.enters hi _), hg]
    exact ih hnext

/-- From the root, the names of such a location lead to it. -/
theorem Stands.walk (h : t.Stands l) (hi : i.create = false) : t.walk i k [] (l ++ names) = t.walk i k l names :=
  h.walk_below hi rfl

theorem Stands.concat {name : String} (h : t.Stands l) (hname : IsName name)
    (hg : t.get? (l ++ [name]) = some .directory) : t.Stands (l ++ [name]) := by
  intro above last hlast
  obtain hwhole | habove := List.prefix_concat_iff.1 hlast
  · obtain ⟨rfl, hlast⟩ := List.append_inj' hwhole rfl
    obtain rfl : last = name := by simpa using hlast
    exact ⟨hname, hg⟩
  · exact h above last habove

theorem Stands.isName {name : String} (h : t.Stands l) (hn : name ∈ l) : IsName name := by
  obtain ⟨above, below, rfl⟩ := List.append_of_mem hn
  exact (h above name ⟨below, by simp⟩).1

theorem Stands.noNul (h : t.Stands l) (a : Anchor) : Path.hasNul ⟨a, l⟩ = false := by
  simp only [Path.hasNul, List.any_eq_false]
  intro name hn
  exact Bool.eq_false_iff.1 (h.isName hn).noNul

end Tree

namespace Path

variable {p q : Path} {f : Path → Bool}

theorem ancestry_eq_cons (p : Path) : ∃ above, p.ancestry = p :: above := by
  rw [ancestry, List.range_succ_eq_map, List.map_cons, Nat.sub_zero, List.take_length]
  exact ⟨_, rfl⟩

/-- The paths above are those of the first names. -/
theorem mem_ancestry_iff : q ∈ p.ancestry ↔ q.anchor = p.anchor ∧ q.parts <+: p.parts := by
  rw [mem_ancestry]
  constructor
  · rintro ⟨n, -, rfl⟩
    exact ⟨rfl, List.take_prefix n p.parts⟩
  · obtain ⟨a, parts⟩ := q
    rintro ⟨rfl, hparts⟩
    exact ⟨parts.length, hparts.length_le, by rw [← List.prefix_iff_eq_take.1 hparts]⟩

theorem hasNul_of_mem_ancestry (h : q ∈ p.ancestry) (hp : p.hasNul = false) : q.hasNul = false := by
  obtain ⟨hanchor, below, hparts⟩ := mem_ancestry_iff.1 h
  have hall : (⟨q.anchor, q.parts ++ below⟩ : Path).hasNul = false := by rwa [hparts, hanchor]
  exact hasNul_of_append hall

theorem byteSize_child_le (h : q ∈ p.ancestry) (name : String) : (q.child name).byteSize ≤ (p.child name).byteSize := by
  obtain ⟨hanchor, hparts⟩ := mem_ancestry_iff.1 h
  rw [child, hanchor]
  exact byteSize_above hparts name

theorem ancestry_pairwise (p : Path) : p.ancestry.Pairwise fun q q' => q'.parts.length < q.parts.length := by
  rw [ancestry, List.pairwise_map]
  refine List.pairwise_lt_range.imp_of_mem ?_
  intro a b ha hb hab
  simp only [List.mem_range, List.length_take] at ha hb ⊢
  omega

/-- What is found first among the paths above is the longest one that fits. -/
theorem length_le_of_find? (h : p.ancestry.find? f = some q) {q' : Path} (hq : q' ∈ p.ancestry) (hf : f q' = true) :
    q'.parts.length ≤ q.parts.length := by
  obtain ⟨-, before, after, hsplit, hbefore⟩ := List.find?_eq_some_iff_append.1 h
  have hsorted := p.ancestry_pairwise
  rw [hsplit] at hsorted hq
  obtain hfirst | hrest := List.mem_append.1 hq
  · have hno := hbefore q' hfirst
    simp [hf] at hno
  · obtain rfl | hafter := List.mem_cons.1 hrest
    · exact Nat.le_refl _
    · have hlonger := (List.pairwise_cons.1 (List.pairwise_append.1 hsorted).2.1).1
      exact Nat.le_of_lt (hlonger q' hafter)

/-- A path with more names after it. -/
def descend (p : Path) (names : List String) : Path :=
  ⟨p.anchor, p.parts ++ names⟩

theorem descend_nil (p : Path) : p.descend [] = p := by
  rw [descend, List.append_nil]

theorem descend_concat (p : Path) (names : List String) (name : String) :
    p.descend (names ++ [name]) = (p.descend names).child name := by
  rw [descend, descend, child, List.append_assoc]

theorem span_lt_byteSize (p : Path) (names : List String) (name : String) :
    span names < ((p.descend names).child name).byteSize + 1 := by
  have hbytes : ((p.descend names).child name).byteSize + 1 = _ := byteSize_eq (by simp)
  rw [descend, span_append, span_append, span_singleton] at hbytes
  rw [descend]
  omega

/-- The paths above a child are the child and those above its parent. -/
theorem ancestry_child (p : Path) (name : String) : (p.child name).ancestry = p.child name :: p.ancestry := by
  have hwhole : (p.child name).parts.length = p.parts.length + 1 := by simp [child]
  rw [ancestry, hwhole, List.range_succ_eq_map, List.map_cons, List.map_map, ancestry, List.cons.injEq]
  refine ⟨?_, List.map_congr_left fun k hk => ?_⟩
  · rw [Nat.sub_zero, ← hwhole, List.take_length]
  · have htake : (p.parts ++ [name]).take (p.parts.length - k) = p.parts.take (p.parts.length - k) :=
      List.take_append_of_le_length (Nat.sub_le _ _)
    simp only [Function.comp_apply, child, Nat.succ_eq_add_one, Nat.add_sub_add_right, htake]

end Path

namespace Disk

variable {d : Disk} {p : Path} {i : Intent} {k : Nat}

/-- The working directory is there. -/
def Settled (d : Disk) : Prop :=
  d.tree.Stands d.workingDirectory

theorem Settled.carry {d' : Disk} (h : d.Settled) (hw : d'.workingDirectory = d.workingDirectory)
    (hc : d.tree.Carries d'.tree) : d'.Settled := by
  intro above name hn
  rw [hw] at hn
  obtain ⟨hname, hg⟩ := h above name hn
  exact ⟨hname, hc _ _ hg nofun⟩

/-- The absolute path that is made of a path. -/
def absolute (d : Disk) (p : Path) : Path :=
  p.absolute d.workingPath

theorem absolute_of_absolute (h : p.isAbsolute = true) : d.absolute p = p :=
  if_pos h

theorem absolute_of_relative (h : p.isAbsolute = false) : d.absolute p = ⟨.rooted, d.workingDirectory ++ p.parts⟩ :=
  if_neg (by simp [h])

theorem isAbsolute_absolute (d : Disk) (p : Path) : (d.absolute p).isAbsolute = true := by
  cases hp : p.isAbsolute with
  | true => rwa [absolute_of_absolute hp]
  | false =>
    rw [absolute_of_relative hp]
    rfl

theorem start_absolute (d : Disk) (p : Path) : d.start (d.absolute p) = [] :=
  if_pos (d.isAbsolute_absolute p)

theorem isAbsolute_of_mem_ancestry {q : Path} (h : q ∈ (d.absolute p).ancestry) : q.isAbsolute = true := by
  have habs := d.isAbsolute_absolute p
  rwa [Path.isAbsolute, ← (Path.mem_ancestry_iff.1 h).1] at habs

/-- A path and the absolute one are followed to the same end. -/
theorem walk_absolute (hw : d.Settled) (hi : i.create = false) :
    d.tree.walk i k [] (d.absolute p).parts = d.tree.walk i k (d.start p) p.parts := by
  cases hp : p.isAbsolute with
  | true =>
    rw [absolute_of_absolute hp, start, if_pos hp]
  | false =>
    rw [absolute_of_relative hp, start, if_neg (by simp [hp])]
    exact hw.walk hi

theorem leads_absolute {x : Landing} (hw : d.Settled) (hi : i.create = false) (h : d.look i p = .ok x) :
    d.tree.Leads i linkLimit [] (d.absolute p).parts x :=
  Tree.leads_of_walk ((walk_absolute hw hi).trans (look_eq_ok.1 h).2.2.walk_eq)

theorem hasNul_absolute (hw : d.Settled) (hp : p.hasNul = false) : (d.absolute p).hasNul = false := by
  cases ha : p.isAbsolute with
  | true => rwa [absolute_of_absolute ha]
  | false =>
    have hwd := hw.noNul .rooted
    rw [absolute_of_relative ha]
    simp only [Path.hasNul, List.any_append, Bool.or_eq_false_iff] at hp hwd ⊢
    exact ⟨hwd, hp⟩

theorem look_absolute {x : Landing} (hw : d.Settled) (hi : i.create = false) (hb : (d.absolute p).byteSize < pathLimit)
    (h : d.look i p = .ok x) : d.look i (d.absolute p) = .ok x := by
  refine look_eq_ok.2 ⟨hasNul_absolute hw (look_eq_ok.1 h).1, hb, ?_⟩
  rw [start_absolute]
  exact leads_absolute hw hi h

/-- The paths above that of a directory lead to directories. -/
theorem look_above {q : Path} {l : Location} (h : d.look ⟨true, false⟩ p = .ok (.found l .directory)) (hq : q ∈ p.ancestry) :
    ∃ m, d.look ⟨true, false⟩ q = .ok (.found m .directory) := by
  obtain ⟨hn, hb, hleads⟩ := look_eq_ok.1 h
  obtain ⟨hanchor, hparts⟩ := Path.mem_ancestry_iff.1 hq
  have hbytes : q.byteSize < pathLimit := by
    obtain ⟨a, first⟩ := q
    obtain rfl : a = p.anchor := hanchor
    exact Path.byteSize_lt_of_above hparts hb
  have hstart : d.start q = d.start p := by simp [start, Path.isAbsolute, hanchor]
  obtain ⟨second, hparts⟩ := hparts
  rw [← hparts] at hleads
  have hdirectory : ∃ m, d.tree.Leads ⟨true, false⟩ linkLimit (d.start q) q.parts (.found m .directory) := by
    rw [hstart]
    by_cases hs : second = []
    · rw [hs, List.append_nil] at hleads
      exact ⟨l, hleads⟩
    · exact hleads.start hs
  obtain ⟨m, hm⟩ := hdirectory
  exact ⟨m, look_eq_ok.2 ⟨Path.hasNul_of_mem_ancestry hq hn, hbytes, hm⟩⟩

/-- In a directory a name that is no link leads to its entry, or is missing. -/
theorem look_name {name : String} {l : Location} (h : d.look ⟨true, false⟩ p = .ok (.found l .directory)) (hn : IsName name)
    (hb : (p.child name).byteSize < pathLimit) (hl : ∀ target, d.tree.get? (l ++ [name]) ≠ some (.link target)) :
    d.look ⟨true, false⟩ (p.child name) =
      match d.tree.get? (l ++ [name]) with
      | none => .ok (.absent l name)
      | some n => .ok (.found (l ++ [name]) n) := by
  obtain ⟨hnul, -, hleads⟩ := look_eq_ok.1 h
  obtain ⟨j, -, hwalk⟩ := hleads.resume rfl [name]
  rw [Tree.walk_name (hn.enters rfl []) hl] at hwalk
  have hstart : d.start (p.child name) = d.start p := rfl
  rw [look, if_neg (by simp [hasNul_child hnul hn.noNul]), if_neg (Nat.not_le.2 hb), hstart, Path.child, hwalk]
  cases d.tree.get? (l ++ [name]) <;> rfl

theorem oversized_of_byteSize (hn : p.hasNul = false) (hb : pathLimit ≤ p.byteSize) : d.Oversized p := by
  rw [Oversized, look, if_neg (by simp [hn]), if_pos hb]

variable {d' : Disk} {l : Location} {name : String} {content : ByteArray} {modified : Int}

theorem absolute_descend (d : Disk) (p : Path) (names : List String) :
    d.absolute (p.descend names) = (d.absolute p).descend names := by
  cases hp : p.isAbsolute with
  | true =>
    have hp' : (p.descend names).isAbsolute = true := hp
    rw [absolute_of_absolute hp, absolute_of_absolute hp']
  | false =>
    have hp' : (p.descend names).isAbsolute = false := hp
    rw [absolute_of_relative hp, absolute_of_relative hp', Path.descend, Path.descend, List.append_assoc]

/-- The absolute path is no shorter. -/
theorem byteSize_absolute (d : Disk) (hp : p.parts ≠ []) : p.byteSize ≤ (d.absolute p).byteSize := by
  cases ha : p.isAbsolute with
  | true => exact Nat.le_of_eq (by rw [absolute_of_absolute ha])
  | false =>
    rw [absolute_of_relative ha]
    have hshort : p.byteSize + 1 = _ := Path.byteSize_eq hp
    have hlong : (⟨.rooted, d.workingDirectory ++ p.parts⟩ : Path).byteSize + 1 = _ := Path.byteSize_eq (by simp [hp])
    have hanchor : p.anchor = .relative := by simpa [Path.isAbsolute] using ha
    have hempty : Anchor.relative.text.utf8ByteSize = 0 := rfl
    rw [hanchor] at hshort
    rw [Path.span_append] at hlong
    omega

theorem hasNul_of_absolute (h : (d.absolute p).hasNul = false) : p.hasNul = false := by
  cases ha : p.isAbsolute with
  | true => rwa [absolute_of_absolute ha] at h
  | false =>
    rw [absolute_of_relative ha] at h
    simp only [Path.hasNul, List.any_append, Bool.or_eq_false_iff] at h ⊢
    exact h.2

theorem look_of_absolute {x : Landing} (hw : d.Settled) (hi : i.create = false) (hp : p.parts ≠ [])
    (h : d.look i (d.absolute p) = .ok x) : d.look i p = .ok x := by
  obtain ⟨hn, hb, hleads⟩ := look_eq_ok.1 h
  rw [start_absolute] at hleads
  refine look_eq_ok.2 ⟨hasNul_of_absolute hn, Nat.lt_of_le_of_lt (d.byteSize_absolute hp) hb, ?_⟩
  exact Tree.leads_of_walk ((walk_absolute hw hi).symm.trans hleads.walk_eq)

theorem fileExists_eq_true_iff : d.fileExists p = .ok true ↔ ∃ l n, d.look ⟨true, false⟩ p = .ok (.found l n) := by
  constructor
  · intro h
    unfold fileExists node? at h
    split at h
    · rename_i l n hl
      exact ⟨l, n, hl⟩
    · cases h
    · split at h <;> cases h
  · rintro ⟨l, n, hl⟩
    rw [fileExists, node?, hl]
    rfl

/-- A file that is written under a name that is no link comes to be in the directory itself. -/
theorem writeFile_name (hp : d.look ⟨true, false⟩ p = .ok (.found l .directory)) (hn : IsName name)
    (hl : ∀ target, d.tree.get? (l ++ [name]) ≠ some (.link target))
    (h : d.writeFile (p.child name) content modified = .ok d') :
    d' = { d with tree := d.tree.put (l ++ [name]) (.file content modified) } := by
  obtain ⟨x, hlook, -, rfl⟩ := writeFile_ok h
  have hplace := look_name hp hn (look_eq_ok.1 hlook).2.1 hl
  rw [look_uncreating hlook] at hplace
  have hlocation : x.location = l ++ [name] := by
    cases hg : d.tree.get? (l ++ [name]) with
    | none | some n =>
      rw [hg] at hplace
      cases hplace
      rfl
  rw [hlocation]

end Disk

/-- Where a name leads if there are no links. -/
def stride (l : Location) (name : String) : Location :=
  if Path.isIdle name then l else if name = ".." then l.dropLast else l ++ [name]

def place (l : Location) (names : List String) : Location :=
  names.foldl stride l

section Place

variable {l k : Location} {name : String} {names : List String}

@[simp] theorem place_nil : place l [] = l := rfl

@[simp] theorem place_cons : place l (name :: names) = place (stride l name) names := rfl

@[simp] theorem place_append (first second : List String) : place l (first ++ second) = place (place l first) second :=
  List.foldl_append

theorem stride_idle (h : Path.isIdle name = true) : stride l name = l :=
  if_pos h

theorem stride_up : stride l ".." = l.dropLast := rfl

theorem stride_down (h : Path.isIdle name = false) (hd : name ≠ "..") : stride l name = l ++ [name] := by
  rw [stride, if_neg (by simp [h]), if_neg hd]

/-- A step leads to a location above, or to the one below that it names. -/
theorem stride_cases (l : Location) (name : String) : stride l name <+: l ∨ stride l name = l ++ [name] := by
  unfold stride
  split
  · exact .inl (List.prefix_refl l)
  · split
    · exact .inl (List.dropLast_prefix l)
    · exact .inr rfl

/-- Names that lead below a location pass it on the way, unless they start below it. -/
theorem exists_place_eq (h : k <+: place l names) (hk : k <+: l → k = l) : ∃ first, first <+: names ∧ place l first = k := by
  induction names generalizing l with
  | nil => exact ⟨[], List.prefix_refl _, (hk h).symm⟩
  | cons name names ih =>
    have hnext : k <+: stride l name → k = l ∨ k = stride l name := by
      intro hp
      obtain habove | hbelow := stride_cases l name
      · exact .inl (hk (hp.trans habove))
      · rw [hbelow] at hp ⊢
        exact (List.prefix_concat_iff.1 hp).symm.imp_left hk
    by_cases hl : k = l
    · exact ⟨[], List.nil_prefix, hl.symm⟩
    · obtain ⟨first, hfirst, hplace⟩ := ih h fun hp => (hnext hp).resolve_left hl
      exact ⟨name :: first, List.cons_prefix_cons.2 ⟨rfl, hfirst⟩, hplace⟩

end Place

namespace Tree

variable {t : Tree} {i : Intent} {k : Nat} {l m : Location} {names : List String} {x : Landing}

/-- There are no links. -/
def Plain (t : Tree) : Prop :=
  ∀ l target, t.get? l ≠ some (.link target)

theorem plain_of_entries (h : ∀ e ∈ t.entries, ∀ target, e.2 ≠ .link target) : t.Plain := by
  intro l target hg
  unfold get? at hg
  split at hg
  · cases hg
  · exact h _ (mem_of_valueAt? hg) target rfl

theorem Leads.location_eq (ht : t.Plain) (h : Leads t i k l names x) : x.location = place l names := by
  induction h with
  | here => rfl
  | idle hn _ ih => rw [place_cons, stride_idle hn, ih]
  | up _ ih => rw [place_cons, stride_up, ih]
  | absent he | file he => rw [place_cons, stride_down he.proper he.downward]; rfl
  | link _ _ hg => exact absurd hg (ht _ _)
  | down he _ _ ih => rw [place_cons, stride_down he.proper he.downward, ih]
  | jump _ _ hg => exact absurd hg (ht _ _)

end Tree

end Hotload.Files
