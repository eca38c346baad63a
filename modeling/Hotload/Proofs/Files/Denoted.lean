import Hotload.Proofs.Files.Canonical
import Hotload.Proofs.Files.Following
import Mathlib.Data.List.Basic
import Mathlib.Data.List.Induction

/-!
What a traced path denotes. Such a path is canonical: absolute, or some double dots and names below them. It tells one
location, where there is an entry that is no link, so the system finds what a name leads to from there, and what it says
about links is what there is, unless the path is too long.
-/
namespace Hotload.Files

/-- The location so many levels up. -/
def ascend : Nat → Location → Location
  | 0, l => l
  | n + 1, l => ascend n l.dropLast

theorem ascend_succ (n : Nat) (l : Location) : ascend (n + 1) l = (ascend n l).dropLast := by
  induction n generalizing l with
  | zero => rfl
  | succ n ih => exact ih l.dropLast

/-- What an entry says if it is a link. -/
def Node.target? : Node → Option String
  | .link target => some target
  | _ => none

theorem Node.target?_eq_none {n : Node} : n.target? = none ↔ ∀ target, n ≠ .link target := by
  cases n <;> simp [target?]

namespace Tree

variable {t : Tree} {l : Location} {i : Intent} {k n : Nat} {rest : List String}

/-- There is an entry that is no link. -/
def Solid (t : Tree) (l : Location) : Prop :=
  ∃ n, t.get? l = some n ∧ ∀ target, n ≠ .link target

theorem Proper.directory_of_prefix (ht : t.Proper) {m : Location} {e : Node} (hg : t.get? l = some e) (hm : m <+: l)
    (hne : m ≠ l) :
    t.get? m = some .directory := by
  induction l using List.reverseRecOn generalizing e with
  | nil => exact absurd (List.prefix_nil.1 hm) hne
  | append_singleton above name ih =>
    have habove := ht.within above name e hg
    obtain rfl | hprefix := List.prefix_concat_iff.1 hm
    · exact absurd rfl hne
    · by_cases hsame : m = above
      · rwa [hsame]
      · exact ih habove hprefix hsame

/-- A directory of a proper tree stands. -/
theorem Proper.stands (ht : t.Proper) (hg : t.get? l = some .directory) : t.Stands l := by
  intro above name hn
  have hdirectory : t.get? (above ++ [name]) = some .directory := by
    by_cases hsame : above ++ [name] = l
    · rwa [hsame]
    · exact ht.directory_of_prefix hg hn hsame
  exact ⟨ht.isName hdirectory, hdirectory⟩

theorem solid_root (t : Tree) : t.Solid [] :=
  ⟨.directory, rfl, Node.directory_ne_link⟩

theorem Solid.of_prefix {m : Location} (hl : t.Solid l) (ht : t.Proper) (hm : m <+: l) : t.Solid m := by
  by_cases hsame : m = l
  · rwa [hsame]
  · obtain ⟨e, hg, -⟩ := hl
    exact ⟨.directory, ht.directory_of_prefix hg hm hsame, Node.directory_ne_link⟩

theorem Stands.get? (h : t.Stands l) : t.get? l = some .directory := by
  obtain rfl | ⟨above, name, rfl⟩ := List.eq_nil_or_concat' l
  · rfl
  · exact (h above name (List.prefix_refl _)).2

/-- From a directory, what a way comes to is in the tree. -/
theorem Leads.get?_of_directory (ht : t.Proper) {names : List String} {m : Location} {e : Node}
    (hl : t.get? l = some .directory) (h : Leads t i k l names (.found m e)) : t.get? m = some e := by
  generalize hx : Landing.found m e = x at h
  induction h with
  | here =>
    cases hx
    exact hl
  | absent => cases hx
  | file _ hg | link _ _ hg =>
    cases hx
    exact hg
  | idle _ _ ih => exact ih hl hx
  | @up _ l _ _ _ ih =>
    refine ih ?_ hx
    obtain rfl | ⟨above, name, rfl⟩ := List.eq_nil_or_concat' l
    · rfl
    · rw [List.dropLast_concat]
      exact ht.within above name _ hl
  | down _ hg _ ih => exact ih hg hx
  | @jump _ l _ target _ _ _ _ _ _ ih =>
    refine ih ?_ hx
    split
    · rfl
    · exact hl

theorem Stands.ascend (h : t.Stands l) (n : Nat) : t.Stands (ascend n l) := by
  induction n generalizing l with
  | zero => exact h
  | succ n ih => exact ih fun above name hn => h above name (hn.trans (List.dropLast_prefix l))

theorem walk_ascend : t.walk i k l (List.replicate n ".." ++ rest) = t.walk i k (ascend n l) rest := by
  induction n generalizing l with
  | zero => rfl
  | succ n ih => rw [List.replicate_succ, List.cons_append, walk_up, ih, ascend]

end Tree

namespace Disk

/-- The location that a traced path denotes. -/
inductive Locates (d : Disk) : Path → Location → Prop where
  | rooted {l : Location} : Locates d ⟨.rooted, l⟩ l
  | relative {n : Nat} {names : List String} : ".." ∉ names →
      Locates d ⟨.relative, List.replicate n ".." ++ names⟩ (ascend n d.workingDirectory ++ names)

variable {d : Disk} {p : Path} {l l' : Location} {name : String}

theorem replicate_append_inj {n n' : Nat} {names names' : List String} (h : ".." ∉ names) (h' : ".." ∉ names')
    (he : List.replicate n ".." ++ names = List.replicate n' ".." ++ names') : n = n' ∧ names = names' := by
  induction n generalizing n' with
  | zero =>
    cases n' with
    | zero => exact ⟨rfl, by simpa using he⟩
    | succ n' =>
      have hmem : ".." ∈ names := by
        rw [List.replicate_zero, List.nil_append] at he
        simp [he, List.replicate_succ]
      exact absurd hmem h
  | succ n ih =>
    cases n' with
    | zero =>
      have hmem : ".." ∈ names' := by
        rw [List.replicate_zero, List.nil_append] at he
        simp [← he, List.replicate_succ]
      exact absurd hmem h'
    | succ n' =>
      rw [List.replicate_succ, List.replicate_succ, List.cons_append, List.cons_append, List.cons.injEq] at he
      obtain ⟨rfl, rfl⟩ := ih he.2
      exact ⟨rfl, rfl⟩

theorem Locates.unique (h : Locates d p l) (h' : Locates d p l') : l = l' := by
  generalize hp : p = p' at h'
  cases h with
  | rooted =>
    cases h' with
    | rooted => exact (Path.mk.inj hp).2
    | relative => cases hp
  | relative hn =>
    cases h' with
    | rooted => cases hp
    | relative hn' =>
      obtain ⟨rfl, rfl⟩ := replicate_append_inj hn hn' (Path.mk.inj hp).2
      rfl

theorem Locates.child (h : Locates d p l) (hn : name ≠ "..") : Locates d (p.child name) (l ++ [name]) := by
  cases h with
  | rooted => exact .rooted
  | @relative n names hnames =>
    have hnames' : ".." ∉ names ++ [name] := by simp [hnames, hn.symm]
    have hlocates : Locates d ⟨.relative, List.replicate n ".." ++ (names ++ [name])⟩ _ := .relative hnames'
    rwa [← List.append_assoc, ← List.append_assoc] at hlocates

theorem up_of_name {above : List String} {last : String} (h : last ≠ "..") :
    Path.up ⟨.relative, above ++ [last]⟩ = ⟨.relative, above⟩ := by
  simp [Path.up, Path.isAbsolute, Path.parent, h]

theorem up_of_dots (n : Nat) :
    Path.up ⟨.relative, List.replicate n ".."⟩ = ⟨.relative, List.replicate (n + 1) ".."⟩ := by
  cases n with
  | zero => rfl
  | succ n =>
    have hsucc (n : Nat) : List.replicate (n + 1) ".." = List.replicate n ".." ++ [".."] := List.replicate_succ'
    rw [hsucc (n + 1), hsucc n]
    simp [Path.up, Path.isAbsolute, Path.child]

theorem Locates.up (h : Locates d p l) : Locates d p.up l.dropLast := by
  cases h with
  | rooted => exact .rooted
  | @relative n names hnames =>
    obtain rfl | ⟨above, last, rfl⟩ := List.eq_nil_or_concat' names
    · have hlocates : Locates d ⟨.relative, List.replicate (n + 1) ".." ++ []⟩ _ := .relative hnames
      rw [List.append_nil, List.append_nil, ascend_succ] at hlocates
      rwa [List.append_nil, List.append_nil, up_of_dots]
    · rw [List.mem_append, not_or, List.mem_singleton] at hnames
      have hlocates : Locates d ⟨.relative, List.replicate n ".." ++ above⟩ _ := .relative hnames.1
      rwa [← List.append_assoc, ← List.append_assoc, up_of_name (Ne.symm hnames.2),
        List.dropLast_concat]

/-- A traced path denotes an entry that is no link. -/
structure Denotes (d : Disk) (p : Path) (l : Location) : Prop where
  locates : Locates d p l
  solid : d.tree.Solid l

theorem Denotes.child {e : Node} (h : Denotes d p l) (hd : IsDownward name) (hg : d.tree.get? (l ++ [name]) = some e)
    (he : ∀ target, e ≠ .link target) : Denotes d (p.child name) (l ++ [name]) :=
  ⟨h.locates.child hd.2, e, hg, he⟩

theorem denotes_root (d : Disk) : Denotes d .root [] :=
  ⟨.rooted, d.tree.solid_root⟩

theorem denotes_current (hw : d.Settled) : Denotes d .current d.workingDirectory := by
  have hlocates : Locates d ⟨.relative, List.replicate 0 ".." ++ []⟩ _ := .relative (List.not_mem_nil)
  rw [List.append_nil, List.append_nil] at hlocates
  exact ⟨hlocates, .directory, Tree.Stands.get? hw, Node.directory_ne_link⟩

theorem Denotes.linkStart {target : String} (h : Denotes d p l) :
    Denotes d (if isRootedText target then Path.root else p) (linkStart l target) := by
  unfold Files.linkStart
  split
  · exact d.denotes_root
  · exact h

theorem get?_start (hw : d.Settled) (p : Path) : d.tree.get? (d.start p) = some .directory := by
  unfold start
  split
  · rfl
  · exact Tree.Stands.get? hw

section Proper

variable (ht : d.tree.Proper) {i : Intent} {k : Nat} {e : Node} {rest : List String}

include ht

theorem Denotes.up (h : Denotes d p l) : Denotes d p.up l.dropLast :=
  ⟨h.locates.up, h.solid.of_prefix ht (List.dropLast_prefix l)⟩

theorem Denotes.noNul (h : Denotes d p l) : p.hasNul = false := by
  obtain ⟨e, hg, -⟩ := h.solid
  have hnamed := ht.named l e hg
  obtain ⟨hlocates, -⟩ := h
  rw [Path.hasNul, List.any_eq_false]
  intro part hpart
  cases hlocates with
  | rooted => exact Bool.eq_false_iff.1 (hnamed part hpart).noNul
  | relative =>
    obtain hdots | hname := List.mem_append.1 hpart
    · rw [List.eq_of_mem_replicate hdots]
      decide
    · exact Bool.eq_false_iff.1 (hnamed part (List.mem_append_right _ hname)).noNul

/-- A way to a directory goes on from there. -/
theorem walk_of_directory (h : Locates d p l) (hg : d.tree.get? l = some .directory) (hi : i.create = false) :
    d.tree.walk i k (d.start p) (p.parts ++ rest) = d.tree.walk i k l rest := by
  cases h with
  | rooted => exact (ht.stands hg).walk hi
  | @relative n names hnames =>
    rw [List.append_assoc]
    change d.tree.walk i k d.workingDirectory _ = _
    rw [Tree.walk_ascend]
    exact (ht.stands hg).walk_below hi rfl

/-- An entry in a directory is found by its name, though a link only if it is not followed. -/
theorem walk_of_some (h : Denotes d p l) (hg : d.tree.get? (l ++ [name]) = some e) (hi : i.create = false)
    (he : ∀ target, e = .link target → i.follow = false) :
    d.tree.walk i k (d.start p) (p.parts ++ [name]) = .ok (.found (l ++ [name]) e) := by
  rw [walk_of_directory ht h.locates (ht.within l name e hg) hi, Tree.walk_enters ((ht.isName hg).enters hi []), hg]
  cases e with
  | directory => rw [Tree.walk]
  | file => rfl
  | link target => simp [he target rfl]

/-- What denotes no directory is in one. -/
theorem Denotes.parent (hw : d.Settled) (h : Denotes d p l) (hl : d.tree.get? l ≠ some .directory) :
    ∃ p' l' name, p = p'.child name ∧ l = l' ++ [name] ∧ Locates d p' l' ∧ d.tree.get? l' = some .directory := by
  obtain ⟨hlocates, e, hg, -⟩ := h
  cases hlocates with
  | rooted =>
    obtain rfl | ⟨above, name, rfl⟩ := List.eq_nil_or_concat' l
    · exact absurd rfl hl
    · exact ⟨⟨.rooted, above⟩, above, name, rfl, rfl, .rooted, ht.within above name e hg⟩
  | @relative n names hnames =>
    obtain rfl | ⟨above, name, rfl⟩ := List.eq_nil_or_concat' names
    · rw [List.append_nil] at hl
      exact absurd (Tree.Stands.get? (hw.ascend n)) hl
    · rw [← List.append_assoc] at hg
      rw [List.mem_append, not_or] at hnames
      refine ⟨⟨.relative, List.replicate n ".." ++ above⟩, _, name, ?_, ?_, .relative hnames.1, ht.within _ name e hg⟩
      · rw [Path.child, List.append_assoc]
      · rw [List.append_assoc]

/-- Nothing is found under a name that is missing, and nothing below a file. -/
theorem walk_of_none (hw : d.Settled) (h : Denotes d p l) (hd : IsDownward name) (hg : d.tree.get? (l ++ [name]) = none)
    (m : Location) (e : Node) : d.tree.walk ⟨false, false⟩ k (d.start p) (p.parts ++ [name]) ≠ .ok (.found m e) := by
  intro hwalk
  by_cases hl : d.tree.get? l = some .directory
  · rw [walk_of_directory ht h.locates hl rfl] at hwalk
    by_cases hlong : nameLimit < name.utf8ByteSize
    · rw [Tree.walk_long hd.1 hd.2 rfl hlong] at hwalk
      cases hwalk
    · rw [Tree.walk_enters ⟨hd.1, hd.2, rfl, Nat.not_lt.1 hlong⟩, hg] at hwalk
      cases hwalk
  · obtain ⟨e', hg', hsolid⟩ := h.solid
    obtain ⟨p', l', last, rfl, rfl, hp', hdirectory⟩ := h.parent ht hw hl
    have hstart : d.start ⟨p'.anchor, p'.parts ++ [last]⟩ = d.start p' := rfl
    rw [Path.child, List.append_assoc, hstart, walk_of_directory ht hp' hdirectory rfl, List.singleton_append,
      Tree.walk_enters ((ht.isName hg').enters rfl _), hg'] at hwalk
    cases e' with
    | directory => exact hl hg'
    | file => cases hwalk
    | link target => exact hsolid target rfl

omit ht in
theorem linkAt_of_long (hn : p.hasNul = false) (hb : pathLimit ≤ p.byteSize) :
    d.linkAt p = .error (.system .nameTooLong p.toString) := by
  rw [linkAt, look, if_neg (by simp [hn]), if_pos hb]

theorem linkAt_of_some (h : Denotes d p l) (hg : d.tree.get? (l ++ [name]) = some e) (hb : (p.child name).byteSize < pathLimit) :
    d.linkAt (p.child name) = .ok e.target? := by
  have hnul := hasNul_child (h.noNul ht) (ht.isName hg).noNul
  have hlook : d.look ⟨false, false⟩ (p.child name) = .ok (.found (l ++ [name]) e) :=
    look_eq_ok.2 ⟨hnul, hb, Tree.leads_of_walk (walk_of_some ht h hg rfl fun _ _ => rfl)⟩
  rw [linkAt, hlook]
  cases e <;> rfl

/-- What is known of an entry, unless its path is too long. -/
theorem linkAt_cases_of_some (h : Denotes d p l) (hg : d.tree.get? (l ++ [name]) = some e) :
    d.linkAt (p.child name) = .ok e.target? ∨ pathLimit ≤ (p.child name).byteSize ∧
      d.linkAt (p.child name) = .error (.system .nameTooLong (p.child name).toString) := by
  by_cases hb : (p.child name).byteSize < pathLimit
  · exact .inl (linkAt_of_some ht h hg hb)
  · have hnul := hasNul_child (h.noNul ht) (ht.isName hg).noNul
    exact .inr ⟨Nat.not_lt.1 hb, linkAt_of_long hnul (Nat.not_lt.1 hb)⟩

/-- Under a name that is missing, there is no answer. -/
theorem linkAt_of_none (hw : d.Settled) (h : Denotes d p l) (hd : IsDownward name) (hg : d.tree.get? (l ++ [name]) = none) :
    ∃ f, d.linkAt (p.child name) = .error f := by
  cases hl : d.look ⟨false, false⟩ (p.child name) with
  | error f => exact ⟨f, by rw [linkAt, hl]⟩
  | ok landing =>
    cases landing with
    | found m e => exact absurd (look_eq_ok.1 hl).2.2.walk_eq (walk_of_none ht hw h hd hg m e)
    | absent parent last => exact ⟨missing (p.child name), by rw [linkAt, hl]⟩

/-- An answer tells what there is. -/
theorem linkAt_ok (hw : d.Settled) (h : Denotes d p l) (hd : IsDownward name) {answer : Option String}
    (ha : d.linkAt (p.child name) = .ok answer) : ∃ e, d.tree.get? (l ++ [name]) = some e ∧ e.target? = answer := by
  cases hg : d.tree.get? (l ++ [name]) with
  | none =>
    obtain ⟨f, hf⟩ := linkAt_of_none ht hw h hd hg
    cases hf.symm.trans ha
  | some e =>
    obtain hl | ⟨-, hl⟩ := linkAt_cases_of_some ht h hg
    · cases hl.symm.trans ha
      exact ⟨e, rfl, rfl⟩
    · cases hl.symm.trans ha

theorem linkAt_link (hw : d.Settled) (h : Denotes d p l) (hd : IsDownward name) {target : String}
    (ha : d.linkAt (p.child name) = .ok (some target)) : d.tree.get? (l ++ [name]) = some (.link target) := by
  obtain ⟨e, hg, he⟩ := linkAt_ok ht hw h hd ha
  cases e with
  | directory | file => cases he
  | link target' =>
    cases he
    exact hg

omit ht in
/-- A loop is reported as one, unless the system refuses to look at it. -/
theorem loopFailure_cases (d : Disk) (p : Path) :
    (d.loopFailure p).isSystem = true ∨ ∃ path, d.loopFailure p = .linkLoop path := by
  unfold loopFailure
  split
  · split
    · exact .inr ⟨_, rfl⟩
    · exact .inl rfl
  · exact .inr ⟨_, rfl⟩

end Proper

end Disk

end Hotload.Files
