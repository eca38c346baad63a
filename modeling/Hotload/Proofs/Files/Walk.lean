import Hotload.Files.Access

/-!
Where a path leads, as rules: one for each way in which a name is followed. A walk that succeeds is a derivation by these
rules, so what is said of all walks is shown by an induction on derivations. A walk meets directories and links only,
its end apart, and so it goes the same way in every tree that has them all.
-/
namespace Hotload.Files

/-- The location that a way comes to, whether or not there is an entry. -/
def Landing.location : Landing → Location
  | .found l _ => l
  | .absent parent name => parent ++ [name]

theorem Node.directory_ne_link (target : String) : Node.directory ≠ .link target := nofun

theorem Node.file_ne_link (content : ByteArray) (modified : Int) (target : String) : Node.file content modified ≠ .link target :=
  nofun

/-- Whether a file can be written where a way ends: there is one already, or nothing at all. -/
def Landing.isWritable : Landing → Bool
  | .absent _ _ => true
  | .found _ (.file _ _) => true
  | _ => false

namespace Tree

/-- A name that is looked up in a directory, with the names after it. -/
structure Enters (i : Intent) (name : String) (rest : List String) : Prop where
  proper : Path.isIdle name = false
  downward : name ≠ ".."
  unslashed : (i.create && !rest.isEmpty && rest.all (· = "")) = false
  short : name.utf8ByteSize ≤ nameLimit

theorem Enters.of_not {i : Intent} {name : String} {rest : List String} (hi : ¬Path.isIdle name = true)
    (hu : ¬name = "..") (hs : ¬(i.create && !rest.isEmpty && rest.all (· = "")) = true)
    (hl : ¬nameLimit < name.utf8ByteSize) : Enters i name rest :=
  ⟨Bool.eq_false_iff.2 hi, hu, Bool.eq_false_iff.2 hs, Nat.not_lt.1 hl⟩

/-- From a location, with so many links to spare, some names lead somewhere. -/
inductive Leads (t : Tree) (i : Intent) : Nat → Location → List String → Landing → Prop where
  | here {k : Nat} {l : Location} : Leads t i k l [] (.found l .directory)
  | idle {k : Nat} {l : Location} {name : String} {rest : List String} {x : Landing} :
      Path.isIdle name = true → Leads t i k l rest x → Leads t i k l (name :: rest) x
  | up {k : Nat} {l : Location} {rest : List String} {x : Landing} :
      Leads t i k l.dropLast rest x → Leads t i k l (".." :: rest) x
  | absent {k : Nat} {l : Location} {name : String} :
      Enters i name [] → t.get? (l ++ [name]) = none → Leads t i k l [name] (.absent l name)
  | file {k : Nat} {l : Location} {name : String} {content : ByteArray} {modified : Int} :
      Enters i name [] → t.get? (l ++ [name]) = some (.file content modified) →
      Leads t i k l [name] (.found (l ++ [name]) (.file content modified))
  | link {k : Nat} {l : Location} {name target : String} :
      Enters i name [] → i.follow = false → t.get? (l ++ [name]) = some (.link target) →
      Leads t i k l [name] (.found (l ++ [name]) (.link target))
  | down {k : Nat} {l : Location} {name : String} {rest : List String} {x : Landing} :
      Enters i name rest → t.get? (l ++ [name]) = some .directory → Leads t i k (l ++ [name]) rest x →
      Leads t i k l (name :: rest) x
  | jump {k : Nat} {l : Location} {name target : String} {rest : List String} {x : Landing} :
      Enters i name rest → (rest.isEmpty && !i.follow) = false → t.get? (l ++ [name]) = some (.link target) →
      Leads t i k (if isRootedText target then [] else l) (components target ++ rest) x →
      Leads t i (k + 1) l (name :: rest) x

variable {t t' : Tree} {i : Intent} {k : Nat} {l : Location} {names rest : List String} {name : String} {x : Landing}

theorem walk_idle (h : Path.isIdle name = true) : t.walk i k l (name :: rest) = t.walk i k l rest := by
  rw [walk, if_pos h]

theorem walk_up : t.walk i k l (".." :: rest) = t.walk i k l.dropLast rest := by
  rw [walk, if_neg (by decide), if_pos rfl]

/-- A name that is too long is not looked up. -/
theorem walk_long (hp : Path.isIdle name = false) (hd : name ≠ "..")
    (hu : (i.create && !rest.isEmpty && rest.all (· = "")) = false) (hl : nameLimit < name.utf8ByteSize) :
    t.walk i k l (name :: rest) = .error .nameTooLong := by
  rw [walk, if_neg (Bool.eq_false_iff.1 hp), if_neg hd, if_neg (Bool.eq_false_iff.1 hu), if_pos hl]

/-- A name that is looked up is followed by what there is. -/
theorem walk_enters (h : Enters i name rest) :
    t.walk i k l (name :: rest) =
      match t.get? (l ++ [name]) with
      | none => if rest.isEmpty then .ok (.absent l name) else .error .noEntry
      | some .directory => t.walk i k (l ++ [name]) rest
      | some (.file content modified) =>
        if rest.isEmpty then .ok (.found (l ++ [name]) (.file content modified)) else .error .notDirectory
      | some (.link target) =>
        if rest.isEmpty && !i.follow then .ok (.found (l ++ [name]) (.link target))
        else
          match k with
          | 0 => .error .loop
          | k + 1 => t.walk i k (if isRootedText target then [] else l) (components target ++ rest) := by
  have hshort : ¬nameLimit < name.utf8ByteSize := Nat.not_lt.2 h.short
  cases hg : t.get? (l ++ [name]) with
  | none => simp [walk, h.proper, h.downward, h.unslashed, hshort, hg]
  | some n =>
    cases n with
    | directory | file => simp [walk, h.proper, h.downward, h.unslashed, hshort, hg]
    | link => cases k <;> simp [walk, h.proper, h.downward, h.unslashed, hshort, hg]

theorem Leads.walk_eq (h : Leads t i k l names x) : t.walk i k l names = .ok x := by
  induction h with
  | here => rw [walk]
  | idle hn _ ih => rw [walk_idle hn, ih]
  | up _ ih => rw [walk_up, ih]
  | absent he hg => rw [walk_enters he, hg]; rfl
  | file he hg => rw [walk_enters he, hg]; rfl
  | link he hf hg => rw [walk_enters he, hg]; simp [hf]
  | down he hg _ ih => rw [walk_enters he, hg]; exact ih
  | jump he hf hg _ ih =>
    rw [walk_enters he, hg]
    simp only [hf, Bool.false_eq_true, if_false]
    exact ih

theorem leads_of_walk (h : t.walk i k l names = .ok x) : Leads t i k l names x := by
  fun_induction walk t i k l names with
  | case1 => cases h; exact .here
  | case2 k l name rest hn ih => exact .idle hn (ih h)
  | case3 k l rest hn ih => exact .up (ih h)
  | case4 => cases h
  | case5 => cases h
  | case6 k l name rest h₁ h₂ h₃ h₄ hg hr =>
    cases h
    cases List.isEmpty_iff.1 hr
    exact .absent (.of_not h₁ h₂ h₃ h₄) hg
  | case7 => cases h
  | case8 k l name rest h₁ h₂ h₃ h₄ hg ih =>
    exact .down (.of_not h₁ h₂ h₃ h₄) hg (ih h)
  | case9 k l name rest h₁ h₂ h₃ h₄ content modified hg hr =>
    cases h
    cases List.isEmpty_iff.1 hr
    exact .file (.of_not h₁ h₂ h₃ h₄) hg
  | case10 => cases h
  | case11 k l name rest h₁ h₂ h₃ h₄ target hg hr =>
    cases h
    simp only [Bool.and_eq_true, Bool.not_eq_true'] at hr
    cases List.isEmpty_iff.1 hr.1
    exact .link (.of_not h₁ h₂ h₃ h₄) hr.2 hg
  | case12 => cases h
  | case13 l name rest h₁ h₂ h₃ h₄ target hg hr k ih =>
    exact .jump (.of_not h₁ h₂ h₃ h₄) (by simpa using hr) hg (ih h)

/-- The rules say what a walk does, no more and no less. -/
theorem walk_eq_ok : t.walk i k l names = .ok x ↔ Leads t i k l names x :=
  ⟨leads_of_walk, Leads.walk_eq⟩

variable {content : ByteArray} {modified : Int}

/-- An end that is no directory is an entry of the tree. -/
theorem Leads.get?_found {n : Node} (h : Leads t i k l names (.found rest n)) : n = .directory ∨ t.get? rest = some n := by
  generalize hx : Landing.found rest n = x at h
  induction h with
  | here => cases hx; exact .inl rfl
  | idle _ _ ih => exact ih hx
  | up _ ih => exact ih hx
  | absent => cases hx
  | file _ hg => cases hx; exact .inr hg
  | link _ _ hg => cases hx; exact .inr hg
  | down _ _ _ ih => exact ih hx
  | jump _ _ _ _ ih => exact ih hx

theorem Leads.get?_absent (h : Leads t i k l names (.absent rest name)) : t.get? (rest ++ [name]) = none := by
  generalize hx : Landing.absent rest name = x at h
  induction h with
  | absent _ hg => cases hx; exact hg
  | here | file | link => cases hx
  | idle _ _ ih => exact ih hx
  | up _ ih => exact ih hx
  | down _ _ _ ih => exact ih hx
  | jump _ _ _ _ ih => exact ih hx

/-- Where a file can be written is not the root. -/
theorem Leads.location_ne_nil (h : Leads t i k l names x) (hw : x.isWritable = true) : x.location ≠ [] := by
  induction h with
  | here | link => cases hw
  | absent | file => exact List.append_ne_nil_of_right_ne_nil _ (List.cons_ne_nil _ _)
  | idle _ _ ih => exact ih hw
  | up _ ih => exact ih hw
  | down _ _ _ ih => exact ih hw
  | jump _ _ _ _ ih => exact ih hw

/-- A way on which a file may be made is a way as well on which none is. -/
theorem Leads.uncreating (h : Leads t i k l names x) : Leads t ⟨i.follow, false⟩ k l names x := by
  have henters {name : String} {rest : List String} (he : Enters i name rest) : Enters ⟨i.follow, false⟩ name rest :=
    ⟨he.proper, he.downward, rfl, he.short⟩
  induction h with
  | here => exact .here
  | idle hn _ ih => exact .idle hn ih
  | up _ ih => exact .up ih
  | absent he hg => exact .absent (henters he) hg
  | file he hg => exact .file (henters he) hg
  | link he hf hg => exact .link (henters he) hf hg
  | down he hg _ ih => exact .down (henters he) hg ih
  | jump he hf hg _ ih => exact .jump (henters he) hf hg ih

/-- A way to a directory is one as well if links at the end are followed. -/
theorem Leads.following (h : Leads t i k l names (.found rest .directory)) :
    Leads t ⟨true, i.create⟩ k l names (.found rest .directory) := by
  have henters {name : String} {rest : List String} (he : Enters i name rest) : Enters ⟨true, i.create⟩ name rest :=
    ⟨he.proper, he.downward, he.unslashed, he.short⟩
  generalize hx : Landing.found rest .directory = x at h ⊢
  induction h with
  | here => exact .here
  | absent | file | link => cases hx
  | idle hn _ ih => exact .idle hn (ih hx)
  | up _ ih => exact .up (ih hx)
  | down he hg _ ih => exact .down (henters he) hg (ih hx)
  | jump he _ hg _ ih => exact .jump (henters he) (by simp) hg (ih hx)

/-- A file in a directory is found by the way to the directory and its name. -/
theorem Leads.child {last : String} {c : Bool} (h : Leads t ⟨true, false⟩ k l names (.found rest .directory))
    (he : Enters ⟨true, c⟩ last []) (hf : t.get? (rest ++ [last]) = some (.file content modified)) :
    Leads t ⟨true, c⟩ k l (names ++ [last]) (.found (rest ++ [last]) (.file content modified)) := by
  -- With a name at the end that is not empty, no way ends in a slash.
  have hlast : last ≠ "" := by
    rintro rfl
    exact absurd he.proper (by decide)
  have henters {name : String} {names : List String} (h : Enters ⟨true, false⟩ name names) :
      Enters ⟨true, c⟩ name (names ++ [last]) :=
    ⟨h.proper, h.downward, by simp [hlast], h.short⟩
  generalize hx : Landing.found rest .directory = x at h
  induction h with
  | here => cases hx; exact .file he hf
  | absent | file | link => cases hx
  | idle hn _ ih => exact .idle hn (ih hx)
  | up _ ih => exact .up (ih hx)
  | down hd hg _ ih => exact .down (henters hd) hg (ih hx)
  | jump hj _ hg _ ih =>
    refine .jump (henters hj) (by simp) hg ?_
    have hih := ih hx
    rwa [List.append_assoc] at hih

/-- All directories and links of one tree are in the other. -/
def Carries (t t' : Tree) : Prop :=
  ∀ l n, t.get? l = some n → (∀ content modified, n ≠ .file content modified) → t'.get? l = some n

/-- A way to a directory or a link is a way to it in every tree that has the same directories and links. -/
theorem Leads.carry_found {n : Node} (hc : Carries t t') (hn : ∀ content modified, n ≠ .file content modified)
    (h : Leads t i k l names (.found rest n)) : Leads t' i k l names (.found rest n) := by
  generalize hx : Landing.found rest n = x at h ⊢
  induction h with
  | here => exact .here
  | absent => cases hx
  | file =>
    cases hx
    exact absurd rfl (hn _ _)
  | link he hf hg => exact .link he hf (hc _ _ hg nofun)
  | idle hn _ ih => exact .idle hn (ih hx)
  | up _ ih => exact .up (ih hx)
  | down he hg _ ih => exact .down he (hc _ _ hg nofun) (ih hx)
  | jump he hf hg _ ih => exact .jump he hf (hc _ _ hg nofun) (ih hx)

/-- So is a way with too many links on it. -/
theorem walk_loop (hc : Carries t t') (h : t.walk i k l names = .error .loop) : t'.walk i k l names = .error .loop := by
  fun_induction walk t i k l names with
  | case1 | case4 | case5 | case6 | case7 | case9 | case10 | case11 => cases h
  | case2 k l name rest hn ih => rw [walk_idle hn, ih h]
  | case3 k l rest hn ih => rw [walk_up, ih h]
  | case8 k l name rest h₁ h₂ h₃ h₄ hg ih => rw [walk_enters (.of_not h₁ h₂ h₃ h₄), hc _ _ hg nofun, ← ih h]
  | case12 l name rest h₁ h₂ h₃ h₄ target hg hr =>
    rw [walk_enters (.of_not h₁ h₂ h₃ h₄), hc _ _ hg nofun]
    simp [hr]
  | case13 l name rest h₁ h₂ h₃ h₄ target hg hr k ih =>
    rw [walk_enters (.of_not h₁ h₂ h₃ h₄), hc _ _ hg nofun]
    simpa [hr] using ih h

/-- A link to itself is not followed to an end, however many links may be followed. -/
theorem walk_circular (he : Enters i name []) (hg : t.get? (l ++ [name]) = some (.link name)) (hf : i.follow = true)
    (hc : components name = [name]) (hr : isRootedText name = false) : t.walk i k l [name] = .error .loop := by
  induction k with
  | zero =>
    rw [walk_enters he, hg]
    simp [hf]
  | succ k ih =>
    rw [walk_enters he, hg]
    simpa [hf, hc, hr] using ih

/-- A way that ends at a missing name leads to the directory that is made there. -/
theorem Leads.carry_made (hc : Carries t t') (h : Leads t i k l names (.absent rest name))
    (hd : t'.get? (rest ++ [name]) = some .directory) : Leads t' i k l names (.found (rest ++ [name]) .directory) := by
  generalize hx : Landing.absent rest name = x at h
  induction h with
  | here | file | link => cases hx
  | absent he => cases hx; exact .down he hd .here
  | idle hn _ ih => exact .idle hn (ih hx)
  | up _ ih => exact .up (ih hx)
  | down he hg _ ih => exact .down he (hc _ _ hg nofun) (ih hx)
  | jump he hf hg _ ih => exact .jump he hf (hc _ _ hg nofun) (ih hx)

/-- A way on which a file could be written leads to the file once it is there. -/
theorem Leads.carry_file (hc : Carries t t') (h : Leads t i k l names x) (hw : x.isWritable = true)
    (hf : t'.get? x.location = some (.file content modified)) :
    Leads t' i k l names (.found x.location (.file content modified)) := by
  induction h with
  | here | link => cases hw
  | absent he => exact .file he hf
  | file he => exact .file he hf
  | idle hn _ ih => exact .idle hn (ih hw hf)
  | up _ ih => exact .up (ih hw hf)
  | down he hg _ ih => exact .down he (hc _ _ hg nofun) (ih hw hf)
  | jump he hl hg _ ih => exact .jump he hl (hc _ _ hg nofun) (ih hw hf)

end Tree

end Hotload.Files
