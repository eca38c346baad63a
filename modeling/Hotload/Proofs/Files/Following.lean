import Hotload.Proofs.Files.Place

/-!
Names followed one after another, each link replaced by what it leads to. Unlike a walk this goes on through a file as if it
were a directory, and it follows any number of links. Where a walk comes to an entry this comes to the same one, and what
is missing for a walk is missing here too.
-/
namespace Hotload.Files

/-- A name that is looked up, whatever there is. -/
def IsDownward (name : String) : Prop :=
  Path.isIdle name = false ∧ name ≠ ".."

theorem IsDownward.of_not {name : String} (hi : ¬Path.isIdle name = true) (hu : ¬name = "..") : IsDownward name :=
  ⟨Bool.eq_false_iff.2 hi, hu⟩

theorem IsDownward.not_idle {name : String} (h : IsDownward name) : ¬Path.isIdle name = true :=
  Bool.eq_false_iff.1 h.1

theorem not_isDownward_up : ¬IsDownward ".." := fun h => h.2 rfl

theorem IsName.isDownward {name : String} (h : IsName name) : IsDownward name :=
  ⟨h.proper, h.downward⟩

theorem name_cases (name : String) : Path.isIdle name = true ∨ name = ".." ∨ IsDownward name := by
  cases hi : Path.isIdle name with
  | true => exact .inl rfl
  | false =>
    by_cases hu : name = ".."
    · exact .inr (.inl hu)
    · exact .inr (.inr ⟨hi, hu⟩)

/-- Where a link goes on from. -/
def linkStart (l : Location) (target : String) : Location :=
  if isRootedText target then [] else l

/-- The entry that a walk comes to. -/
def Landing.entry? : Landing → Option Location
  | .found m _ => some m
  | .absent _ _ => none

namespace Tree

/-- What a file tree is like: all names are such as a file can have, entries are in directories, and links have no NUL. -/
structure Proper (t : Tree) : Prop where
  named : ∀ l n, t.get? l = some n → ∀ name ∈ l, IsName name
  within : ∀ l name n, t.get? (l ++ [name]) = some n → t.get? l = some .directory
  linked : ∀ l target, t.get? l = some (.link target) → target.toList.contains (Char.ofNat 0) = false

theorem Proper.isName {t : Tree} (ht : t.Proper) {l : Location} {name : String} {n : Node} (h : t.get? (l ++ [name]) = some n) :
    IsName name :=
  ht.named _ _ h name (by simp)

/-- There is nothing under a name that is too long. -/
theorem Proper.missing {t : Tree} (ht : t.Proper) {l : Location} {name : String} (h : nameLimit < name.utf8ByteSize) :
    t.get? (l ++ [name]) = none := by
  cases hg : t.get? (l ++ [name]) with
  | none => rfl
  | some n => exact absurd (ht.isName hg).short (Nat.not_le.2 h)

theorem proper_of_entries {t : Tree} (hn : ∀ e ∈ t.entries, ∀ name ∈ e.1, IsName name)
    (hw : ∀ e ∈ t.entries, t.get? e.1.dropLast = some .directory)
    (hl : ∀ e ∈ t.entries, ∀ target, e.2 = .link target → target.toList.contains (Char.ofNat 0) = false) : t.Proper := by
  have hentry {l : Location} {n : Node} (hg : t.get? l = some n) : l = [] ∧ n = .directory ∨ (l, n) ∈ t.entries := by
    unfold get? at hg
    split at hg
    · rename_i hroot
      cases hg
      exact .inl ⟨List.isEmpty_iff.1 hroot, rfl⟩
    · exact .inr (mem_of_valueAt? hg)
  refine ⟨fun l n hg => ?_, fun l name n hg => ?_, fun l target hg => ?_⟩
  · obtain ⟨rfl, -⟩ | he := hentry hg
    · simp
    · exact hn _ he
  · obtain ⟨hroot, -⟩ | he := hentry hg
    · simp at hroot
    · simpa using hw _ he
  · obtain ⟨-, hlink⟩ | he := hentry hg
    · cases hlink
    · exact hl _ he target rfl

/-- With so many links on the way, names lead from a location to another one, or to a name that is missing. -/
inductive Follows (t : Tree) : Nat → Location → List String → Option Location → Prop where
  | here {l : Location} : Follows t 0 l [] (some l)
  | idle {c : Nat} {l : Location} {name : String} {rest : List String} {o : Option Location} :
      Path.isIdle name = true → Follows t c l rest o → Follows t c l (name :: rest) o
  | up {c : Nat} {l : Location} {rest : List String} {o : Option Location} :
      Follows t c l.dropLast rest o → Follows t c l (".." :: rest) o
  | missing {l : Location} {name : String} {rest : List String} :
      IsDownward name → t.get? (l ++ [name]) = none → Follows t 0 l (name :: rest) none
  | down {c : Nat} {l : Location} {name : String} {rest : List String} {n : Node} {o : Option Location} :
      IsDownward name → t.get? (l ++ [name]) = some n → (∀ target, n ≠ .link target) →
      Follows t c (l ++ [name]) rest o → Follows t c l (name :: rest) o
  | astray {c : Nat} {l : Location} {name target : String} {rest : List String} :
      IsDownward name → t.get? (l ++ [name]) = some (.link target) →
      Follows t c (linkStart l target) (components target) none → Follows t (c + 1) l (name :: rest) none
  | through {c₁ c₂ : Nat} {l m : Location} {name target : String} {rest : List String} {o : Option Location} :
      IsDownward name → t.get? (l ++ [name]) = some (.link target) →
      Follows t c₁ (linkStart l target) (components target) (some m) → Follows t c₂ m rest o →
      Follows t (c₁ + c₂ + 1) l (name :: rest) o

variable {t : Tree} {c c' k : Nat} {l m : Location} {name target : String} {names first second rest : List String}
  {o o' : Option Location} {n : Node}

theorem Follows.of_idle (hi : Path.isIdle name = true) (h : Follows t c l (name :: rest) o) : Follows t c l rest o := by
  cases h with
  | idle _ h => exact h
  | up => cases hi
  | missing hd | down hd | astray hd | through hd => cases hi.symm.trans hd.1

theorem Follows.of_up (h : Follows t c l (".." :: rest) o) : Follows t c l.dropLast rest o := by
  cases h with
  | idle hi => cases hi
  | up h => exact h
  | missing hd | down hd | astray hd | through hd => exact absurd hd not_isDownward_up

theorem Follows.of_missing (hd : IsDownward name) (hg : t.get? (l ++ [name]) = none) (h : Follows t c l (name :: rest) o) :
    c = 0 ∧ o = none := by
  cases h with
  | idle hi => cases hi.symm.trans hd.1
  | up => exact absurd hd not_isDownward_up
  | missing => exact ⟨rfl, rfl⟩
  | down _ hg' | astray _ hg' | through _ hg' => cases hg.symm.trans hg'

theorem Follows.of_down (hd : IsDownward name) (hg : t.get? (l ++ [name]) = some n) (hn : ∀ target, n ≠ .link target)
    (h : Follows t c l (name :: rest) o) : Follows t c (l ++ [name]) rest o := by
  cases h with
  | idle hi => cases hi.symm.trans hd.1
  | up => exact absurd hd not_isDownward_up
  | missing _ hg' => cases hg.symm.trans hg'
  | down _ _ _ h => exact h
  | astray _ hg' | through _ hg' =>
    cases hg.symm.trans hg'
    exact absurd rfl (hn _)

theorem Follows.of_link (hd : IsDownward name) (hg : t.get? (l ++ [name]) = some (.link target))
    (h : Follows t c l (name :: rest) o) :
    (∃ c₁, c = c₁ + 1 ∧ o = none ∧ Follows t c₁ (linkStart l target) (components target) none) ∨
      ∃ c₁ c₂ m, c = c₁ + c₂ + 1 ∧ Follows t c₁ (linkStart l target) (components target) (some m) ∧
        Follows t c₂ m rest o := by
  cases h with
  | idle hi => cases hi.symm.trans hd.1
  | up => exact absurd hd not_isDownward_up
  | missing _ hg' => cases hg.symm.trans hg'
  | down _ hg' hn =>
    cases hg.symm.trans hg'
    exact absurd rfl (hn _)
  | astray _ hg' h =>
    cases hg.symm.trans hg'
    exact .inl ⟨_, rfl, rfl, h⟩
  | through _ hg' h h' =>
    cases hg.symm.trans hg'
    exact .inr ⟨_, _, _, rfl, h, h'⟩

/-- Names lead to one location, by one number of links. -/
theorem Follows.unique (h : Follows t c l names o) (h' : Follows t c' l names o') : c = c' ∧ o = o' := by
  induction h generalizing c' o' with
  | here =>
    cases h'
    exact ⟨rfl, rfl⟩
  | idle hi _ ih => exact ih (h'.of_idle hi)
  | up _ ih => exact ih h'.of_up
  | missing hd hg =>
    obtain ⟨rfl, rfl⟩ := h'.of_missing hd hg
    exact ⟨rfl, rfl⟩
  | down hd hg hn _ ih => exact ih (h'.of_down hd hg hn)
  | astray hd hg _ ih =>
    obtain ⟨c₁, rfl, rfl, h₁⟩ | ⟨c₁, c₂, m, rfl, h₁, -⟩ := h'.of_link hd hg
    · obtain ⟨rfl, -⟩ := ih h₁
      exact ⟨rfl, rfl⟩
    · cases (ih h₁).2
  | through hd hg _ _ ih₁ ih₂ =>
    obtain ⟨c₁, rfl, rfl, h₁⟩ | ⟨c₁, c₂, m, rfl, h₁, h₂⟩ := h'.of_link hd hg
    · cases (ih₁ h₁).2
    · obtain ⟨rfl, hm⟩ := ih₁ h₁
      cases hm
      obtain ⟨rfl, rfl⟩ := ih₂ h₂
      exact ⟨rfl, rfl⟩

/-- Names are followed up to one that is missing, or to a location from which the names after them are followed. -/
theorem Follows.split (h : Follows t c l (first ++ second) o) :
    (∃ c₁ c₂ m, c = c₁ + c₂ ∧ Follows t c₁ l first (some m) ∧ Follows t c₂ m second o) ∨
      Follows t c l first none ∧ o = none := by
  induction first generalizing c l with
  | nil => exact .inl ⟨0, c, l, (Nat.zero_add c).symm, .here, h⟩
  | cons name first ih =>
    obtain hi | rfl | hd := name_cases name
    · obtain ⟨c₁, c₂, m, hc, h₁, h₂⟩ | ⟨hnone, ho⟩ := ih (h.of_idle hi)
      · exact .inl ⟨c₁, c₂, m, hc, .idle hi h₁, h₂⟩
      · exact .inr ⟨.idle hi hnone, ho⟩
    · obtain ⟨c₁, c₂, m, hc, h₁, h₂⟩ | ⟨hnone, ho⟩ := ih h.of_up
      · exact .inl ⟨c₁, c₂, m, hc, .up h₁, h₂⟩
      · exact .inr ⟨.up hnone, ho⟩
    · cases hg : t.get? (l ++ [name]) with
      | none =>
        obtain ⟨rfl, rfl⟩ := Follows.of_missing hd hg h
        exact .inr ⟨.missing hd hg, rfl⟩
      | some n =>
        by_cases hn : ∃ target, n = .link target
        · obtain ⟨target, rfl⟩ := hn
          obtain ⟨c₁, rfl, rfl, h₁⟩ | ⟨c₁, c₂, m, rfl, h₁, h₂⟩ := Follows.of_link hd hg h
          · exact .inr ⟨.astray hd hg h₁, rfl⟩
          · obtain ⟨c₃, c₄, m', rfl, h₃, h₄⟩ | ⟨hnone, rfl⟩ := ih h₂
            · exact .inl ⟨c₁ + c₃ + 1, c₄, m', by omega, .through hd hg h₁ h₃, h₄⟩
            · exact .inr ⟨.through hd hg h₁ hnone, rfl⟩
        · have hn' (target : String) : n ≠ .link target := fun hlink => hn ⟨target, hlink⟩
          obtain ⟨c₁, c₂, m, hc, h₁, h₂⟩ | ⟨hnone, ho⟩ := ih (Follows.of_down hd hg hn' h)
          · exact .inl ⟨c₁, c₂, m, hc, .down hd hg hn' h₁, h₂⟩
          · exact .inr ⟨.down hd hg hn' hnone, ho⟩

/-- A link is followed by following what it says and then the names after it. -/
theorem Follows.link (hd : IsDownward name) (hg : t.get? (l ++ [name]) = some (.link target))
    (h : Follows t c (linkStart l target) (components target ++ rest) o) : Follows t (c + 1) l (name :: rest) o := by
  obtain ⟨c₁, c₂, m, rfl, h₁, h₂⟩ | ⟨hnone, rfl⟩ := h.split
  · exact .through hd hg h₁ h₂
  · exact .astray hd hg hnone

theorem Enters.isDownward {i : Intent} (h : Enters i name rest) : IsDownward name :=
  ⟨h.proper, h.downward⟩

/-- Where a walk comes to, names lead as well, and the links are among those that a walk may follow. -/
theorem Leads.follows {x : Landing} (h : Leads t ⟨true, false⟩ k l names x) :
    ∃ c ≤ k, Follows t c l names x.entry? := by
  induction h with
  | here => exact ⟨0, Nat.zero_le _, .here⟩
  | idle hi _ ih =>
    obtain ⟨c, hc, h⟩ := ih
    exact ⟨c, hc, .idle hi h⟩
  | up _ ih =>
    obtain ⟨c, hc, h⟩ := ih
    exact ⟨c, hc, .up h⟩
  | absent he hg => exact ⟨0, Nat.zero_le _, .missing he.isDownward hg⟩
  | file he hg => exact ⟨0, Nat.zero_le _, .down he.isDownward hg (Node.file_ne_link _ _) .here⟩
  | link _ hf => cases hf
  | down he hg _ ih =>
    obtain ⟨c, hc, h⟩ := ih
    exact ⟨c, hc, .down he.isDownward hg Node.directory_ne_link h⟩
  | jump he _ hg _ ih =>
    obtain ⟨c, hc, h⟩ := ih
    exact ⟨c + 1, Nat.succ_le_succ hc, .link he.isDownward hg h⟩

/-- A walk that fails as a name is missing, or cannot be one, comes to a name that is missing. -/
theorem follows_of_noEntry (ht : t.Proper) {e : Errno} (he : e = .noEntry ∨ e = .nameTooLong)
    (h : t.walk ⟨true, false⟩ k l names = .error e) : ∃ c ≤ k, Follows t c l names none := by
  fun_induction walk t ⟨true, false⟩ k l names with
  | case1 | case6 | case9 | case11 => cases h
  | case2 k l name rest hi ih =>
    obtain ⟨c, hc, hf⟩ := ih h
    exact ⟨c, hc, .idle hi hf⟩
  | case3 k l rest hn ih =>
    obtain ⟨c, hc, hf⟩ := ih h
    exact ⟨c, hc, .up hf⟩
  | case4 => contradiction
  | case5 k l name rest hi hu hs hlong => exact ⟨0, Nat.zero_le _, .missing (.of_not hi hu) (ht.missing hlong)⟩
  | case7 k l name rest hi hu hs hshort hg hr => exact ⟨0, Nat.zero_le _, .missing (.of_not hi hu) hg⟩
  | case8 k l name rest hi hu hs hshort hg ih =>
    obtain ⟨c, hc, hf⟩ := ih h
    exact ⟨c, hc, .down (.of_not hi hu) hg Node.directory_ne_link hf⟩
  | case10 | case12 =>
    cases h
    cases he <;> contradiction
  | case13 l name rest hi hu hs hshort target hg hr k ih =>
    obtain ⟨c, hc, hf⟩ := ih h
    exact ⟨c + 1, Nat.succ_le_succ hc, .link (.of_not hi hu) hg hf⟩

end Tree

/-- So is a path that the system refuses for that, but not for its own length. -/
theorem Disk.follows_of_missing {d : Disk} {p : Path} {e : Errno} (ht : d.tree.Proper)
    (he : e = .noEntry ∨ e = .nameTooLong ∧ p.byteSize < pathLimit)
    (h : d.look ⟨true, false⟩ p = .error (.system e p.toString)) :
    p.hasNul = false ∧ ∃ c ≤ linkLimit, d.tree.Follows c (d.start p) p.parts none := by
  unfold look at h
  split at h
  · cases h
  · rename_i hn
    split at h
    · rename_i hb
      cases h
      obtain he | ⟨-, hshort⟩ := he
      · cases he
      · exact absurd hshort (Nat.not_lt.2 hb)
    · split at h
      · cases h
      · rename_i hwalk
        cases h
        exact ⟨Bool.eq_false_iff.2 hn, Tree.follows_of_noEntry ht (he.imp_right And.left) hwalk⟩

end Hotload.Files
