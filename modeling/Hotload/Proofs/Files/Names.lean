import Hotload.Proofs.Files.Write
import Mathlib.Algebra.GroupWithZero.Nat

/-!
Names of files, and how long a path is as a text. The text of a path grows with each name, so if it is not too long, that
of no path above it is either. Whether there is something at a path can be asked of every path that is not too long.
-/
namespace Hotload.Files

/-- A name that a file can have. -/
structure IsName (name : String) : Prop where
  proper : Path.isIdle name = false
  downward : name ≠ ".."
  unslashed : '/' ∉ name.toList
  noNul : name.toList.contains (Char.ofNat 0) = false
  short : name.utf8ByteSize ≤ nameLimit

theorem IsName.enters {name : String} (h : IsName name) {i : Intent} (hi : i.create = false) (rest : List String) :
    Tree.Enters i name rest :=
  ⟨h.proper, h.downward, by simp [hi], h.short⟩

/-- A text that is one letter many times over. -/
theorem utf8ByteSize_replicate (n : Nat) (c : Char) : (String.ofList (List.replicate n c)).utf8ByteSize = n * c.utf8Size := by
  induction n with
  | zero => simp
  | succ n ih =>
    have hcons : String.ofList (List.replicate (n + 1) c) = String.singleton c ++ String.ofList (List.replicate n c) :=
      String.ofList_cons
    rw [hcons, String.utf8ByteSize_append, String.utf8ByteSize_singleton, ih, Nat.succ_mul, Nat.add_comm]

namespace Path

variable {a : Anchor} {p : Path} {parts above : List String} {name : String}

/-- The bytes of some names with a slash for each. -/
def span (parts : List String) : Nat :=
  (parts.map fun part => part.utf8ByteSize + 1).sum

@[simp] theorem span_append (parts parts' : List String) : span (parts ++ parts') = span parts + span parts' := by
  simp [span]

@[simp] theorem span_singleton (name : String) : span [name] = name.utf8ByteSize + 1 := by
  simp [span]

theorem span_replicate (n : Nat) (name : String) : span (List.replicate n name) = n * (name.utf8ByteSize + 1) := by
  simp [span]

theorem utf8ByteSize_intercalate (h : parts ≠ []) : ("/".intercalate parts).utf8ByteSize + 1 = span parts := by
  induction parts with
  | nil => exact absurd rfl h
  | cons part parts ih =>
    cases parts with
    | nil => simp
    | cons next parts =>
      have hslash : "/".utf8ByteSize = 1 := rfl
      have hrest := ih (List.cons_ne_nil _ _)
      rw [String.intercalate_cons_cons, String.utf8ByteSize_append, String.utf8ByteSize_append, hslash]
      simp only [span, List.map_cons, List.sum_cons] at hrest ⊢
      omega

theorem byteSize_eq (h : parts ≠ []) : (⟨a, parts⟩ : Path).byteSize + 1 = a.text.utf8ByteSize + span parts := by
  have hparts := utf8ByteSize_intercalate h
  have htext : (⟨a, parts⟩ : Path).toString = a.text ++ "/".intercalate parts := by simp [toString, h]
  rw [byteSize, htext, String.utf8ByteSize_append]
  omega

/-- A file in a directory has a longer path than one of that name above it. -/
theorem byteSize_above (h : above <+: parts) (name : String) :
    (⟨a, above ++ [name]⟩ : Path).byteSize ≤ (⟨a, parts ++ [name]⟩ : Path).byteSize := by
  obtain ⟨below, rfl⟩ := h
  have hshort : (⟨a, above ++ [name]⟩ : Path).byteSize + 1 = _ := byteSize_eq (by simp)
  have hlong : (⟨a, above ++ below ++ [name]⟩ : Path).byteSize + 1 = _ := byteSize_eq (by simp)
  simp only [span_append, span_singleton] at hshort hlong
  omega

/-- If a path is not too long, then none above it is. -/
theorem byteSize_lt_of_above (h : above <+: parts) (hb : (⟨a, parts⟩ : Path).byteSize < pathLimit) :
    (⟨a, above⟩ : Path).byteSize < pathLimit := by
  obtain ⟨below, rfl⟩ := h
  by_cases ha : above = []
  · rw [ha]
    cases a <;> decide
  · have hshort : (⟨a, above⟩ : Path).byteSize + 1 = _ := byteSize_eq ha
    have hlong : (⟨a, above ++ below⟩ : Path).byteSize + 1 = _ := byteSize_eq (by simp [ha])
    rw [span_append] at hlong
    omega

theorem hasNul_of_append {parts' : List String} (h : (⟨a, parts ++ parts'⟩ : Path).hasNul = false) :
    (⟨a, parts⟩ : Path).hasNul = false := by
  simp only [hasNul, List.any_append, Bool.or_eq_false_iff] at h ⊢
  exact h.1

end Path

/-- Looking for what is there fails in four ways. -/
theorem Tree.walk_error {t : Tree} {i : Intent} {k : Nat} {l : Location} {names : List String} {e : Errno}
    (hi : i.create = false) (h : t.walk i k l names = .error e) :
    e = .noEntry ∨ e = .notDirectory ∨ e = .loop ∨ e = .nameTooLong := by
  fun_induction Tree.walk t i k l names with
  | case1 => cases h
  | case2 k l name rest hn ih => exact ih h
  | case3 k l rest hn ih => exact ih h
  | case4 k l name rest h₁ h₂ h₃ => simp [hi] at h₃
  | case5 => cases h; simp
  | case6 => cases h
  | case7 => cases h; simp
  | case8 k l name rest h₁ h₂ h₃ h₄ hg ih => exact ih h
  | case9 => cases h
  | case10 => cases h; simp
  | case11 => cases h
  | case12 => cases h; simp
  | case13 l name rest h₁ h₂ h₃ h₄ target hg hr k ih => exact ih h

namespace Disk

variable {d : Disk} {p : Path} {f : Failure}

/-- The system refuses to follow a path, as that or a name on the way is too long. -/
def Oversized (d : Disk) (p : Path) : Prop :=
  d.look ⟨true, false⟩ p = .error (.system .nameTooLong p.toString)

theorem look_error {i : Intent} (hi : i.create = false) (h : d.look i p = .error f) :
    f = .nulByte ∨ ∃ e, (e = .noEntry ∨ e = .notDirectory ∨ e = .loop ∨ e = .nameTooLong) ∧ f = .system e p.toString := by
  unfold look at h
  split at h
  · cases h
    exact .inl rfl
  · split at h
    · cases h
      exact .inr ⟨.nameTooLong, by simp, rfl⟩
    · split at h
      · cases h
      · rename_i e hw
        cases h
        exact .inr ⟨e, Tree.walk_error hi hw, rfl⟩

/-- What is at a path can be asked unless that is too long. -/
theorem node?_error_iff : d.node? p = .error f ↔ d.Oversized p ∧ f = .system .nameTooLong p.toString := by
  constructor
  · intro h
    unfold node? at h
    split at h
    · cases h
    · cases h
    · rename_i g hl
      split at h
      · cases h
      · rename_i hg
        cases h
        obtain rfl | ⟨e, rfl | rfl | rfl | rfl, rfl⟩ := look_error rfl hl
        · exact absurd rfl hg
        · exact absurd rfl hg
        · exact absurd rfl hg
        · exact absurd rfl hg
        · exact ⟨hl, rfl⟩
  · rintro ⟨hl, rfl⟩
    rw [node?, hl]
    rfl

/-- A name that is too long is refused wherever it is looked for. -/
theorem oversized_of_name {n : Nat} (hn : nameLimit < n) (hp : n + 2 < pathLimit) (d : Disk) (a : Anchor) :
    d.Oversized ⟨a, [String.ofList (List.replicate n 'm')]⟩ := by
  have hsize : (String.ofList (List.replicate n 'm')).utf8ByteSize = n := by
    rw [utf8ByteSize_replicate, show 'm'.utf8Size = 1 from rfl, Nat.mul_one]
  have hne (s : String) (hs : s.utf8ByteSize ≤ nameLimit) : String.ofList (List.replicate n 'm') ≠ s := by
    rintro rfl
    omega
  have hanchor : a.text.utf8ByteSize ≤ 2 := by cases a <;> decide
  have hbytes := Path.byteSize_eq (a := a) (List.cons_ne_nil (String.ofList (List.replicate n 'm')) [])
  rw [Path.span_singleton, hsize] at hbytes
  refine look_of_walk_error ?_ (by omega) (Tree.walk_long ?_ (hne _ (by decide)) rfl (by rwa [hsize]))
  · simp [Path.hasNul]
  · simp [Path.isIdle, hne "" (by decide), hne "." (by decide)]

theorem isFile_error_iff : d.isFile p = .error f ↔ d.Oversized p ∧ f = .system .nameTooLong p.toString := by
  rw [← node?_error_iff, isFile]
  cases d.node? p <;> simp [Except.map]

theorem fileExists_error_iff : d.fileExists p = .error f ↔ d.Oversized p ∧ f = .system .nameTooLong p.toString := by
  rw [← node?_error_iff, fileExists]
  cases d.node? p <;> simp [Except.map]

end Disk

end Hotload.Files
