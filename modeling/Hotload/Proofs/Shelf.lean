import Hotload.Session

/-!
What loading, calling and closing do to the libraries on a shelf. A load puts one open library at the end or leaves all
as they are, and from then on only closing it is seen: its definitions stay the same for good.
-/
namespace Hotload

/-- Replacing one element changes a count by that element and the new one. -/
theorem countP_set_add {α : Type} (p : α → Bool) {xs : List α} {t : Nat} {x : α} (h : xs[t]? = some x) (y : α) :
    (xs.set t y).countP p + (p x).toNat = xs.countP p + (p y).toNat := by
  obtain ⟨ht, rfl⟩ := List.getElem?_eq_some_iff.1 h
  have hle := List.boole_getElem_le_countP (p := p) ht
  rw [List.countP_set ht]
  generalize xs[t] = x at *
  cases hx : p x <;> cases hy : p y <;>
    simp only [hx, reduceIte, Bool.false_eq_true, Bool.toNat_true, Bool.toNat_false] at hle ⊢ <;> omega

namespace Shelf

def size (s : Shelf) : Nat :=
  s.libraries.length

/-- How often a library was closed. -/
def closes (s : Shelf) (id : LibraryId) : Nat :=
  ((s.get? id).map (·.closes)).getD 0

/-- A library came to the shelf after some others. -/
def Since (s₀ s : Shelf) (id : Nat) : Prop :=
  s₀.size ≤ id ∧ id < s.size

/-- One more library, which is open, or none. -/
def AddedTo (s : Shelf) (r : Outcome LibraryId) (s' : Shelf) : Prop :=
  match r with
  | .ok id => id = s.size ∧ ∃ l : Library, l.closes = 0 ∧ s'.libraries = s.libraries ++ [l]
  | .error _ => s'.libraries = s.libraries

/-- No library is lost or opened again, and each one exports what it did. -/
structure Keeps (s s' : Shelf) : Prop where
  size_le : s.size ≤ s'.size
  closes_le : ∀ id, s.closes id ≤ s'.closes id
  definition : ∀ id < s.size, ∀ name, s'.definition? id name = s.definition? id name

variable {s s' : Shelf} {id k : LibraryId}

theorem Keeps.refl (s : Shelf) : s.Keeps s := ⟨Nat.le_refl _, fun _ => Nat.le_refl _, fun _ _ _ => rfl⟩

theorem Keeps.trans {s'' : Shelf} (h : s.Keeps s') (h' : s'.Keeps s'') : s.Keeps s'' where
  size_le := Nat.le_trans h.size_le h'.size_le
  closes_le id := Nat.le_trans (h.closes_le id) (h'.closes_le id)
  definition id hi name := by
    rw [h'.definition id (Nat.lt_of_lt_of_le hi h.size_le), h.definition id hi]

/-- Everything that is asked of a shelf depends on the list of its libraries. -/
theorem closes_congr (h : s'.libraries = s.libraries) (id : LibraryId) : s'.closes id = s.closes id := by
  simp only [closes, get?, h]

theorem size_congr (h : s'.libraries = s.libraries) : s'.size = s.size := by
  simp only [size, h]

theorem keeps_of_libraries (h : s'.libraries = s.libraries) : s.Keeps s' where
  size_le := Nat.le_of_eq (size_congr h).symm
  closes_le id := Nat.le_of_eq (closes_congr h id).symm
  definition _ _ _ := by simp only [definition?, get?, h]

theorem closes_of_size_le (h : s.size ≤ id) : s.closes id = 0 := by
  simp [closes, get?, List.getElem?_eq_none h]

theorem libraries_removeCopy (s : Shelf) (copy : Option Nat) : (s.removeCopy copy).libraries = s.libraries := by
  cases copy <;> rfl

theorem libraries_close (s : Shelf) (id : LibraryId) : (s.close id).libraries = s.libraries.modify id Library.close :=
  libraries_removeCopy _ _

@[simp] theorem size_close (s : Shelf) (id : LibraryId) : (s.close id).size = s.size := by
  simp [size, libraries_close]

/-- Closing a library counts once, and for no other library. -/
theorem closes_close (h : id < s.size) (k : LibraryId) :
    (s.close id).closes k = s.closes k + if id = k then 1 else 0 := by
  by_cases hk : id = k
  · subst hk
    have hl := List.getElem?_eq_getElem (l := s.libraries) h
    simp [closes, get?, libraries_close, hl, Library.close]
  · simp [closes, get?, libraries_close, hk]

theorem keeps_close (s : Shelf) (id : LibraryId) : s.Keeps (s.close id) where
  size_le := by simp
  closes_le k := by
    by_cases h : id < s.size
    · rw [closes_close h]
      exact Nat.le_add_right _ _
    · have hk : (s.close id).libraries = s.libraries := by
        rw [libraries_close]
        exact List.modify_eq_self (Nat.le_of_not_lt h)
      exact Nat.le_of_eq (closes_congr hk k).symm
  definition k _ name := by
    simp only [definition?, get?, libraries_close, List.getElem?_modify]
    cases s.libraries[k]? with
    | none => rfl
    | some l => by_cases hk : id = k <;> simp [hk, Library.close, Library.definition?]

/-- A call is noted by the library at most. -/
theorem call_eq (l : Library) (d : Definition) (as : Option NativeType) :
    (l.call d as).2 = l ∨ ∃ c, (l.call d as).2 = l.note c := by
  unfold Library.call
  dsimp only
  split
  · split <;> exact .inr ⟨_, rfl⟩
  · split
    · split
      · exact .inr ⟨_, rfl⟩
      · exact .inl rfl
      · exact .inl rfl
    · exact .inl rfl

theorem call_closes (l : Library) (d : Definition) (as : Option NativeType) : (l.call d as).2.closes = l.closes := by
  obtain h | ⟨c, h⟩ := call_eq l d as <;> rw [h]
  rfl

theorem call_definition? (l : Library) (d : Definition) (as : Option NativeType) (name : String) :
    (l.call d as).2.definition? name = l.definition? name := by
  obtain h | ⟨c, h⟩ := call_eq l d as <;> rw [h]
  rfl

namespace AddedTo

theorem size_eq (h : s.AddedTo (.ok id) s') : id = s.size ∧ s'.size = s.size + 1 := by
  obtain ⟨hid, l, -, hl⟩ := h
  exact ⟨hid, by simp [size, hl]⟩

/-- The library that is added is open, and the others are what they were. -/
theorem closes_eq (h : s.AddedTo (.ok id) s') (k : LibraryId) : s'.closes k = s.closes k := by
  have hsize := h.size_eq.2
  obtain ⟨-, l, hl, hs⟩ := h
  obtain hk | hk | hk := Nat.lt_trichotomy k s.size
  · have hk' : k < s.libraries.length := hk
    simp only [closes, get?, hs, List.getElem?_append_left hk']
  · subst hk
    rw [closes_of_size_le (Nat.le_refl _)]
    simp [closes, get?, hs, size, hl]
  · rw [closes_of_size_le (Nat.le_of_lt hk), closes_of_size_le (hsize ▸ hk)]

theorem keeps {r : Outcome LibraryId} (h : s.AddedTo r s') : s.Keeps s' := by
  cases r with
  | error f => exact keeps_of_libraries h
  | ok id =>
    refine ⟨h.size_eq.2 ▸ Nat.le_succ _, fun k => Nat.le_of_eq (h.closes_eq k).symm, fun id hid name => ?_⟩
    obtain ⟨-, l, -, hl⟩ := h
    have hi : id < s.libraries.length := hid
    simp [definition?, get?, hl, List.getElem?_append_left hi]

end AddedTo

variable (s) (id) (d : Definition) (as : Option NativeType)

theorem libraries_call : (s.call id d as).2.libraries = s.libraries.modify id fun l => (l.call d as).2 := by
  unfold call
  cases h : s.get? id with
  | none => exact (List.modify_eq_self (List.getElem?_eq_none_iff.1 h)).symm
  | some l =>
    apply List.ext_getElem?
    intro k
    simp only [modify, List.getElem?_modify]
    by_cases hk : id = k
    · subst hk
      simp only [get?] at h
      simp [h]
    · simp [hk]

variable {s id} in
theorem libraries_call_of_get? {l : Library} (h : s.get? id = some l) :
    (s.call id d as).2.libraries = s.libraries.set id (l.call d as).2 := by
  rw [libraries_call]
  apply List.ext_getElem?
  intro k
  rw [List.getElem?_modify, List.getElem?_set]
  by_cases hk : id = k
  · subst hk
    obtain ⟨hi, hl⟩ := List.getElem?_eq_some_iff.1 h
    simp [hi, hl]
  · simp [hk]

@[simp] theorem size_call : (s.call id d as).2.size = s.size := by
  simp [size, libraries_call]

@[simp] theorem closes_call (k : LibraryId) : (s.call id d as).2.closes k = s.closes k := by
  simp only [closes, get?, libraries_call, List.getElem?_modify]
  cases s.libraries[k]? with
  | none => rfl
  | some l => by_cases hk : id = k <;> simp [hk, call_closes]

theorem keeps_call : s.Keeps (s.call id d as).2 where
  size_le := by simp
  closes_le k := by simp
  definition k _ name := by
    simp only [definition?, get?, libraries_call, List.getElem?_modify]
    cases s.libraries[k]? with
    | none => rfl
    | some l => by_cases hk : id = k <;> simp [hk, call_definition?]

end Shelf

end Hotload
