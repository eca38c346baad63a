/-!
Ordered entries: a list of keys with values in which setting a known key keeps its place and a new key comes last.
-/
namespace Hotload

variable {κ α : Type} [DecidableEq κ]

def setEntry (key : κ) (value : α) : List (κ × α) → List (κ × α)
  | [] => [(key, value)]
  | (k, v) :: es => if k = key then (k, value) :: es else (k, v) :: setEntry key value es

def valueAt? (key : κ) : List (κ × α) → Option α
  | [] => none
  | (k, v) :: es => if k = key then some v else valueAt? key es

def hasEntry (key : κ) (es : List (κ × α)) : Bool :=
  (valueAt? key es).isSome

/-- Sets the entries of a second list one after another. -/
def setEntries (es fs : List (κ × α)) : List (κ × α) :=
  fs.foldl (fun es f => setEntry f.1 f.2 es) es

theorem mem_of_valueAt? {key : κ} {value : α} {es : List (κ × α)} (h : valueAt? key es = some value) : (key, value) ∈ es := by
  induction es with
  | nil => cases h
  | cons e es ih =>
    obtain ⟨k, v⟩ := e
    unfold valueAt? at h
    split at h
    · rename_i hk
      cases h
      rw [hk]
      exact List.mem_cons_self
    · exact List.mem_cons_of_mem _ (ih h)

theorem valueAt?_setEntry (key : κ) (value : α) (es : List (κ × α)) (k : κ) :
    valueAt? k (setEntry key value es) = if key = k then some value else valueAt? k es := by
  induction es with
  | nil => by_cases h : key = k <;> simp [setEntry, valueAt?, h]
  | cons e es ih =>
    obtain ⟨a, v⟩ := e
    by_cases ha : a = key
    · subst ha
      by_cases hk : a = k <;> simp [setEntry, valueAt?, hk]
    · by_cases hk : a = k
      · subst hk
        have hka : key ≠ a := fun h => ha h.symm
        simp [setEntry, valueAt?, ha, hka]
      · simp [setEntry, valueAt?, ha, hk, ih]

theorem valueAt?_append (key : κ) (es fs : List (κ × α)) :
    valueAt? key (es ++ fs) = (valueAt? key es).or (valueAt? key fs) := by
  induction es with
  | nil => rfl
  | cons e es ih =>
    obtain ⟨k, v⟩ := e
    by_cases hk : k = key <;> simp [valueAt?, hk, ih]

/-- Of the entries that are set, the last one under a key counts. -/
theorem valueAt?_setEntries_reverse (key : κ) (es fs : List (κ × α)) :
    valueAt? key (setEntries es fs) = (valueAt? key fs.reverse).or (valueAt? key es) := by
  induction fs generalizing es with
  | nil => rfl
  | cons f fs ih =>
    change valueAt? key (setEntries (setEntry f.1 f.2 es) fs) = _
    rw [ih, valueAt?_setEntry, List.reverse_cons, valueAt?_append, Option.or_assoc]
    by_cases hf : f.1 = key <;> simp [valueAt?, hf]

/-- If something holds of all values under a key, it holds of the one that is set, unless there is no such entry. -/
theorem valueAt?_setEntries {p : α → Prop} {key : κ} (es : List (κ × α)) {fs : List (κ × α)}
    (h : ∀ f ∈ fs, f.1 = key → p f.2) :
    (∃ v, valueAt? key (setEntries es fs) = some v ∧ p v) ∨
      (valueAt? key (setEntries es fs) = valueAt? key es ∧ ∀ f ∈ fs, f.1 ≠ key) := by
  induction fs generalizing es with
  | nil => exact .inr ⟨rfl, nofun⟩
  | cons f fs ih =>
    obtain hset | ⟨hv, hno⟩ := ih (setEntry f.1 f.2 es) fun g hg => h g (List.mem_cons_of_mem _ hg)
    · exact .inl hset
    · rw [valueAt?_setEntry] at hv
      by_cases hf : f.1 = key
      · rw [if_pos hf] at hv
        exact .inl ⟨f.2, hv, h f List.mem_cons_self hf⟩
      · rw [if_neg hf] at hv
        exact .inr ⟨hv, fun g hg => (List.mem_cons.1 hg).elim (fun hgf => hgf ▸ hf) (hno g)⟩

end Hotload
