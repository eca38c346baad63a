import Hotload.Proofs.Session
import Hotload.Proofs.TypeTable.Admission

/-!
Directories of copies. A load makes one, and it stays for as long as its library is open. It also stays when the file
cannot be copied, and when the names of the functions have no order; that is told by the failure.
-/
namespace Hotload

/-- A load that fails so leaves the directory that it made. -/
def Failure.strandsCopy : Failure → Bool
  | .unordered _ _ => true
  | f => f.isSystem

namespace TypeTable

variable {spare : Nat} {d : Files.Disk} {path p : Files.Path} {f : Failure}

theorem nameBefore_error {v w : Value} (h : nameBefore v w = .error f) : f.strandsCopy = true := by
  unfold nameBefore at h
  split at h
  · cases h
  · split at h
    · cases h
    · cases h
      rfl

theorem runOn_error {down : Bool} {last : Value} {vs : List Value} (h : runOn down last vs = .error f) :
    f.strandsCopy = true := by
  induction vs generalizing last with
  | nil => cases h
  | cons v vs ih =>
    obtain hb | ⟨before, -, h⟩ := Outcome.bind_error h
    · exact nameBefore_error hb
    · split at h
      · obtain hr | ⟨n, -, h⟩ := Outcome.bind_error h
        · exact ih hr
        · cases h
      · cases h

theorem place_error {v : Value} {sorted : List Value} {low high : Nat} (h : place v sorted low high = .error f) :
    f.strandsCopy = true := by
  fun_induction place v sorted low high with
  | case1 low high hlt middle ih₁ ih₂ =>
    obtain hb | ⟨before, -, h⟩ := Outcome.bind_error h
    · exact nameBefore_error hb
    · split at h
      · exact ih₁ h
      · exact ih₂ h
  | case2 => cases h

theorem insertAll_error {sorted vs : List Value} (h : insertAll sorted vs = .error f) : f.strandsCopy = true := by
  induction vs generalizing sorted with
  | nil => cases h
  | cons v vs ih =>
    obtain hp | ⟨i, -, h⟩ := Outcome.bind_error h
    · exact place_error hp
    · exact ih h

/-- Names cannot be sorted only if they have no order. -/
theorem sortNames_error {vs : List Value} (h : sortNames vs = .error f) : f.strandsCopy = true := by
  unfold sortNames at h
  split at h
  · cases h
  · cases h
  · obtain hb | ⟨down, -, h⟩ := Outcome.bind_error h
    · exact nameBefore_error hb
    · obtain hr | ⟨n, -, h⟩ := Outcome.bind_error h
      · exact runOn_error hr
      · exact insertAll_error h

theorem ofValue_error {name : String} {v : Value} (h : ofValue name v = .error f) : f.strandsCopy = false := by
  unfold ofValue at h
  split at h
  · split at h
    · obtain ⟨as, e, bs, -, -, ⟨-, rfl⟩ | he⟩ := (foldlM_error_iff _ _).1 h
      · rfl
      · cases he with
        | parameters => rfl
        | @result _ v => cases v <;> rfl
        | name => rfl
    · cases h
      rfl
  · cases h
    rfl

theorem read_error (h : read spare d p = .error f) : f.strandsCopy = false := by
  unfold read at h
  split at h
  · exact ofValue_error h
  · next e he =>
    split at h
    · cases h
      rfl
    · split at h
      · cases h
        rfl
      · next hno =>
        cases h
        obtain hyes | ⟨what, rfl⟩ := value_error he
        · exact absurd hyes hno
        · rfl

/-- A table that was read is beside a library whose path can be looked at. -/
theorem hasNul_of_read {t : TypeTable} (hp : pathFor path = .ok p) (h : read spare d p = .ok t) : path.hasNul = false := by
  have hnul : p.hasNul = false := by
    unfold read at h
    split at h
    · rename_i hv
      obtain ⟨content, hr, -⟩ := Outcome.bind_ok hv
      exact Files.Disk.hasNul_of_readFile hr
    · split at h
      · cases h
      · split at h <;> cases h
  unfold pathFor at hp
  split at hp
  · cases hp
  · cases hp
    obtain hparts | ⟨parts, last, hparts⟩ := List.eq_nil_or_concat path.parts
    · simp [Files.Path.hasNul, hparts]
    · simp [Files.Path.hasNul, Files.Path.child, Files.Path.parent, Files.Path.name, hparts] at hnul ⊢
      exact ⟨hnul.1, hnul.2.1⟩

end TypeTable

namespace NativeLoader

variable {linker : Linker} {spare : Nat} {d : Files.Disk} {path : Files.Path} {f : Failure}

/-- There is a type table, but the file cannot be copied, or its functions have names without an order. -/
def Strands (linker : Linker) (spare : Nat) (d : Files.Disk) (path : Files.Path) : Prop :=
  ∃ table, TypeTable.pathFor path >>= TypeTable.read spare d = .ok table ∧
    ((∃ f, d.readFile path = .error f) ∨
      ∃ content image f, d.readFile path = .ok content ∧ linker.image? d path (some content) = some image ∧
        TypeTable.sortNames (table.map (·.1)) = .error f)

/-- With a table a directory is made before the file is looked at. -/
theorem load_of_table {table : TypeTable} (ht : TypeTable.pathFor path >>= TypeTable.read spare d = .ok table) (s : Shelf) :
    (copying linker spare).load d path s = match d.readFile path with
      | .error f => ⟨.error f, s.makeCopy.2, []⟩
      | .ok content => (copying linker spare).openFile d path table (some (s.nextCopy, content)) s.makeCopy.2 := by
  rw [load, show (copying linker spare).spare = spare from rfl, ht]
  rfl

/-- What a load from a copy does: nothing, if there is no table; else it makes a directory, and removes it if the copy is
no library, or leaves it, with the failure that says so or with the library that was loaded. -/
theorem load_cases (linker : Linker) (spare : Nat) (d : Files.Disk) (path : Files.Path) (s : Shelf) :
    let x := (copying linker spare).load d path s
    (∃ f, x = ⟨.error f, s, []⟩ ∧ f.strandsCopy = false ∧ ¬Strands linker spare d path) ∨
      (∃ f, x = ⟨.error f, s.makeCopy.2.removeCopy (some s.nextCopy), []⟩ ∧ f.strandsCopy = false ∧
        ¬Strands linker spare d path) ∨
      (∃ f, x = ⟨.error f, s.makeCopy.2, []⟩ ∧ f.strandsCopy = true ∧ Strands linker spare d path) ∨
      ∃ l es, x = ⟨.ok s.size, (s.makeCopy.2.add l).2, es⟩ ∧ l.copy = some s.nextCopy ∧ l.closes = 0 := by
  intro x
  cases ht : TypeTable.pathFor path >>= TypeTable.read spare d with
  | error f =>
    have hx : x = ⟨.error f, s, []⟩ := by
      change load _ d path s = _
      rw [load, show (copying linker spare).spare = spare from rfl, ht]
    refine .inl ⟨f, hx, ?_, ?_⟩
    · obtain hp | ⟨p, -, hr⟩ := Outcome.bind_error ht
      · unfold TypeTable.pathFor at hp
        split at hp
        · cases hp
          rfl
        · cases hp
      · exact TypeTable.read_error hr
    · rintro ⟨table, ht', -⟩
      cases ht.symm.trans ht'
  | ok table =>
    refine .inr ?_
    have hx : x = _ := load_of_table ht s
    cases hr : d.readFile path with
    | error f =>
      obtain ⟨p, hp, hread⟩ := Outcome.bind_ok ht
      refine .inr (.inl ⟨f, by rw [hx, hr], ?_, table, ht, .inl ⟨f, hr⟩⟩)
      have hs := Files.Disk.isSystem_of_readFile (TypeTable.hasNul_of_read hp hread) hr
      cases f with
      | unordered => rfl
      | _ => exact hs
    | ok content =>
      rw [hr] at hx
      have hopen : x = (copying linker spare).openFile d path table (some (s.nextCopy, content)) s.makeCopy.2 := hx
      rw [openFile, show (copying linker spare).linker = linker from rfl, Option.map_some] at hopen
      cases himage : linker.image? d path (some content) with
      | none =>
        rw [himage] at hopen
        refine .inl ⟨_, hopen, rfl, ?_⟩
        rintro ⟨t, -, ⟨f, hf⟩ | ⟨c, i, f, hc, hi, -⟩⟩
        · cases hr.symm.trans hf
        · cases hr.symm.trans hc
          cases himage.symm.trans hi
      | some image =>
        rw [himage] at hopen
        cases hsort : TypeTable.sortNames (table.map (·.1)) with
        | error f =>
          rw [hsort] at hopen
          exact .inr (.inl ⟨f, hopen, TypeTable.sortNames_error hsort, table, ht,
            .inr ⟨content, image, f, hr, himage, hsort⟩⟩)
        | ok names =>
          rw [hsort] at hopen
          exact .inr (.inr ⟨.new path (.native table image) (some s.nextCopy), [Loader.loadedEvent path names], hopen, rfl,
            rfl⟩)

end NativeLoader

namespace Shelf

/-- For each library the directory of its copy, and how often it was closed. -/
def leases (s : Shelf) : List (Option Nat × Nat) :=
  s.libraries.map fun l => (l.copy, l.closes)

/-- Every library was loaded from a copy of its own, whose directory is there until it is closed. Some directories are
left that no library has. -/
structure Balanced (left : Nat) (s : Shelf) : Prop where
  distinct : s.copies.Nodup
  below : ∀ c ∈ s.copies, c < s.nextCopy
  leased : ∀ x ∈ s.leases, ∃ c < s.nextCopy, x.1 = some c ∧ (c ∈ s.copies ↔ x.2 = 0)
  apart : (s.leases.map (·.1)).Nodup
  count : s.copies.length = s.leases.countP (·.2 = 0) + left

variable {s s' : Shelf} {left : Nat}

theorem balanced_empty : Balanced 0 .empty :=
  ⟨.nil, nofun, nofun, .nil, rfl⟩

theorem Balanced.open_eq (h : Balanced left s) : s.copies.length = s.libraries.countP Library.isOpen + left := by
  rw [h.count, leases, List.countP_map]
  rfl

theorem Balanced.congr (h : Balanced left s) (hl : s'.leases = s.leases) (hc : s'.copies = s.copies)
    (hn : s'.nextCopy = s.nextCopy) : Balanced left s' where
  distinct := by rw [hc]; exact h.distinct
  below := by rw [hc, hn]; exact h.below
  leased := by rw [hl, hn, hc]; exact h.leased
  apart := by rw [hl]; exact h.apart
  count := by rw [hc, hl]; exact h.count

theorem copies_removed (h : ∀ c ∈ s.copies, c < s.nextCopy) :
    (s.makeCopy.2.removeCopy (some s.nextCopy)).copies = s.copies := by
  have hkept : s.copies.filter (· != s.nextCopy) = s.copies :=
    List.filter_eq_self.2 fun c hc => by simpa using Nat.ne_of_lt (h c hc)
  simp [removeCopy, makeCopy, List.filter_append, hkept]

namespace Balanced

/-- A directory that was removed again leaves no trace. -/
theorem removed (h : Balanced left s) : Balanced left (s.makeCopy.2.removeCopy (some s.nextCopy)) where
  distinct := by rw [copies_removed h.below]; exact h.distinct
  below c hc := by
    rw [copies_removed h.below] at hc
    exact Nat.lt_succ_of_lt (h.below c hc)
  leased x hx := by
    obtain ⟨c, hlt, hcopy, hiff⟩ := h.leased x hx
    rw [copies_removed h.below]
    exact ⟨c, Nat.lt_succ_of_lt hlt, hcopy, hiff⟩
  apart := h.apart
  count := by rw [copies_removed h.below]; exact h.count

/-- The next directory, whoever has it. -/
theorem made (h : Balanced left s) : (s.copies ++ [s.nextCopy]).Nodup ∧ ∀ c ∈ s.copies ++ [s.nextCopy], c < s.nextCopy + 1 := by
  refine ⟨List.nodup_append.2 ⟨h.distinct, List.nodup_singleton _, ?_⟩, ?_⟩
  · rintro c hc _ hn rfl
    obtain rfl := List.mem_singleton.1 hn
    exact Nat.lt_irrefl _ (h.below _ hc)
  · intro c hc
    obtain hc | hc := List.mem_append.1 hc
    · exact Nat.lt_succ_of_lt (h.below c hc)
    · obtain rfl := List.mem_singleton.1 hc
      exact Nat.lt_succ_self _

theorem leased_made (h : Balanced left s) {x : Option Nat × Nat} (hx : x ∈ s.leases) :
    ∃ c < s.nextCopy + 1, x.1 = some c ∧ (c ∈ s.copies ++ [s.nextCopy] ↔ x.2 = 0) := by
  obtain ⟨c, hlt, hcopy, hiff⟩ := h.leased x hx
  exact ⟨c, Nat.lt_succ_of_lt hlt, hcopy, by simp [hiff, Nat.ne_of_lt hlt]⟩

theorem stranded (h : Balanced left s) : Balanced (left + 1) s.makeCopy.2 where
  distinct := h.made.1
  below := h.made.2
  leased _ hx := h.leased_made hx
  apart := h.apart
  count := by
    have hcount := h.count
    simp only [makeCopy, List.length_append, List.length_singleton, leases] at hcount ⊢
    omega

theorem added {l : Library} (h : Balanced left s) (hl : l.copy = some s.nextCopy) (ho : l.closes = 0) :
    Balanced left (s.makeCopy.2.add l).2 := by
  have hleases : (s.makeCopy.2.add l).2.leases = s.leases ++ [(some s.nextCopy, 0)] := by
    simp [add, makeCopy, leases, hl, ho]
  refine ⟨h.made.1, h.made.2, ?_, ?_, ?_⟩
  · rw [hleases]
    intro x hx
    obtain hx | hx := List.mem_append.1 hx
    · exact h.leased_made hx
    · obtain rfl := List.mem_singleton.1 hx
      exact ⟨s.nextCopy, Nat.lt_succ_self _, rfl, by simp [add, makeCopy]⟩
  · rw [hleases, List.map_append]
    refine List.nodup_append.2 ⟨h.apart, List.nodup_singleton _, ?_⟩
    rintro o ho _ hn rfl
    obtain ⟨x, hx, rfl⟩ := List.mem_map.1 ho
    obtain ⟨c, hlt, hcopy, -⟩ := h.leased x hx
    cases hcopy.symm.trans (List.mem_singleton.1 hn)
    exact Nat.lt_irrefl _ hlt
  · rw [hleases, List.countP_append]
    have hcount := h.count
    simp only [add, makeCopy, List.length_append, List.length_singleton, List.countP_singleton] at hcount ⊢
    simp
    omega

end Balanced

variable {id : LibraryId} {l : Library}

theorem copies_close_of_get? (h : s.get? id = some l) : (s.close id).copies = (s.removeCopy l.copy).copies := by
  rw [close, h, Option.bind_some]
  cases l.copy <;> rfl

theorem nextCopy_close (s : Shelf) (id : LibraryId) : (s.close id).nextCopy = s.nextCopy := by
  unfold close
  cases (s.get? id).bind (·.copy) <;> rfl

theorem leases_close_of_get? (h : s.get? id = some l) : (s.close id).leases = s.leases.set id (l.copy, l.closes + 1) := by
  apply List.ext_getElem?
  intro k
  rw [leases, libraries_close, leases, List.getElem?_map, List.getElem?_modify, List.getElem?_set]
  by_cases hk : id = k
  · subst hk
    obtain ⟨hi, hl⟩ := List.getElem?_eq_some_iff.1 h
    simp [hi, hl, Library.close]
  · simp [hk]

theorem leased_copies_close (s : Shelf) (id : LibraryId) : (s.close id).leases.map (·.1) = s.leases.map (·.1) := by
  apply List.ext_getElem?
  intro k
  simp only [leases, libraries_close, List.map_map, List.getElem?_map, List.getElem?_modify]
  cases s.libraries[k]? with
  | none => rfl
  | some l => by_cases hk : id = k <;> simp [hk, Library.close]

theorem leases_call (s : Shelf) (id : LibraryId) (d : Definition) (as : Option NativeType) :
    (s.call id d as).2.leases = s.leases := by
  apply List.ext_getElem?
  intro k
  rw [leases, libraries_call, leases, List.getElem?_map, List.getElem?_modify, List.getElem?_map]
  cases s.libraries[k]? with
  | none => rfl
  | some l =>
    obtain h | ⟨c, h⟩ := call_eq l d as <;> by_cases hk : id = k <;> simp [hk, h, Library.note]

theorem get?_close (s : Shelf) (id : LibraryId) : (s.close id).get? id = (s.get? id).map Library.close := by
  simp [get?, libraries_close]

/-- A library that is closed once more is only counted. -/
theorem close_close (s : Shelf) (id : LibraryId) : (s.close id).close id = (s.close id).modify id Library.close := by
  have hcopy : ((s.close id).get? id).bind (·.copy) = (s.get? id).bind (·.copy) := by
    rw [get?_close]
    cases s.get? id <;> rfl
  have hsame (t : Shelf) (copy : Option Nat) (f : Library → Library) :
      ((t.removeCopy copy).modify id f).removeCopy copy = (t.removeCopy copy).modify id f := by
    cases copy with
    | none => rfl
    | some c => simp [removeCopy, modify, List.filter_filter]
  rw [close, hcopy, close, hsame]

theorem length_filter_ne {cs : List Nat} {c : Nat} (h : cs.Nodup) (hc : c ∈ cs) :
    (cs.filter (· != c)).length + 1 = cs.length := by
  rw [← h.erase_eq_filter, List.length_erase_of_mem hc]
  have := List.length_pos_of_mem hc
  omega

theorem close_of_get?_none (h : s.get? id = none) : s.close id = s := by
  have hmodify : s.modify id Library.close = s := by
    rw [modify, List.modify_eq_self (List.getElem?_eq_none_iff.1 h)]
  rw [close, h, hmodify]
  rfl

namespace Balanced

/-- Closing a library takes its directory away, if that is still there. -/
theorem close (h : Balanced left s) (id : LibraryId) : Balanced left (s.close id) := by
  cases hl : s.get? id with
  | none =>
    rw [close_of_get?_none hl]
    exact h
  | some l =>
    have hlease : s.leases[id]? = some (l.copy, l.closes) := by
      simp only [get?] at hl
      simp [leases, hl]
    obtain ⟨c, hlt, hcopy, hiff⟩ := h.leased _ (List.mem_of_getElem? hlease)
    have hcopies : (s.close id).copies = s.copies.filter (· != c) := by
      rw [copies_close_of_get? hl, show l.copy = some c from hcopy]
      rfl
    have hleases := leases_close_of_get? hl
    refine ⟨?_, fun k hk => ?_, fun x hx => ?_, ?_, ?_⟩
    · rw [hcopies]
      exact h.distinct.filter _
    · rw [hcopies] at hk
      rw [nextCopy_close]
      exact h.below k (List.mem_filter.1 hk).1
    · rw [hleases] at hx
      rw [hcopies, nextCopy_close]
      obtain ⟨j, hj⟩ := List.mem_iff_getElem?.1 hx
      rw [List.getElem?_set] at hj
      by_cases hk : id = j
      · rw [if_pos hk] at hj
        split at hj
        · cases hj
          exact ⟨c, hlt, hcopy, by simp⟩
        · cases hj
      · rw [if_neg hk] at hj
        obtain ⟨c', hlt', hcopy', hiff'⟩ := h.leased x (List.mem_of_getElem? hj)
        have hne : c' ≠ c := by
          rintro rfl
          refine hk ((List.getElem?_inj (l := s.leases.map (·.1)) ?_ h.apart).1 ?_)
          · rw [List.length_map]
            exact (List.getElem?_eq_some_iff.1 hlease).1
          · simp [hlease, hj, hcopy', show l.copy = _ from hcopy]
        exact ⟨c', hlt', hcopy', by simp [hne, hiff']⟩
    · rw [leased_copies_close]
      exact h.apart
    · rw [hcopies, hleases]
      have hset := countP_set_add (fun x : Option Nat × Nat => decide (x.2 = 0)) hlease (l.copy, l.closes + 1)
      have hcount := h.count
      by_cases hc : c ∈ s.copies
      · have hlength := length_filter_ne h.distinct hc
        have ho : l.closes = 0 := hiff.1 hc
        simp only [ho, decide_true, Bool.toNat_true, Nat.zero_add, Nat.one_ne_zero, decide_false, Bool.toNat_false] at hset ⊢
        omega
      · have hkept : s.copies.filter (· != c) = s.copies :=
          List.filter_eq_self.2 fun k hk => by simpa using fun he : k = c => hc (he ▸ hk)
        have ho : l.closes ≠ 0 := fun ho => hc (hiff.2 ho)
        simp only [ho, Nat.succ_ne_zero, decide_false, Bool.toNat_false] at hset ⊢
        rw [hkept]
        omega

theorem call (h : Balanced left s) (id : LibraryId) (d : Definition) (as : Option NativeType) :
    Balanced left (s.call id d as).2 := by
  refine h.congr (leases_call s id d as) ?_ ?_
  all_goals
    unfold Shelf.call
    cases s.get? id <;> rfl

end Balanced

end Shelf

/-- How many directories are left behind by what a load came to. -/
def Loader.stranded : Outcome LibraryId → Nat
  | .ok _ => 0
  | .error f => f.strandsCopy.toNat

namespace NativeLoader

open Loader (stranded)

variable {s : Shelf} {left : Nat}

/-- What a load leaves in the directories that were there before it: one more if it succeeds, which closing the library
takes away, and none if it fails, unless it is one of those that strand theirs. -/
structure Leaves (linker : Linker) (spare : Nat) (d : Files.Disk) (path : Files.Path) (s : Shelf) (x : Loader.Loading) :
    Prop where
  failed : ∀ f, x.outcome = .error f →
    x.shelf.copies = (if f.strandsCopy then s.copies ++ [s.nextCopy] else s.copies) ∧
      (f.strandsCopy = true ↔ Strands linker spare d path)
  loaded : ∀ id, x.outcome = .ok id →
    x.shelf.copies = s.copies ++ [s.nextCopy] ∧ s.nextCopy ∉ s.copies ∧
      (x.shelf.get? id).bind (·.copy) = some s.nextCopy ∧ (x.shelf.close id).copies = s.copies ∧
      (x.shelf.close id).close id = (x.shelf.close id).modify id Library.close

theorem load_leaves (linker : Linker) (spare : Nat) (d : Files.Disk) (path : Files.Path) (h : s.Balanced left) :
    Leaves linker spare d path s ((copying linker spare).load d path s) := by
  obtain ⟨f, hx, hf, hno⟩ | ⟨f, hx, hf, hno⟩ | ⟨f, hx, hf, hyes⟩ | ⟨l, es, hx, hl, ho⟩ :=
    load_cases linker spare d path s
  · rw [hx]
    refine ⟨?_, nofun⟩
    rintro _ ⟨⟩
    simp [hf, hno]
  · rw [hx]
    refine ⟨?_, nofun⟩
    rintro _ ⟨⟩
    simp [hf, hno, Shelf.copies_removed h.below]
  · rw [hx]
    refine ⟨?_, nofun⟩
    rintro _ ⟨⟩
    simp [hf, hyes, Shelf.makeCopy]
  · rw [hx]
    refine ⟨nofun, ?_⟩
    rintro _ ⟨⟩
    have hget : (s.makeCopy.2.add l).2.get? s.size = some l := by
      simp [Shelf.add, Shelf.makeCopy, Shelf.get?, Shelf.size]
    refine ⟨rfl, fun hin => Nat.lt_irrefl _ (h.below _ hin), by rw [hget]; exact hl, ?_, Shelf.close_close _ _⟩
    rw [Shelf.copies_close_of_get? hget, hl]
    exact Shelf.copies_removed h.below

theorem balanced_load (linker : Linker) (spare : Nat) (d : Files.Disk) (path : Files.Path) (h : s.Balanced left) :
    let x := (copying linker spare).load d path s
    x.shelf.Balanced (left + stranded x.outcome) := by
  intro x
  obtain ⟨f, hx, hf, -⟩ | ⟨f, hx, hf, -⟩ | ⟨f, hx, hf, -⟩ | ⟨l, es, hx, hl, ho⟩ := load_cases linker spare d path s
  all_goals rw [show x = _ from hx]
  · simpa only [stranded, hf, Bool.toNat_false, Nat.add_zero] using h
  · simpa only [stranded, hf, Bool.toNat_false, Nat.add_zero] using h.removed
  · simpa only [stranded, hf, Bool.toNat_true] using h.stranded
  · simpa only [stranded, Nat.add_zero] using h.added hl ho

end NativeLoader

end Hotload
