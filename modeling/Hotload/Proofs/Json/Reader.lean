import Hotload.Proofs.Json.Spelling
import Hotload.Text.Lines
import Mathlib.Data.List.Forall2

/-!
Values that are written are read. A text reads as a value if the reader, given enough room and enough steps, takes just
that text from the front of any other and hands out the value. It does so whatever the line ends are, and two steps are
enough for each character that is no white space, so a whole text is read by the steps that its length allows.
-/
namespace Hotload.Json

open Text (Point Wide unifyLineEnds)

variable {c : Char} {t u w r : List Char} {k n room : Nat} {v : Value} {es : List (Wide × Value)}

theorem unifyLineEnds_cons (h : c ≠ '\r') (r : List Char) : unifyLineEnds (c :: r) = c :: unifyLineEnds r := by
  rw [unifyLineEnds]
  · rintro _ rfl
    exact absurd rfl h
  · exact h

theorem unifyLineEnds_append (h : '\r' ∉ t) (r : List Char) : unifyLineEnds (t ++ r) = t ++ unifyLineEnds r := by
  induction t with
  | nil => rfl
  | cons c t ih =>
    rw [List.mem_cons, not_or] at h
    rw [List.cons_append, unifyLineEnds_cons (Ne.symm h.1), ih h.2, List.cons_append]

theorem skipSpace_of_not (h : isSpace c = false) (r : List Char) : skipSpace (c :: r) = c :: r := by
  rw [skipSpace, List.dropWhile_cons, h]
  rfl

theorem skipSpace_cons (h : isSpace c = true) (r : List Char) : skipSpace (c :: r) = skipSpace r := by
  rw [skipSpace, List.dropWhile_cons, if_pos h]
  rfl

theorem skipSpace_return (r : List Char) : skipSpace (unifyLineEnds ('\r' :: r)) = skipSpace (unifyLineEnds r) := by
  by_cases h : ∃ r', r = '\n' :: r'
  · obtain ⟨r', rfl⟩ := h
    rw [unifyLineEnds, unifyLineEnds_cons (by decide)]
  · rw [unifyLineEnds, skipSpace_cons (by decide)]
    intro r' hr
    exact h ⟨r', hr⟩

/-- White space is skipped, however its lines end. -/
theorem Spaces.skip (h : Spaces w) (r : List Char) :
    skipSpace (unifyLineEnds (w ++ r)) = skipSpace (unifyLineEnds r) := by
  induction w with
  | nil => rfl
  | cons c w ih =>
    have hw : Spaces w := fun d hd => h d (List.mem_cons_of_mem _ hd)
    rw [List.cons_append, ← ih hw]
    by_cases hc : c = '\r'
    · subst hc
      exact skipSpace_return _
    · have hs : isSpace c = true := by
        have hm := h c List.mem_cons_self
        simp only [List.mem_cons, List.not_mem_nil, or_false] at hm
        obtain rfl | rfl | rfl | rfl := hm
        all_goals decide
      rw [unifyLineEnds_cons hc, skipSpace_cons hs]

theorem ne_return_of_not_space (h : isSpace c = false) : c ≠ '\r' := by
  rintro rfl
  exact absurd h (by decide)

/-- White space before a character that is none. -/
theorem Spaces.skip_to (h : Spaces w) (hc : isSpace c = false) (r : List Char) :
    skipSpace (unifyLineEnds (w ++ c :: r)) = c :: unifyLineEnds r := by
  rw [h.skip, unifyLineEnds_cons (ne_return_of_not_space hc), skipSpace_of_not hc]

/-- The number of characters that are no white space. -/
def ink (t : List Char) : Nat :=
  t.countP fun c => !isSpace c

theorem ink_append (t u : List Char) : ink (t ++ u) = ink t + ink u := List.countP_append

theorem ink_cons_of_not (h : isSpace c = false) (t : List Char) : ink (c :: t) = ink t + 1 := by
  rw [ink, List.countP_cons_of_pos (by simp [h])]
  rfl

theorem ink_unifyLineEnds (t : List Char) : ink (unifyLineEnds t) = ink t := by
  fun_induction unifyLineEnds t with
  | case1 => rfl
  | case2 r ih => simpa [ink, isSpace] using ih
  | case3 r _ ih => simpa [ink, isSpace] using ih
  | case4 c r _ _ ih =>
    simp only [ink, List.countP_cons] at ih ⊢
    rw [ih]

theorem ink_le_length (t : List Char) : ink t ≤ (unifyLineEnds t).length := by
  rw [← ink_unifyLineEnds]
  exact List.countP_le_length

/-- A text that is read as a value from the front of any text if there is room for so many levels, and does not close a
list or an object. -/
structure Reads (k : Nat) (v : Value) (t : List Char) : Prop where
  starts : ∃ c t', t = c :: t' ∧ isSpace c = false ∧ c ≠ ']' ∧ c ≠ '\x7d'
  read : ∀ room n r, k ≤ room → 2 * ink t ≤ n → readValue room n (unifyLineEnds (t ++ r)) = .ok (v, unifyLineEnds r)

theorem Reads.mono {k' : Nat} (h : Reads k v t) (hk : k ≤ k') : Reads k' v t :=
  ⟨h.starts, fun room n r hroom => h.read room n r (Nat.le_trans hk hroom)⟩

/-- White space before a value is skipped. -/
theorem Reads.skip (h : Reads k v t) (hw : Spaces w) (r : List Char) :
    skipSpace (unifyLineEnds (w ++ (t ++ r))) = unifyLineEnds (t ++ r) := by
  obtain ⟨c, t', rfl, hc, -⟩ := h.starts
  rw [List.cons_append, hw.skip_to hc, unifyLineEnds_cons (ne_return_of_not_space hc)]

theorem Literal.unify (h : Literal u) (r : List Char) :
    unifyLineEnds ('"' :: (u ++ '"' :: r)) = '"' :: (u ++ '"' :: unifyLineEnds r) := by
  rw [unifyLineEnds_cons (by decide), unifyLineEnds_append h.not_mem_return, unifyLineEnds_cons (by decide)]

theorem Literal.reads {ps : List Point} (h : Literal u) (hs : ∀ r, Json.readText (u ++ '"' :: r) = some (ps, r)) :
    Reads 0 (.ofWide (.ofPoints ps)) ('"' :: (u ++ ['"'])) where
  starts := ⟨'"', _, rfl, by decide, by decide, by decide⟩
  read room n r _ hn := by
    rw [ink_cons_of_not (by decide)] at hn
    obtain ⟨n, rfl⟩ := Nat.exists_eq_add_one_of_ne_zero (n := n) (by omega)
    rw [List.cons_append, List.append_assoc, List.singleton_append, h.unify, readValue, hs]

theorem Quotes.reads {s : String} (h : Quotes s t) : Reads 0 (.text s) t := by
  obtain ⟨u, hu, rfl⟩ := h
  have hr := hu.literal.reads hu.readText
  rwa [Wide.ofPoints_eq_plain.2 rfl] at hr

theorem QuotesAny.reads (h : QuotesAny t) : ∃ v, Reads 0 v t := by
  obtain ⟨u, hu, rfl⟩ := h
  obtain ⟨ps, hps, -⟩ := hu.readText
  exact ⟨_, hu.reads hps⟩

theorem reads_null : Reads 0 .null "null".toList where
  starts := ⟨'n', _, rfl, by decide, by decide, by decide⟩
  read room n r _ hn := by
    obtain ⟨n, rfl⟩ := Nat.exists_eq_add_one_of_ne_zero (n := n) (by rintro rfl; exact absurd hn (by decide))
    rw [unifyLineEnds_append (by decide)]
    rfl

/-- The reader at the first item of a list takes the items and the closing bracket. -/
def ReadsItems (k : Nat) (vs : List Value) (t : List Char) : Prop :=
  ∀ room n r, k ≤ room → 2 * ink t + 1 ≤ n →
    readItems room n (skipSpace (unifyLineEnds (t ++ ']' :: r))) = .ok (vs, unifyLineEnds r)

theorem readsItems_one {w' : List Char} (hw : Spaces w) (h : Reads k v t) (hw' : Spaces w') :
    ReadsItems k [v] (w ++ (t ++ w')) := by
  intro room n r hroom hn
  rw [ink_append, ink_append] at hn
  obtain ⟨n, rfl⟩ := Nat.exists_eq_add_one_of_ne_zero (n := n) (by omega)
  have hend := hw'.skip_to (c := ']') (by decide) r
  rw [List.append_assoc, List.append_assoc, h.skip hw, readItems, h.read room n _ hroom (by omega)]
  simp only [bind, Except.bind, hend]

theorem readsItems_more {w' ts : List Char} {vs : List Value} (hw : Spaces w) (h : Reads k v t) (hw' : Spaces w')
    (hs : ReadsItems k vs ts) : ReadsItems k (v :: vs) (w ++ (t ++ (w' ++ ',' :: ts))) := by
  intro room n r hroom hn
  rw [ink_append, ink_append, ink_append, ink_cons_of_not (by decide)] at hn
  obtain ⟨n, rfl⟩ := Nat.exists_eq_add_one_of_ne_zero (n := n) (by omega)
  have hend := hw'.skip_to (c := ',') (by decide) (ts ++ ']' :: r)
  have hrest := hs room n r hroom (by omega)
  simp only [List.append_assoc, List.cons_append]
  rw [h.skip hw, readItems, h.read room n _ hroom (by omega)]
  simp only [bind, Except.bind, hend, hrest, Except.map]

/-- The reader at the first member of an object takes the members and the closing bracket. -/
def ReadsMembers (k : Nat) (ms : List (Wide × Value)) (t : List Char) : Prop :=
  ∀ room n es r, k ≤ room → 2 * ink t + 1 ≤ n →
    readMembers room n es (skipSpace (unifyLineEnds (t ++ '\x7d' :: r))) = .ok (setEntries es ms, unifyLineEnds r)

/-- A text that is read as a member. -/
def ReadsMember (k : Nat) (m : Wide × Value) (t : List Char) : Prop :=
  ∃ u w w' x, Literal u ∧ (∀ r, Json.readText (u ++ '"' :: r) = some (m.1.points, r)) ∧ Spaces w ∧ Spaces w' ∧
    Reads k m.2 x ∧ t = '"' :: (u ++ ['"']) ++ (w ++ ':' :: (w' ++ x))

/-- The reader at a member goes on behind its value. -/
theorem ReadsMember.read {m : Wide × Value} (h : ReadsMember k m t) (hroom : k ≤ room) (hw : Spaces w)
    (hn : 2 * ink t ≤ n) (r : List Char) :
    readMembers room (n + 1) es (skipSpace (unifyLineEnds (w ++ (t ++ r)))) =
      match skipSpace (unifyLineEnds r) with
      | ',' :: r₁ => readMembers room n (setEntry m.1 m.2 es) (skipSpace r₁)
      | '\x7d' :: r₁ => .ok (setEntry m.1 m.2 es, r₁)
      | _ => .error .malformed := by
  obtain ⟨u, v, v', x, hu, hs, hv, hv', hx, rfl⟩ := h
  have hcolon := hv.skip_to (c := ':') (by decide) (v' ++ (x ++ r))
  simp only [List.append_assoc, List.cons_append, List.nil_append] at hcolon ⊢
  rw [hw.skip_to (by decide), unifyLineEnds_append hu.not_mem_return, unifyLineEnds_cons (by decide), readMembers, hs]
  simp only [hcolon, hx.skip hv' r]
  rw [hx.read room n r hroom (by simp only [ink_append, ink_cons_of_not (c := ':') (by decide)] at hn; omega)]
  rw [Wide.ofPoints_points]
  rfl

/-- A member whose key is known. -/
theorem Keyed.reads {key : String} {val : List Char → Prop} (h : Keyed (Quotes key) val t)
    (hv : ∀ x, val x → Reads k v x) : ReadsMember k (.plain key, v) t := by
  obtain ⟨_, w, w', x, ⟨u, hu, rfl⟩, hw, hw', hx, rfl⟩ := h
  exact ⟨u, w, w', x, hu.literal, hu.readText, hw, hw', hv x hx, rfl⟩

/-- A member whose key is none of some texts is read under a key that is none of them. -/
theorem Keyed.reads_other {keys : List String} {val : List Char → Prop} (h : Keyed (QuotesOther keys) val t)
    (hv : ∀ x, val x → ∃ v, Reads k v x) : ∃ m : Wide × Value, (∀ key ∈ keys, m.1 ≠ .plain key) ∧ ReadsMember k m t := by
  obtain ⟨_, w, w', x, ⟨⟨u, hu, rfl⟩, hother⟩, hw, hw', hx, rfl⟩ := h
  obtain ⟨ps, hps, hspells⟩ := hu.readText
  obtain ⟨v, hv⟩ := hv x hx
  refine ⟨(.ofPoints ps, v), fun key hkey hk => ?_, u, w, w', x, hu, fun r => ?_, hw, hw', hv, rfl⟩
  · exact hother key hkey ⟨u, hspells key.toList (Wide.ofPoints_eq_plain.1 hk), rfl⟩
  · rw [Wide.points_ofPoints]
    exact hps r

theorem readsMembers_one {m : Wide × Value} {w' : List Char} (hw : Spaces w) (h : ReadsMember k m t)
    (hw' : Spaces w') : ReadsMembers k [m] (w ++ (t ++ w')) := by
  intro room n es r hroom hn
  rw [ink_append, ink_append] at hn
  obtain ⟨n, rfl⟩ := Nat.exists_eq_add_one_of_ne_zero (n := n) (by omega)
  have hend := hw'.skip_to (c := '\x7d') (by decide) r
  rw [List.append_assoc, List.append_assoc, h.read hroom hw (by omega), hend]
  rfl

theorem readsMembers_more {m : Wide × Value} {w' ts : List Char} {ms : List (Wide × Value)} (hw : Spaces w)
    (h : ReadsMember k m t) (hw' : Spaces w') (hs : ReadsMembers k ms ts) :
    ReadsMembers k (m :: ms) (w ++ (t ++ (w' ++ ',' :: ts))) := by
  intro room n es r hroom hn
  rw [ink_append, ink_append, ink_append, ink_cons_of_not (by decide)] at hn
  obtain ⟨n, rfl⟩ := Nat.exists_eq_add_one_of_ne_zero (n := n) (by omega)
  have hend := hw'.skip_to (c := ',') (by decide) (ts ++ '\x7d' :: r)
  have hrest := hs room n (setEntry m.1 m.2 es) r hroom (by omega)
  simp only [List.append_assoc, List.cons_append] at hend hrest ⊢
  rw [h.read hroom hw (by omega), hend]
  exact hrest

variable {α : Type} {p : α → List Char → Prop} {as : List α}

theorem Parted.readsItems {q : α → Value → Prop} (h : Parted p as t) (hp : ∀ a t, p a t → ∃ v, q a v ∧ Reads k v t) :
    ∃ vs, List.Forall₂ q as vs ∧ ReadsItems k vs t := by
  induction h with
  | @one a w t w' hw ht hw' =>
    obtain ⟨v, hq, hv⟩ := hp a t ht
    exact ⟨[v], .cons hq .nil, readsItems_one hw hv hw'⟩
  | @more a as w t w' ts hw ht hw' _ ih =>
    obtain ⟨v, hq, hv⟩ := hp a t ht
    obtain ⟨vs, hqs, hvs⟩ := ih
    exact ⟨v :: vs, .cons hq hqs, readsItems_more hw hv hw' hvs⟩

theorem Parted.readsMembers {q : α → Wide × Value → Prop} (h : Parted p as t)
    (hp : ∀ a t, p a t → ∃ m, q a m ∧ ReadsMember k m t) : ∃ ms, List.Forall₂ q as ms ∧ ReadsMembers k ms t := by
  induction h with
  | @one a w t w' hw ht hw' =>
    obtain ⟨m, hq, hm⟩ := hp a t ht
    exact ⟨[m], .cons hq .nil, readsMembers_one hw hm hw'⟩
  | @more a as w t w' ts hw ht hw' _ ih =>
    obtain ⟨m, hq, hm⟩ := hp a t ht
    obtain ⟨ms, hqs, hms⟩ := ih
    exact ⟨m :: ms, .cons hq hqs, readsMembers_more hw hm hw' hms⟩

theorem readItems_bracket (room n : Nat) (r : List Char) : readItems room n (']' :: r) = .error .malformed := by
  match n with
  | 0 => rfl
  | 1 => rfl
  | _ + 2 => rfl

theorem readMembers_bracket (room n : Nat) (r : List Char) : readMembers room n es ('\x7d' :: r) = .error .malformed := by
  cases n <;> rfl

theorem reads_list_nil (hw : Spaces w) : Reads 1 (.list []) ('[' :: (w ++ [']'])) where
  starts := ⟨'[', _, rfl, by decide, by decide, by decide⟩
  read room n r hroom hn := by
    rw [ink_cons_of_not (by decide)] at hn
    obtain ⟨n, rfl⟩ := Nat.exists_eq_add_one_of_ne_zero (n := n) (by omega)
    obtain ⟨room, rfl⟩ := Nat.exists_eq_add_one_of_ne_zero (n := room) (by omega)
    rw [List.cons_append, List.append_assoc, List.singleton_append, unifyLineEnds_cons (by decide), readValue,
      hw.skip_to (by decide)]
    rfl

theorem ReadsItems.reads {vs : List Value} (h : ReadsItems k vs t) : Reads (k + 1) (.list vs) ('[' :: (t ++ [']'])) where
  starts := ⟨'[', _, rfl, by decide, by decide, by decide⟩
  read room n r hroom hn := by
    rw [ink_cons_of_not (by decide), ink_append] at hn
    obtain ⟨n, rfl⟩ := Nat.exists_eq_add_one_of_ne_zero (n := n) (by omega)
    obtain ⟨room, rfl⟩ := Nat.exists_eq_add_one_of_ne_zero (n := room) (by omega)
    have hread := h room n r (by omega) (by omega)
    rw [List.cons_append, List.append_assoc, List.singleton_append, unifyLineEnds_cons (by decide), readValue]
    split
    · next hb =>
      rw [hb, readItems_bracket] at hread
      cases hread
    · rw [hread]
      rfl

theorem reads_object_nil (hw : Spaces w) : Reads 1 (.object []) ('\x7b' :: (w ++ ['\x7d'])) where
  starts := ⟨'\x7b', _, rfl, by decide, by decide, by decide⟩
  read room n r hroom hn := by
    rw [ink_cons_of_not (by decide)] at hn
    obtain ⟨n, rfl⟩ := Nat.exists_eq_add_one_of_ne_zero (n := n) (by omega)
    obtain ⟨room, rfl⟩ := Nat.exists_eq_add_one_of_ne_zero (n := room) (by omega)
    rw [List.cons_append, List.append_assoc, List.singleton_append, unifyLineEnds_cons (by decide), readValue,
      hw.skip_to (by decide)]
    rfl

theorem ReadsMembers.reads {ms : List (Wide × Value)} (h : ReadsMembers k ms t) :
    Reads (k + 1) (.object (setEntries [] ms)) ('\x7b' :: (t ++ ['\x7d'])) where
  starts := ⟨'\x7b', _, rfl, by decide, by decide, by decide⟩
  read room n r hroom hn := by
    rw [ink_cons_of_not (by decide), ink_append] at hn
    obtain ⟨n, rfl⟩ := Nat.exists_eq_add_one_of_ne_zero (n := n) (by omega)
    obtain ⟨room, rfl⟩ := Nat.exists_eq_add_one_of_ne_zero (n := room) (by omega)
    have hread := h room n [] r (by omega) (by omega)
    rw [List.cons_append, List.append_assoc, List.singleton_append, unifyLineEnds_cons (by decide), readValue]
    split
    · next hb =>
      rw [hb, readMembers_bracket] at hread
      cases hread
    · rw [hread]
      rfl

/-- A list whose items are read is read. -/
theorem Enclosed.reads_list {q : α → Value → Prop} (h : Enclosed '[' ']' p as t)
    (hp : ∀ a t, p a t → ∃ v, q a v ∧ Reads k v t) : ∃ vs, List.Forall₂ q as vs ∧ Reads (k + 1) (.list vs) t := by
  cases h with
  | none hw => exact ⟨[], .nil, (reads_list_nil hw).mono (Nat.le_add_left 1 k)⟩
  | some ht =>
    obtain ⟨vs, hq, hvs⟩ := ht.readsItems hp
    exact ⟨vs, hq, hvs.reads⟩

/-- An object whose members are read is read; of members with one key the last one counts. -/
theorem Enclosed.reads_object {q : α → Wide × Value → Prop} (h : Enclosed '\x7b' '\x7d' p as t)
    (hp : ∀ a t, p a t → ∃ m, q a m ∧ ReadsMember k m t) :
    ∃ ms, List.Forall₂ q as ms ∧ Reads (k + 1) (.object (setEntries [] ms)) t := by
  cases h with
  | none hw => exact ⟨[], .nil, (reads_object_nil hw).mono (Nat.le_add_left 1 k)⟩
  | some ht =>
    obtain ⟨ms, hq, hms⟩ := ht.readsMembers hp
    exact ⟨ms, hq, hms.reads⟩

/-- A value is read from its text between white space. -/
theorem Reads.parse {w' : List Char} (h : Reads k v t) (hroom : k ≤ room) (hw : Spaces w) (hw' : Spaces w') :
    parse room (unifyLineEnds (w ++ (t ++ w'))) = .ok v := by
  have hink := ink_le_length (w ++ (t ++ w'))
  rw [ink_append, ink_append] at hink
  have hend := hw'.skip []
  rw [List.append_nil] at hend
  rw [Json.parse, h.skip hw, h.read room _ _ hroom (by omega)]
  simp only [bind, Except.bind, hend]
  rfl

end Hotload.Json
