import Hotload.TypeTable
import Mathlib.Data.List.Nodup

/-!
What a name is looked up as in a type table. A table is entered definition by definition, and a text is the same name as no
other value, so the definition that is found for a text is the last one that was entered under it. Every entry of a table
that is read gives one definition.
-/
namespace Hotload

/-- Whether a definition stands under a text as its name. -/
def Definition.isNamed (name : String) (d : Definition) : Bool :=
  match d.name with
  | .text s => s = name
  | _ => false

theorem Definition.isNamed_iff {d : Definition} {name : String} : d.isNamed name = true ↔ d.name = .text name := by
  obtain ⟨n, ps, r⟩ := d
  cases n <;> simp [isNamed]

namespace TypeTable

variable {t t' : TypeTable} {d : Definition} {s path : String} {v n : Value}

theorem sameName_text : sameName v (.text s) = true ↔ v = .text s := by
  cases v <;> simp [sameName, numeric?]

theorem text_sameName : sameName (.text s) v = true ↔ v = .text s := by
  cases v with
  | text s' => simp [sameName, eq_comm]
  | null | bool | int | real | ragged | bytes | path | list | object | foreign => simp [sameName, numeric?]

theorem get?_cons_self (s : String) (d : Definition) (t : TypeTable) : get? ((.text s, d) :: t) s = some d := by
  simp [get?, sameName]

theorem get?_cons_of_ne (h : n ≠ .text s) (d : Definition) (t : TypeTable) : get? ((n, d) :: t) s = get? t s := by
  have hn : sameName n (.text s) = false := Bool.eq_false_iff.2 fun hs => h (sameName_text.1 hs)
  simp [get?, hn]

theorem get?_insert_self (s : String) (d : Definition) (t : TypeTable) : get? (insert (.text s) d t) s = some d := by
  induction t with
  | nil => exact get?_cons_self s d []
  | cons e t ih =>
    obtain ⟨m, e⟩ := e
    by_cases hm : m = .text s
    · rw [insert, if_pos (sameName_text.2 hm), hm, get?_cons_self]
    · rw [insert, if_neg fun h => hm (sameName_text.1 h), get?_cons_of_ne hm, ih]

theorem get?_insert_of_ne (h : n ≠ .text s) (d : Definition) (t : TypeTable) : get? (insert n d t) s = get? t s := by
  induction t with
  | nil => exact get?_cons_of_ne h d []
  | cons e t ih =>
    obtain ⟨m, e⟩ := e
    by_cases hm : m = .text s
    · subst hm
      rw [insert, if_neg fun hs => h (text_sameName.1 hs), get?_cons_self, get?_cons_self]
    · rw [insert]
      split
      · rw [get?_cons_of_ne hm, get?_cons_of_ne hm]
      · rw [get?_cons_of_ne hm, get?_cons_of_ne hm, ih]

/-- Enters a definition under its name. -/
def enter (t : TypeTable) (d : Definition) : TypeTable :=
  insert d.name d t

/-- The last of some definitions that stands under a name. -/
def last? (ds : List Definition) (s : String) : Option Definition :=
  ds.reverse.find? (·.isNamed s)

theorem name_of_last? {ds : List Definition} (h : last? ds s = some d) : d.name = .text s := by
  have hnamed := List.find?_some h
  exact Definition.isNamed_iff.1 hnamed

theorem get?_enter (t : TypeTable) (d : Definition) (s : String) :
    get? (t.enter d) s = if d.isNamed s then some d else get? t s := by
  by_cases h : d.name = .text s
  · rw [if_pos (Definition.isNamed_iff.2 h), enter, h, get?_insert_self]
  · rw [if_neg fun hn => h (Definition.isNamed_iff.1 hn), enter, get?_insert_of_ne h]

/-- What is found is the last definition that was entered under the name. -/
theorem get?_foldl_enter (ds : List Definition) (t : TypeTable) (s : String) :
    get? (ds.foldl enter t) s = (last? ds s).or (get? t s) := by
  induction ds generalizing t with
  | nil => rfl
  | cons d ds ih =>
    rw [List.foldl_cons, ih, get?_enter, last?, last?, List.reverse_cons, List.find?_append, Option.or_assoc]
    congr 1
    rw [List.find?_singleton]
    split <;> rfl

theorem get?_entered (ds : List Definition) (s : String) : get? (ds.foldl enter []) s = last? ds s := by
  rw [get?_foldl_enter]
  exact Option.or_none

/-- A table whose names are texts, each one once. -/
def IsKeyed (t : TypeTable) : Prop :=
  ∃ ss : List String, t.map (·.1) = ss.map .text ∧ ss.Nodup

theorem keys_insert {ss : List String} (h : t.map (·.1) = ss.map .text) (s : String) (d : Definition) :
    (t.insert (.text s) d).map (·.1) = (if s ∈ ss then ss else ss ++ [s]).map .text := by
  induction ss generalizing t with
  | nil =>
    rw [List.map_eq_nil_iff.1 h]
    rfl
  | cons k ss ih =>
    obtain ⟨e, t, rfl, hk, ht⟩ := List.map_eq_cons_iff.1 h
    obtain ⟨_, e⟩ := e
    cases hk
    by_cases hs : k = s
    · rw [insert, if_pos (sameName_text.2 (congrArg Value.text hs)), if_pos (hs ▸ List.mem_cons_self)]
      exact h
    · rw [insert, if_neg fun hn => hs (Value.text.inj (sameName_text.1 hn)), List.map_cons, ih ht]
      simp only [List.mem_cons, Ne.symm hs, false_or]
      split <;> rfl

theorem IsKeyed.enter (h : t.IsKeyed) (hd : d.name = .text s) : (t.enter d).IsKeyed := by
  obtain ⟨ss, hss, hnodup⟩ := h
  have hkeys := keys_insert hss s d
  rw [← hd] at hkeys
  refine ⟨_, hkeys, ?_⟩
  split
  · exact hnodup
  · next hs =>
    rw [← List.concat_eq_append]
    exact List.Nodup.concat hs hnodup

theorem IsKeyed.nodup (h : t.IsKeyed) : (t.map (·.1)).Nodup := by
  obtain ⟨ss, hss, hnodup⟩ := h
  rw [hss]
  exact List.Nodup.map (fun _ _ => Value.text.inj) hnodup

theorem mem_of_get? (h : t.get? s = some d) : (.text s, d) ∈ t := by
  obtain ⟨e, he, rfl⟩ := Option.map_eq_some_iff.1 h
  have hs := List.find?_some he
  rw [sameName_text] at hs
  exact hs ▸ List.mem_of_find?_eq_some he

/-- In a table whose names are texts, what it holds is what is found. -/
theorem IsKeyed.mem_iff (h : t.IsKeyed) (e : Value × Definition) : e ∈ t ↔ ∃ s, e.1 = .text s ∧ t.get? s = some e.2 := by
  constructor
  · intro he
    obtain ⟨ss, hss, -⟩ := id h
    obtain ⟨s, -, hs⟩ := List.mem_map.1 (hss ▸ List.mem_map_of_mem he)
    have hsome : (List.find? (fun e => sameName e.1 (.text s)) t).isSome := by
      rw [List.find?_isSome]
      exact ⟨e, he, sameName_text.2 hs.symm⟩
    obtain ⟨e', he'⟩ := Option.isSome_iff_exists.1 hsome
    have hget : t.get? s = some e'.2 := congrArg (Option.map _) he'
    have heq := List.inj_on_of_nodup_map h.nodup (mem_of_get? hget) he hs
    exact ⟨s, hs.symm, heq ▸ hget⟩
  · rintro ⟨s, hs, hget⟩
    have hmem := mem_of_get? hget
    rwa [← hs] at hmem

theorem parameterTypes_texts (malformed : Failure) (ss : List String) :
    parameterTypes malformed (.list (ss.map .text)) = .ok (ss.map TypeInfo.of) := by
  rw [parameterTypes]
  change (ss.map Value.text).mapM (typeOf malformed) = _
  rw [List.mapM_map]
  induction ss with
  | nil => rfl
  | cons s ss ih =>
    rw [List.mapM_cons, ih]
    rfl

/-- The definition that an entry gives, if it has the shape of one. -/
def definitionOf? (entry : Value) : Option Definition :=
  match entryParts (.malformedEntry "" entry) entry with
  | .ok (name, parameters, result) => (resultOf result).toOption.map fun result => ⟨name, parameters, result⟩
  | .error _ => none

theorem checkName_ok {name name' : Value} (h : checkName name = .ok name') : name' = name := by
  cases name <;> cases h <;> rfl

theorem mapM_typeOf_congr {vs : List Value} {ts : List TypeInfo} {f g : Failure} (h : vs.mapM (typeOf f) = .ok ts) :
    vs.mapM (typeOf g) = .ok ts := by
  induction vs generalizing ts with
  | nil => exact h
  | cons v vs ih =>
    rw [List.mapM_cons] at h ⊢
    obtain ⟨u, hu, h⟩ := Outcome.bind_ok h
    obtain ⟨us, hus, h⟩ := Outcome.bind_ok h
    cases v with
    | text s =>
      cases hu
      rw [ih hus]
      exact h
    | _ => cases hu

/-- What an entry gives does not depend on what is said if it gives nothing. -/
theorem entryParts_congr {entry : Value} {parts : Value × List TypeInfo × Value} {f g : Failure}
    (h : entryParts f entry = .ok parts) : entryParts g entry = .ok parts := by
  cases entry with
  | object es =>
    rw [entryParts] at h ⊢
    split at h
    · obtain ⟨ts, hts, h⟩ := Outcome.bind_ok h
      have hts' : parameterTypes g ((valueAt? (.plain "arg_types") es).getD (.list [])) = .ok ts := by
        unfold parameterTypes at hts ⊢
        split at hts
        · exact mapM_typeOf_congr hts
        · cases hts
      rw [hts']
      exact h
    · cases h
  | _ => cases h

theorem addEntry_ok {entry : Value} (h : addEntry path t entry = .ok t') :
    ∃ d, definitionOf? entry = some d ∧ t' = t.enter d := by
  obtain ⟨⟨name, parameters, result⟩, hparts, h⟩ := Outcome.bind_ok h
  obtain ⟨r, hr, h⟩ := Outcome.bind_ok h
  obtain ⟨name', hn, h⟩ := Outcome.bind_ok h
  cases h
  refine ⟨⟨name, parameters, r⟩, ?_, ?_⟩
  · rw [definitionOf?, entryParts_congr hparts]
    dsimp only
    rw [hr]
    rfl
  · rw [checkName_ok hn]
    rfl

theorem foldlM_addEntry {entries : List Value} (h : entries.foldlM (addEntry path) t = .ok t') :
    t' = (entries.filterMap definitionOf?).foldl enter t := by
  induction entries generalizing t with
  | nil =>
    cases h
    rfl
  | cons e entries ih =>
    rw [List.foldlM_cons] at h
    cases ha : addEntry path t e with
    | error f =>
      rw [ha] at h
      cases h
    | ok t₁ =>
      rw [ha] at h
      obtain ⟨d, hd, rfl⟩ := addEntry_ok ha
      rw [List.filterMap_cons_some hd, List.foldl_cons]
      exact ih h

/-- The entries that a type table lists, if there is room to read it. -/
def Lists (spare : Nat) (d : Files.Disk) (p : Files.Path) (entries : List Value) : Prop :=
  ∃ es, (d.readFile p >>= parse spare) = .ok (.object es) ∧ valueAt? (.plain "functions") es = some (.list entries)

/-- What is read are the definitions of the entries, and of those under one name the last one is found. -/
theorem get?_of_read {spare : Nat} {disk : Files.Disk} {p : Files.Path} (h : read spare disk p = .ok t) :
    ∃ entries, Lists spare disk p entries ∧ ∀ s, get? t s = last? (entries.filterMap definitionOf?) s := by
  unfold read at h
  split at h
  · next v hv =>
    unfold ofValue at h
    split at h
    · next es =>
      split at h
      · next entries hes =>
        refine ⟨entries, ⟨es, hv, hes⟩, fun s => ?_⟩
        rw [foldlM_addEntry h, get?_entered]
      · cases h
    · cases h
  · split at h
    · cases h
    · split at h <;> cases h

end TypeTable

end Hotload
