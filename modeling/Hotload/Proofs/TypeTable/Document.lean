import Hotload.Proofs.Files.Write
import Hotload.Proofs.Json.Reader
import Hotload.Proofs.Json.Writer
import Hotload.Proofs.TypeTable.Lookup
import Hotload.TypeTable.Document

/-!
Type tables that are written are read. An entry is read as an object that gives the definition of its signature, whatever the
order and the spelling of its members, and so what is read is a table that has every name of the list once, with the
definition of the last signature that has it.
-/
namespace Hotload

open Json
open Text (Wide)

theorem exists_of_forall₂ {α β : Type} {q : α → β → Prop} {as : List α} {bs : List β} (h : List.Forall₂ q as bs) :
    (∀ a ∈ as, ∃ b ∈ bs, q a b) ∧ ∀ b ∈ bs, ∃ a ∈ as, q a b := by
  induction h with
  | nil => simp
  | @cons a b as bs hab _ ih =>
    simp only [List.forall_mem_cons, List.exists_mem_cons_iff]
    exact ⟨⟨.inl hab, fun a ha => .inr (ih.1 a ha)⟩, .inl hab, fun b hb => .inr (ih.2 b hb)⟩

namespace Signature

variable {g : Signature} {fs : List Field} {ms : List (Wide × Value)} {t : List Char}

/-- What a member of an entry is read as. -/
def Gives (g : Signature) : Field → Wide × Value → Prop
  | .name, m => m = (.plain "name", .text g.name)
  | .parameters, m => m = (.plain "arg_types", .list (g.parameters.map .text))
  | .result, m => m = (.plain "return_type", g.resultValue)
  | .other, m => ∀ key ∈ keys, m.1 ≠ .plain key

theorem reads_parameters {ps : List String} (h : Enclosed '[' ']' Quotes ps t) : Reads 1 (.list (ps.map .text)) t := by
  obtain ⟨vs, hvs, hr⟩ := h.reads_list (q := fun s v => v = .text s) fun s _ hs => ⟨.text s, rfl, hs.reads⟩
  have hmap : vs = ps.map .text := by
    clear hr h
    induction hvs with
    | nil => rfl
    | cons hv _ ih => rw [hv, ih, List.map_cons]
  rwa [hmap] at hr

theorem reads_result (h : WritesResult g.result t) : Reads 0 g.resultValue t := by
  unfold resultValue
  cases hg : g.result with
  | none =>
    rw [hg] at h
    cases h
    exact reads_null
  | some s =>
    rw [hg] at h
    exact Quotes.reads h

theorem Writes.reads {f : Field} (h : g.Writes f t) : ∃ m, g.Gives f m ∧ ReadsMember 1 m t := by
  cases f with
  | name => exact ⟨_, rfl, Keyed.reads h fun _ hx => (Quotes.reads hx).mono (Nat.zero_le 1)⟩
  | parameters => exact ⟨_, rfl, Keyed.reads h fun _ => reads_parameters⟩
  | result => exact ⟨_, rfl, Keyed.reads h fun _ hx => (reads_result hx).mono (Nat.zero_le 1)⟩
  | other => exact Keyed.reads_other h fun _ hx => hx.reads.imp fun _ hv => hv.mono (Nat.zero_le 1)

/-- What stands under a key, if one kind of member has it. -/
theorem valueAt?_of_gives {k : Wide} {v : Value} {f : Field} (h : List.Forall₂ g.Gives fs ms)
    (hf : ∀ m, g.Gives f m → m = (k, v)) (hk : ∀ f' m, g.Gives f' m → m.1 = k → f' = f) :
    valueAt? k (setEntries [] ms) = some v ∨ valueAt? k (setEntries [] ms) = none ∧ f ∉ fs := by
  obtain ⟨hfs, hms⟩ := exists_of_forall₂ h
  have hall : ∀ m ∈ ms, m.1 = k → m.2 = v := by
    intro m hm hmk
    obtain ⟨f', -, hgives⟩ := hms m hm
    cases hk f' m hgives hmk
    rw [hf m hgives]
  obtain ⟨_, hv, rfl⟩ | ⟨hv, hno⟩ := valueAt?_setEntries (p := (· = v)) [] hall
  · exact .inl hv
  · refine .inr ⟨hv, fun hmem => ?_⟩
    obtain ⟨m, hm, hgives⟩ := hfs f hmem
    exact hno m hm (by rw [hf m hgives])

theorem entryParts_of_gives (malformed : Failure) (h : List.Forall₂ g.Gives fs ms) (hc : g.Covers fs) :
    TypeTable.entryParts malformed (.object (setEntries [] ms)) =
      .ok (.text g.name, g.parameters.map TypeInfo.of, g.resultValue) := by
  have hname : valueAt? (.plain "name") (setEntries [] ms) = some (.text g.name) := by
    refine (valueAt?_of_gives (f := .name) h (fun m hm => hm) fun f' m hm hk => ?_).resolve_right fun hno => hno.2 hc.name
    cases f' <;> simp_all [Gives, keys]
  have hparameters : (valueAt? (.plain "arg_types") (setEntries [] ms)).getD (.list []) = .list (g.parameters.map .text) := by
    obtain hv | ⟨hv, hno⟩ := valueAt?_of_gives (f := .parameters) h (fun m hm => hm)
      (fun f' m hm hk => by cases f' <;> simp_all [Gives, keys])
    · rw [hv, Option.getD_some]
    · have hnil : g.parameters = [] := Decidable.byContradiction fun hne => hno (hc.parameters hne)
      rw [hv, hnil]
      rfl
  have hresult : (valueAt? (.plain "return_type") (setEntries [] ms)).getD .null = g.resultValue := by
    obtain hv | ⟨hv, hno⟩ := valueAt?_of_gives (f := .result) h (fun m hm => hm)
      (fun f' m hm hk => by cases f' <;> simp_all [Gives, keys])
    · rw [hv, Option.getD_some]
    · have hnone : g.result = none := Decidable.byContradiction fun hne => hno (hc.result hne)
      rw [hv, resultValue, hnone]
      rfl
  simp only [TypeTable.entryParts, hname, hparameters, hresult, TypeTable.parameterTypes_texts]
  rfl

theorem resultOf_resultValue (g : Signature) : TypeTable.resultOf g.resultValue = .ok (g.result.map TypeInfo.of) := by
  unfold resultValue
  cases hg : g.result with
  | none => rfl
  | some s =>
    have hs : s ≠ "" := fun h => g.result_ne (h ▸ hg)
    simp [TypeTable.resultOf, TypeTable.typeOf, Value.truthy, hs, Except.map]

/-- A value that is entered as a signature. -/
def Enters (g : Signature) (v : Value) : Prop :=
  ∀ path t, TypeTable.addEntry path t v = .ok (t.enter g.definition)

theorem Entry.reads (h : g.Entry t) : ∃ v, g.Enters v ∧ Reads 2 v t := by
  obtain ⟨fs, hc, ht⟩ := h
  obtain ⟨ms, hms, hr⟩ := ht.reads_object fun f t => Writes.reads
  refine ⟨_, fun path table => ?_, hr⟩
  rw [TypeTable.addEntry, entryParts_of_gives _ hms hc]
  change (TypeTable.resultOf g.resultValue >>= fun result => _) = _
  rw [resultOf_resultValue]
  rfl

theorem result_write (g : Signature) : WritesResult g.result (write g.resultValue).toList := by
  unfold resultValue
  cases g.result with
  | none => rfl
  | some s => exact quotes_writeText s

theorem entry_write (g : Signature) : g.Entry (write g.entry).toList := by
  refine ⟨[.name, .parameters, .result], ⟨by simp, fun _ => by simp, fun _ => by simp⟩, ?_⟩
  rw [entry, toList_write_record]
  exact enclosed_intercalate _ _
    (.cons (keyed_write _ (quotes_writeText _))
      (.cons (keyed_write _ (enclosed_write_list _ quotes_writeText)) (.cons (keyed_write _ g.result_write) .nil)))

end Signature

namespace TypeTable

variable {gs : List Signature} {ps : List Part} {ms : List (Wide × Value)} {t : TypeTable} {path : String}

/-- Every list of signatures has a text: it is written by the writer. -/
theorem document_write (gs : List Signature) : Document gs (write (listing gs)).toList := by
  have hfunctions : Writes gs .functions _ := keyed_write "functions" (enclosed_write_list gs Signature.entry_write)
  refine ⟨[.functions], [], _, [], List.mem_singleton_self _, spaces_nil, ?_, spaces_nil, by
    rw [List.nil_append, List.append_nil]⟩
  rw [listing, toList_write_record]
  rw [List.map_singleton]
  exact enclosed_intercalate _ _ (.cons hfunctions .nil)

theorem foldlM_enters {vs : List Value} (h : List.Forall₂ Signature.Enters gs vs) :
    vs.foldlM (addEntry path) t = .ok ((gs.map (·.definition)).foldl enter t) := by
  induction h generalizing t with
  | nil => rfl
  | cons hv _ ih =>
    rw [List.foldlM_cons, hv]
    exact ih

/-- What a member of a table is read as. -/
def Gives (gs : List Signature) : Part → Wide × Value → Prop
  | .functions, m => ∃ vs, List.Forall₂ Signature.Enters gs vs ∧ m = (.plain "functions", .list vs)
  | .other, m => m.1 ≠ .plain "functions"

theorem Writes.reads {p : Part} {u : List Char} (h : Writes gs p u) : ∃ m, Gives gs p m ∧ ReadsMember 3 m u := by
  cases p with
  | functions =>
    obtain ⟨k, w, w', x, hk, hw, hw', hx, rfl⟩ := h
    obtain ⟨vs, hvs, hr⟩ := Enclosed.reads_list hx fun g t => Signature.Entry.reads
    have hkeyed : Keyed (Quotes "functions") (· = x) _ := ⟨k, w, w', x, hk, hw, hw', rfl, rfl⟩
    exact ⟨_, ⟨vs, hvs, rfl⟩, hkeyed.reads fun _ hx => hx ▸ hr⟩
  | other =>
    obtain ⟨m, hm, hr⟩ := Keyed.reads_other h fun _ hx => hx.reads.imp fun _ hv => hv.mono (Nat.zero_le 3)
    exact ⟨m, hm _ List.mem_cons_self, hr⟩

/-- What is read is an object whose functions are entered as the signatures, one after another. -/
theorem Document.parse {room : Nat} {u : List Char} (h : Document gs u) (hroom : levels ≤ room) :
    ∃ es vs, Json.parse room (Text.unifyLineEnds u) = .ok (.object es) ∧
      valueAt? (.plain "functions") es = some (.list vs) ∧
      List.Forall₂ Signature.Enters gs vs := by
  obtain ⟨ps, w, x, w', hps, hw, hx, hw', rfl⟩ := h
  obtain ⟨ms, hms, hr⟩ := hx.reads_object fun p t => Writes.reads
  obtain ⟨hparts, hmembers⟩ := exists_of_forall₂ hms
  have hall : ∀ m ∈ ms, m.1 = .plain "functions" → ∃ vs, List.Forall₂ Signature.Enters gs vs ∧ m.2 = .list vs := by
    intro m hm hkey
    obtain ⟨p, -, hgives⟩ := hmembers m hm
    cases p with
    | functions =>
      obtain ⟨vs, hvs, rfl⟩ := hgives
      exact ⟨vs, hvs, rfl⟩
    | other => exact absurd hkey hgives
  obtain ⟨_, hv, vs, hvs, rfl⟩ | ⟨-, hno⟩ := valueAt?_setEntries
    (p := fun v => ∃ vs, List.Forall₂ Signature.Enters gs vs ∧ v = Value.list vs) [] hall
  · exact ⟨_, vs, hr.parse hroom hw hw', hv, hvs⟩
  · obtain ⟨m, hm, vs, -, rfl⟩ := hparts _ hps
    exact absurd rfl (hno _ hm)

theorem fromUTF8?_toUTF8 (s : String) : String.fromUTF8? s.toUTF8 = some s := by
  have hs : s.toUTF8.IsValidUTF8 := s.isValidUTF8
  rw [String.fromUTF8?, dif_pos hs]
  rfl

theorem parse_toUTF8 {spare : Nat} {s : String} {v : Value}
    (h : Json.parse (levels + spare) (Text.unifyLineEnds s.toList) = .ok v) : TypeTable.parse spare s.toUTF8 = .ok v := by
  rw [TypeTable.parse, fromUTF8?_toUTF8]
  dsimp only
  rw [h]

theorem isKeyed_foldl_enter (h : t.IsKeyed) : ((gs.map (·.definition)).foldl enter t).IsKeyed := by
  induction gs generalizing t with
  | nil => exact h
  | cons g gs ih => exact ih (h.enter rfl)

theorem isNamed_definition (g : Signature) (s : String) : g.definition.isNamed s = true ↔ g.name = s := by
  rw [Definition.isNamed_iff]
  exact ⟨Value.text.inj, congrArg Value.text⟩

/-- The definition that counts is that of the last signature with the name. -/
theorem last?_definitions {s : String} {d : Definition} :
    last? (gs.map (·.definition)) s = some d ↔ ∃ g : Signature, g.Latest gs ∧ g.name = s ∧ g.definition = d := by
  rw [last?, ← List.map_reverse, List.find?_map, Option.map_eq_some_iff]
  refine exists_congr fun g => ?_
  rw [List.find?_eq_some_iff_append, ← and_assoc]
  refine and_congr_left' ?_
  simp only [Function.comp_apply, isNamed_definition, Bool.not_eq_true', ← Bool.not_eq_true]
  constructor
  · rintro ⟨rfl, as, bs, hgs, has⟩
    refine ⟨⟨bs.reverse, as.reverse, ?_, fun g' hg' => has g' (List.mem_reverse.1 hg')⟩, rfl⟩
    rw [← List.reverse_reverse gs, hgs]
    simp
  · rintro ⟨⟨bs, as, rfl, has⟩, rfl⟩
    exact ⟨rfl, as.reverse, bs.reverse, by simp, fun g' hg' => has g' (List.mem_reverse.1 hg')⟩

section

variable {disk : Files.Disk} {p : Files.Path} {u : List Char} {spare : Nat}

theorem Document.value (h : Document gs u) (spare : Nat)
    (hf : disk.readFile p = .ok (String.ofList u).toUTF8) :
    ∃ es vs, (disk.readFile p >>= TypeTable.parse spare) = .ok (.object es) ∧
      valueAt? (.plain "functions") es = some (.list vs) ∧ List.Forall₂ Signature.Enters gs vs := by
  obtain ⟨es, vs, hparse, hes, hvs⟩ := h.parse (Nat.le_add_right levels spare)
  refine ⟨es, vs, ?_, hes, hvs⟩
  rw [hf]
  exact parse_toUTF8 (by rwa [String.toList_ofList])

/-- The definitions of the signatures are entered one after another. -/
theorem Document.read (h : Document gs u) (hf : disk.readFile p = .ok (String.ofList u).toUTF8) :
    read spare disk p = .ok ((gs.map (·.definition)).foldl enter []) := by
  obtain ⟨es, vs, hvalue, hes, hvs⟩ := h.value spare hf
  rw [TypeTable.read, hvalue]
  dsimp only [ofValue]
  rw [hes]
  exact foldlM_enters hvs

theorem definitionOf?_of_enters {g : Signature} {v : Value} (h : g.Enters v) : definitionOf? v = some g.definition := by
  obtain ⟨d, hd, henter⟩ := addEntry_ok (h "" [])
  obtain ⟨-, rfl⟩ := Prod.mk.inj (List.cons.inj henter).1
  exact hd

/-- The entries that are listed are those of the signatures. -/
theorem Document.definitions {entries : List Value} (h : Document gs u)
    (hf : disk.readFile p = .ok (String.ofList u).toUTF8) (hl : Lists spare disk p entries) :
    entries.filterMap definitionOf? = gs.map (·.definition) := by
  obtain ⟨es, vs, hvalue, hes, hvs⟩ := h.value spare hf
  obtain ⟨es', hvalue', hes'⟩ := hl
  cases hvalue.symm.trans hvalue'
  cases hes.symm.trans hes'
  clear h hes hes' hvalue hvalue'
  induction hvs with
  | nil => rfl
  | cons hv _ ih => rw [List.filterMap_cons_some (definitionOf?_of_enters hv), ih, List.map_cons]

/-- Signatures that are written as a type table are read, however little room there is beyond that for them. What is read
is the table that has each of their names once, with the definition of the last signature that has it: the types in their
order, each with its name and the digest of that. -/
theorem read_document (spare : Nat) (h : Document gs u) (hf : disk.readFile p = .ok (String.ofList u).toUTF8) :
    ∃ t, read spare disk p = .ok t ∧ (t.map (·.1)).Nodup ∧
      ∀ e, e ∈ t ↔ ∃ g : Signature, g.Latest gs ∧ e = (.text g.name, g.definition) := by
  have hkeyed : ((gs.map (·.definition)).foldl enter []).IsKeyed := isKeyed_foldl_enter ⟨[], rfl, List.nodup_nil⟩
  refine ⟨_, h.read hf, hkeyed.nodup, fun e => ?_⟩
  simp only [hkeyed.mem_iff, get?_entered, last?_definitions]
  constructor
  · rintro ⟨s, hs, g, hg, rfl, hd⟩
    exact ⟨g, hg, Prod.ext hs hd.symm⟩
  · rintro ⟨g, hg, rfl⟩
    exact ⟨g.name, rfl, g, hg, rfl, rfl⟩

end

/-- A disk with nothing on it but a type table. -/
def onlyTable (content : ByteArray) : Files.Disk :=
  ⟨⟨[(["mod.so.types.json"], .file content 0)]⟩, [], 950⟩

def onlyPath : Files.Path :=
  ⟨.rooted, ["mod.so.types.json"]⟩

theorem readFile_onlyTable (content : ByteArray) : (onlyTable content).readFile onlyPath = .ok content := by
  have hlook : (onlyTable content).look ⟨true, false⟩ onlyPath = .ok (.found ["mod.so.types.json"] (.file content 0)) :=
    Files.Disk.look_eq_ok.2 ⟨by decide, by decide, .file ⟨by decide, by decide, by decide, by decide⟩ rfl⟩
  rw [Files.Disk.readFile, hlook]

/-- One name twice, the second time with an escape in it, on lines of their own and with the members in another order. -/
theorem read_document_repeated :
    let gs : List Signature := [⟨"main", [], none, by decide⟩, ⟨"main", [], some "core::i64", by decide⟩]
    let u := ("\x7b\"functions\": [\x7b\"name\": \"main\"\x7d,\r\n" ++
      "\x7b\"return_type\":\"core::i64\", \"name\": \"m\\u0061in\"\x7d] \x7d").toList
    Document gs u ∧ (onlyTable (String.ofList u).toUTF8).readFile onlyPath = .ok (String.ofList u).toUTF8 ∧
      ∃ t, read 0 (onlyTable (String.ofList u).toUTF8) onlyPath = .ok t ∧ (t.map (·.1)).Nodup ∧
        ∀ e, e ∈ t ↔ ∃ g : Signature, g.Latest gs ∧ e = (.text g.name, g.definition) := by
  intro gs u
  have hline : Spaces ['\r', '\n'] := by simp [Spaces]
  have hunit : IsUnit 'a'.toNat "0061".toList := by decide
  have hname : Quotes "main" "\"m\\u0061in\"".toList :=
    ⟨_, .plain (by decide) (.unit hunit (.plain (by decide) (.plain (by decide) .nil))), rfl⟩
  have hfirst : Signature.Entry ⟨"main", [], none, by decide⟩ "\x7b\"name\": \"main\"\x7d".toList := by
    refine Eq.subst (motive := Signature.Entry _) ?_ ⟨[.name], ⟨by simp, by simp, by simp⟩,
      .some (.one spaces_nil (keyed_write "name" (quotes_writeText "main")) spaces_nil)⟩
    decide
  have hsecond : Signature.Entry ⟨"main", [], some "core::i64", by decide⟩
      "\x7b\"return_type\":\"core::i64\", \"name\": \"m\\u0061in\"\x7d".toList := by
    refine Eq.subst (motive := Signature.Entry _) ?_ ⟨[.result, .name], ⟨by simp, by simp, by simp⟩,
      .some (.more spaces_nil
        ⟨_, [], [], _, quotes_writeText "return_type", spaces_nil, spaces_nil, quotes_writeText "core::i64", rfl⟩ spaces_nil
        (.one spaces_blank (keyed_write "name" hname) spaces_nil))⟩
    decide
  have hdocument : Document gs u := by
    refine Eq.subst (motive := Document _) ?_ ⟨[.functions], [], _, [], by simp, spaces_nil,
      .some (.one spaces_nil (keyed_write "functions" (.some
        (.more spaces_nil hfirst spaces_nil (.one hline hsecond spaces_nil)))) spaces_blank), spaces_nil, rfl⟩
    decide
  have hread := readFile_onlyTable (String.ofList u).toUTF8
  exact ⟨hdocument, hread, read_document 0 hdocument hread⟩

end TypeTable

end Hotload
