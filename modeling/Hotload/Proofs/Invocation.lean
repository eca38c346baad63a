import Hotload.Proofs.Session
import Hotload.Proofs.Shelf
import Hotload.Proofs.Signature
import Hotload.Proofs.TypeTable.Document
import Hotload.Invocation
import Hotload.StandIn.Linker

/-!
Invoking an entry point of a native library. Nothing is called before the definition that is listed last under the name is
known to have no parameters and a result that can be decoded, and the symbol to be there. Then one call is made, and the
word that it returns always has a text. A symbol is asked for as an attribute, so it is not found under a name that the
opened library has for itself or reserves.
-/
namespace Hotload

namespace Invocation

variable {entry : String} {d : Definition} {as : Option NativeType}

/-- A result is asked for as what the definition says, unless that is a type without a native token. -/
theorem representation_cases (entry : String) (d : Definition) :
    (∃ as, d.Asks as ∧ representation entry d = .ok as) ∨
      ∃ t, d.result = some t ∧ (∀ n : NativeType, t.token ≠ n.info.token) ∧
        representation entry d = .error (.unsupportedReturn entry t.name) := by
  unfold representation Definition.Asks
  cases d.result with
  | none => exact .inl ⟨none, rfl, rfl⟩
  | some t =>
    obtain ⟨n, htoken, hn⟩ | ⟨htoken, hn⟩ := t.decoded_cases
    · exact .inl ⟨some n, congrArg some htoken, by simp only [hn]⟩
    · exact .inr ⟨t, rfl, htoken, by simp only [hn]⟩

/-- What is printed of a value: its native text, or nothing if nothing was asked for. -/
def Prints (as : Option NativeType) (v : Value) : Option String → Prop
  | some t => ∃ n, as = some n ∧ n.format v = .ok t
  | none => as = none

/-- A value has a text, or it fails to be converted, which is no failure of the tool's own. -/
theorem textOf_cases (as : Option NativeType) (v : Value) :
    (∃ t, textOf as v = .ok t ∧ Prints as v t) ∨
      ∃ f, textOf as v = .error f ∧ f.isOwn = false ∧ f.isOrdinary = true := by
  cases as with
  | none => exact .inl ⟨none, rfl, rfl⟩
  | some n =>
    cases hv : n.format v with
    | ok t => exact .inl ⟨some t, by rw [textOf, hv]; rfl, n, rfl, hv⟩
    | error f =>
      refine .inr ⟨f, by rw [textOf, hv]; rfl, ?_⟩
      unfold Failure.isOwn Failure.isOrdinary
      obtain hk | hk | hk := NativeType.format_error hv <;> rw [hk] <;> exact ⟨rfl, rfl⟩

theorem natAbs_bmod_lt (w : UInt64) : (Int.bmod w.toNat UInt64.size).natAbs < UInt64.size := by
  have hlower : -(UInt64.size / 2 : Int) ≤ Int.bmod w.toNat UInt64.size := Int.le_bmod (by decide)
  have hupper : Int.bmod w.toNat UInt64.size < (UInt64.size + 1) / 2 := Int.bmod_lt (by decide)
  omega

/-- Whatever word a call returns, it has a text. -/
theorem textOf_decodeWord (as : Option NativeType) (w : UInt64) :
    ∃ t, textOf as (Library.decodeWord as w) = .ok t ∧ Prints as (Library.decodeWord as w) t := by
  cases as with
  | none => exact ⟨none, rfl, rfl⟩
  | some n =>
    cases n with
    | bool | real => exact ⟨_, rfl, _, rfl, rfl⟩
    | integer =>
      have htext : NativeType.integer.format (Library.decodeWord (some .integer) w) = .ok _ :=
        (NativeType.format_integer rfl).trans (NativeType.integerText_of_lt (natAbs_bmod_lt w))
      exact ⟨some _, by rw [textOf, htext]; rfl, _, rfl, htext⟩

/-- The entry point is there, its result is of a type that can be decoded, and the call returned. -/
def Returns (entry : String) (s : Session) (as : Option NativeType) (v : Value) : Prop :=
  ∃ d, s.definition? entry = some d ∧ d.Asks as ∧ (s.call d as).1 = .ok v

theorem Returns.eq {s : Session} {bs : Option NativeType} {v w : Value} (h : Returns entry s as v)
    (h' : Returns entry s bs w) : as = bs ∧ v = w := by
  obtain ⟨d, hd, ha, hv⟩ := h
  obtain ⟨_, hd', hb, hw⟩ := h'
  cases hd.symm.trans hd'
  cases ha.eq hb
  exact ⟨rfl, Except.ok.inj (hv.symm.trans hw)⟩

theorem invoke_cases (entry : String) (s : Session) :
    (∃ as v, Returns entry s as v ∧ (invoke entry s).1 = textOf as v) ∨
      (¬∃ as v, Returns entry s as v) ∧ ∃ f, (invoke entry s).1 = .error f := by
  unfold invoke
  cases hd : s.definition? entry with
  | none =>
    refine .inr ⟨?_, _, rfl⟩
    rintro ⟨as, v, d, hd', -⟩
    rw [hd] at hd'
    cases hd'
  | some d =>
    obtain ⟨as, ha, hrep⟩ | ⟨t, ht, htoken, hrep⟩ := representation_cases entry d
    · simp only [plan, hrep, Except.map]
      rcases hcall : s.call d as with ⟨f | v, s'⟩
      · refine .inr ⟨?_, reportFailure entry f, by rw [callAs, hcall]; rfl⟩
        rintro ⟨bs, v, _, hd', hb, hv⟩
        cases hd.symm.trans hd'
        cases ha.eq hb
        rw [hcall] at hv
        cases hv
      · exact .inl ⟨as, v, ⟨d, hd, ha, by rw [hcall]⟩, by rw [callAs, hcall]; rfl⟩
    · simp only [plan, hrep, Except.map]
      refine .inr ⟨?_, _, rfl⟩
      rintro ⟨as, v, _, hd', ha, -⟩
      cases hd.symm.trans hd'
      exact Definition.not_asks ht htoken ha

theorem stdout_invoke (entry : String) (s : Session) : (invoke entry s).2.host.stdout = s.host.stdout := by
  unfold invoke
  split
  · rfl
  · unfold callAs report
    dsimp only
    split <;> rfl

theorem platform_invoke (entry : String) (s : Session) : (invoke entry s).2.host.platform = s.host.platform := by
  unfold invoke
  split
  · rfl
  · unfold callAs report
    dsimp only
    split <;> rfl

theorem shelf_report (entry : String) (as : Option NativeType) (r : Outcome Value) (s : Session) :
    (report entry as r s).2.host.shelf = s.host.shelf := by
  cases r <;> rfl

/-- The linker finds a function under a name as an attribute of a library: that is open, has no attribute of its own of that
name, and does not reserve it. -/
structure Linked (l : Library) (image : Image) (entry : String) (w : UInt64) : Prop where
  isOpen : l.closes = 0
  not_own : image.own entry = none
  not_reserved : Image.isReserved entry = false
  exported : image.exported entry = some w

/-- What is called notes that it was, and no more. -/
theorem kept_invoke (entry : String) (s : Session) :
    (invoke entry s).2.host.shelf.size = s.host.shelf.size ∧
      ∀ id, (invoke entry s).2.host.shelf.closes id = s.host.shelf.closes id := by
  unfold invoke
  split
  · exact ⟨rfl, fun _ => rfl⟩
  · next d as _ =>
    simp only [callAs, shelf_report]
    exact ⟨s.host.shelf.size_call s.handle.active d as, s.host.shelf.closes_call s.handle.active d as⟩

/-- What invoking an entry point comes to, with the calls that are made, for the definition that was found. -/
inductive Course (l : Library) (image : Image) (entry : String) (found : Option Definition) :
    Outcome (Option String) → List Call → Prop where
  | missing : found = none → Course l image entry found (.error (.noEntryPoint entry)) []
  | unsupported {d : Definition} {t : TypeInfo} : found = some d → d.result = some t →
      (∀ n : NativeType, t.token ≠ n.info.token) →
      Course l image entry found (.error (.unsupportedReturn entry t.name)) []
  | parameters {d : Definition} {as : Option NativeType} : found = some d → d.Asks as → d.parameters ≠ [] →
      Course l image entry found (.error (.callFailed entry (.argumentsExpected entry d.parameters.length))) []
  | symbol {d : Definition} {as : Option NativeType} : found = some d → d.Asks as → d.parameters = [] →
      (if l.closes = 0 then image.own entry = none else image.remains entry = none) →
      (l.closes = 0 → Image.isReserved entry = true ∨ image.exported entry = none) →
      Course l image entry found (.error (.callFailed entry (.missingSymbol entry l.path.toString))) []
  /-- No function is called, but something that the library itself has under the name. -/
  | own {d : Definition} {as : Option NativeType} {r : Outcome Value} : found = some d → d.Asks as → d.parameters = [] →
      (if l.closes = 0 then image.own entry = some r else image.remains entry = some r) →
      Course l image entry found ((r.mapError (reportFailure entry)).bind (textOf as)) []
  | called {d : Definition} {as : Option NativeType} {w : UInt64} {t : Option String} : found = some d → d.Asks as →
      d.parameters = [] → Linked l image entry w → Prints as (Library.decodeWord as w) t →
      Course l image entry found (.ok t) [(entry, as)]

variable {l : Library} {table : TypeTable} {image : Image} {found : Option Definition}
  {r : Outcome (Option String)} {made : List Call}

theorem report_eq (entry : String) (as : Option NativeType) (r : Outcome Value) (s : Session) :
    (report entry as r s).1 = (r.mapError (reportFailure entry)).bind (textOf as) := by
  cases r <;> rfl

/-- A native library that is called makes the call itself, or it has not come to that. -/
theorem course_call (he : l.exports = .native table image) (hn : d.name = .text entry) (ha : d.Asks as) (s : Session) :
    ∃ made, (l.call d as).2 = made.foldl Library.note l ∧
      Course l image entry (some d) (report entry as (l.call d as).1 s).1 made := by
  unfold Library.call Library.attribute? Library.isOpen Image.attribute?
  simp only [he, hn, Value.shown, report_eq]
  by_cases hp : d.parameters = []
  case neg =>
    rw [if_neg fun h => hp (List.isEmpty_iff.1 h)]
    exact ⟨[], rfl, .parameters rfl ha hp⟩
  rw [if_pos (List.isEmpty_iff.2 hp)]
  by_cases ho : l.closes = 0
  case neg =>
    rw [if_neg fun h => ho (of_decide_eq_true h)]
    cases hr : image.remains entry with
    | none => exact ⟨[], rfl, .symbol rfl ha hp (by rwa [if_neg ho]) fun hc => absurd hc ho⟩
    | some r => exact ⟨[], rfl, .own rfl ha hp (by rwa [if_neg ho])⟩
  rw [if_pos (decide_eq_true ho)]
  cases hown : image.own entry with
  | some r => exact ⟨[], rfl, .own rfl ha hp (by rwa [if_pos ho])⟩
  | none =>
    cases hres : Image.isReserved entry with
    | true => exact ⟨[], rfl, .symbol rfl ha hp (by rwa [if_pos ho]) fun _ => .inl hres⟩
    | false =>
      cases hw : image.exported entry with
      | none => exact ⟨[], rfl, .symbol rfl ha hp (by rwa [if_pos ho]) fun _ => .inr hw⟩
      | some w =>
        obtain ⟨t, ht, hprints⟩ := textOf_decodeWord as w
        have hcourse := Course.called rfl ha hp ⟨ho, hown, hres, hw⟩ hprints
        rw [← ht] at hcourse
        exact ⟨[(entry, as)], rfl, hcourse⟩

/-- There is one call at the most, and it is made if all that has to be known before it is. -/
theorem Course.mem_iff (h : Course l image entry found r made) (c : Call) :
    c ∈ made ↔ ∃ d w, found = some d ∧ d.parameters = [] ∧ d.Asks c.2 ∧ c.1 = entry ∧ Linked l image entry w := by
  cases h with
  | missing hf => simp [hf]
  | unsupported hf hr ht =>
    simp only [List.not_mem_nil, hf, Option.some.injEq, false_iff, not_exists]
    rintro d w ⟨rfl, -, ha, -⟩
    exact Definition.not_asks hr ht ha
  | parameters hf ha hp =>
    simp only [List.not_mem_nil, hf, Option.some.injEq, false_iff, not_exists]
    rintro d w ⟨rfl, hnil, -⟩
    exact hp hnil
  | symbol hf ha hp hnone hs =>
    simp only [List.not_mem_nil, hf, Option.some.injEq, false_iff, not_exists]
    rintro d w ⟨rfl, -, -, -, hw⟩
    obtain hs | hs := hs hw.isOpen
    · exact absurd (hs.symm.trans hw.not_reserved) nofun
    · exact absurd (hs.symm.trans hw.exported) nofun
  | own hf ha hp hown =>
    simp only [List.not_mem_nil, hf, Option.some.injEq, false_iff, not_exists]
    rintro d w ⟨rfl, -, -, -, hw⟩
    rw [if_pos hw.isOpen] at hown
    exact absurd (hown.symm.trans hw.not_own) nofun
  | @called d as w t hf ha hp hw ht =>
    simp only [List.mem_singleton, hf, Option.some.injEq]
    constructor
    · rintro rfl
      exact ⟨d, w, rfl, hp, ha, rfl, hw⟩
    · rintro ⟨_, _, rfl, -, hc, he, -⟩
      exact Prod.ext he (hc.eq ha)

theorem Course.length_le (h : Course l image entry found r made) : made.length ≤ 1 := by
  cases h <;> simp

/-- What is found under the entry point in a native library decides what comes of it. -/
theorem invoke_course {s : Session} (hl : s.host.shelf.get? s.handle.active = some l)
    (he : l.exports = .native table image) (hn : ∀ d, s.definition? entry = some d → d.name = .text entry) :
    ∃ made, (invoke entry s).2.host.shelf.libraries =
        s.host.shelf.libraries.set s.handle.active (made.foldl Library.note l) ∧
      Course l image entry (s.definition? entry) (invoke entry s).1 made := by
  obtain ⟨hactive, hl'⟩ := List.getElem?_eq_some_iff.1 hl
  have hsame : s.host.shelf.libraries = s.host.shelf.libraries.set s.handle.active l := by
    rw [← hl', List.set_getElem_self]
  unfold invoke
  cases hd : s.definition? entry with
  | none => exact ⟨[], hsame, .missing rfl⟩
  | some d =>
    obtain ⟨as, ha, hrep⟩ | ⟨t, ht, htoken, hrep⟩ := representation_cases entry d
    · have hcall : (s.call d as).1 = (l.call d as).1 := by
        simp only [Session.call, Handle.call, Shelf.call, hl]
      have hshelf : (s.call d as).2.host.shelf.libraries = s.host.shelf.libraries.set s.handle.active (l.call d as).2 :=
        Shelf.libraries_call_of_get? d as hl
      obtain ⟨made, hmade, hcourse⟩ := course_call he (hn d hd) ha (s.call d as).2
      rw [← hcall] at hcourse
      rw [hmade] at hshelf
      simp only [plan, hrep]
      refine ⟨made, ?_, hcourse⟩
      rw [← hshelf]
      exact congrArg _ (shelf_report entry as _ _)
    · simp only [plan, hrep]
      exact ⟨[], hsame, .unsupported rfl ht htoken⟩

/-- An entry point of a library whose type table was read. The definition that counts is the one that is listed last under
the name. A call is made just if there is one, it declares no parameters, its result has the token of a native type or there
is none, the library is open, and the symbol is there under a name that the library neither has for itself nor reserves;
there is no other call. What it returns is printed in its native format, or not at all if nothing was asked for. What the
library has for itself is taken for the function, and in every other case nothing is printed and the failure says which it
was. -/
theorem invoke_native {s : Session} {spare : Nat} {disk : Files.Disk} {p : Files.Path}
    (hr : TypeTable.read spare disk p = .ok table) (hl : s.host.shelf.get? s.handle.active = some l)
    (he : l.exports = .native table image) (entry : String) :
    ∃ entries made, TypeTable.Lists spare disk p entries ∧
      let found := TypeTable.last? (entries.filterMap TypeTable.definitionOf?) entry
      (invoke entry s).2.host.shelf.libraries =
          s.host.shelf.libraries.set s.handle.active (made.foldl Library.note l) ∧
        made.length ≤ 1 ∧
        (∀ c, c ∈ made ↔ ∃ d w, found = some d ∧ d.parameters = [] ∧ d.Asks c.2 ∧ c.1 = entry ∧
          Linked l image entry w) ∧
        Course l image entry found (invoke entry s).1 made := by
  obtain ⟨entries, hlists, hget⟩ := TypeTable.get?_of_read hr
  have hlook : s.definition? entry = TypeTable.last? (entries.filterMap TypeTable.definitionOf?) entry := by
    change (s.host.shelf.get? s.handle.active).bind _ = _
    rw [hl, Option.bind_some, Library.definition?, he]
    exact hget entry
  obtain ⟨made, hlibraries, hcourse⟩ := invoke_course hl he fun d hd => TypeTable.name_of_last? (hlook ▸ hd)
  rw [hlook] at hcourse
  exact ⟨entries, made, hlists, hlibraries, hcourse.length_le, hcourse.mem_iff, hcourse⟩

/-- A library with one function. -/
def onlyLibrary (g : Signature) (word : UInt64) : Library :=
  .new Host.libraryPath (.native [(.text g.name, g.definition)] (StandIn.image [(g.name, word)])) none

/-- A session with that library. -/
def onlySession (g : Signature) (word : UInt64) : Session :=
  ⟨{ Host.bare with shelf := ⟨[onlyLibrary g word], [], 0⟩ }, .native Host.bare.platform.loader,
    .new Host.libraryPath Delay.standard 0⟩

/-- Its type table. -/
def onlyTable (g : Signature) : Files.Disk :=
  TypeTable.onlyTable (String.ofList (Json.write (TypeTable.listing [g])).toList).toUTF8

variable {g : Signature}

theorem read_onlyTable (g : Signature) :
    TypeTable.read 0 (onlyTable g) TypeTable.onlyPath = .ok [(.text g.name, g.definition)] :=
  (TypeTable.document_write [g]).read (TypeTable.readFile_onlyTable _)

/-- A library with one function, which returns an integer. -/
theorem invoke_native_integer :
    let g : Signature := ⟨"main", [], some "core::i64", by decide⟩
    TypeTable.read 0 (onlyTable g) TypeTable.onlyPath = .ok [(.text "main", g.definition)] ∧
      (onlySession g 42).host.shelf.get? 0 = some (onlyLibrary g 42) ∧
      (onlyLibrary g 42).exports = .native [(.text "main", g.definition)] (StandIn.image [("main", 42)]) ∧
      (invoke "main" (onlySession g 42)).1 = .ok (some "42") ∧
      (invoke "main" (onlySession g 42)).2.host.shelf.libraries = [(onlyLibrary g 42).note ("main", some .integer)] := by
  intro g
  obtain ⟨entries, made, hlists, hlibraries, hlength, hmem, hcourse⟩ :=
    invoke_native (s := onlySession g 42) (read_onlyTable g) rfl rfl "main"
  rw [(TypeTable.document_write [g]).definitions (TypeTable.readFile_onlyTable _) hlists] at hmem hcourse
  have hfound : TypeTable.last? ([g].map (·.definition)) "main" = some g.definition := rfl
  have hmade : ("main", some .integer) ∈ made :=
    (hmem _).2 ⟨g.definition, 42, hfound, rfl, rfl, rfl, rfl, rfl, rfl, rfl⟩
  refine ⟨read_onlyTable g, rfl, rfl, ?_⟩
  generalize invoke "main" (onlySession g 42) = x at hlibraries hcourse
  obtain ⟨r, s'⟩ := x
  cases hcourse with
  | missing | unsupported | parameters | symbol | own => cases hmade
  | @called d as w t hd ha hp hw ht =>
    cases List.mem_singleton.1 hmade
    cases hw.exported
    cases t with
    | none => cases ht
    | some t =>
      obtain ⟨n, hn, ht⟩ := ht
      cases hn
      have htext : NativeType.integer.format (Library.decodeWord (some .integer) 42) = .ok "42" := by
        have hword : Library.decodeWord (some .integer) 42 = .int 42 := congrArg Value.int (by decide +kernel)
        rw [hword]
        exact (NativeType.format_integer rfl).trans (NativeType.integerText_of_lt (by decide))
      cases htext.symm.trans ht
      exact ⟨rfl, hlibraries⟩

/-- A function without parameters that returns an integer. -/
def integral (name : String) : Signature :=
  ⟨name, [], some "core::i64", by decide⟩

/-- A function that is listed and exported, of an open library with nothing else, and that is not called. -/
structure Denied (g : Signature) : Prop where
  listed : TypeTable.read 0 (onlyTable g) TypeTable.onlyPath = .ok [(.text g.name, g.definition)]
  found : (onlySession g 7).definition? g.name = some g.definition
  parameters : g.definition.parameters = []
  asks : g.definition.Asks (some .integer)
  isOpen : (onlyLibrary g 7).closes = 0
  exported : (StandIn.image [(g.name, 7)]).exported g.name = some 7
  failed : ∃ f, (invoke g.name (onlySession g 7)).1 = .error (.callFailed g.name f)
  uncalled : (invoke g.name (onlySession g 7)).2.host.shelf.libraries = [onlyLibrary g 7]

/-- The library has something of its own under such a name, or nothing at all. -/
theorem denied_of_reserved {name : String} (h : Image.isReserved name = true) : Denied (integral name) := by
  let g := integral name
  have hfound : (onlySession g 7).definition? name = some g.definition :=
    (TypeTable.get?_enter [] g.definition name).trans (if_pos (Definition.isNamed_iff.2 rfl))
  have hasks : g.definition.Asks (some .integer) := rfl
  have hword : (StandIn.image [(name, 7)]).exported name = some 7 := by simp [StandIn.image, valueAt?]
  have hnamed : ∀ d, (onlySession g 7).definition? name = some d → d.name = .text name := by
    intro d hd
    cases hfound.symm.trans hd
    rfl
  obtain ⟨made, hlibraries, hcourse⟩ := invoke_course (s := onlySession g 7) (l := onlyLibrary g 7) rfl rfl hnamed
  rw [hfound] at hcourse
  have hdenied : (∃ f, (invoke name (onlySession g 7)).1 = .error (.callFailed name f)) ∧
      (invoke name (onlySession g 7)).2.host.shelf.libraries = [onlyLibrary g 7] := by
    generalize invoke name (onlySession g 7) = x at hlibraries hcourse
    obtain ⟨r, s'⟩ := x
    cases hcourse with
    | missing hd => cases hd
    | unsupported hd hr ht =>
      cases hd
      exact absurd hasks (Definition.not_asks hr ht)
    | parameters hd ha hp =>
      cases hd
      exact absurd rfl hp
    | symbol => exact ⟨⟨_, rfl⟩, hlibraries⟩
    | own hd ha hp hown =>
      -- of these names only that of the dictionary is one that the library has for itself
      have hdictionary : (StandIn.image [(name, 7)]).own name = some _ := hown
      dsimp only [StandIn.image] at hdictionary
      split at hdictionary
      · cases hdictionary
        exact ⟨⟨_, rfl⟩, hlibraries⟩
      · cases hdictionary
    | called hd ha hp hw => cases h.symm.trans hw.not_reserved
  exact ⟨read_onlyTable g, hfound, rfl, hasks, rfl, hword, hdenied.1, hdenied.2⟩

/-- The dictionary of the library is asked to be a function, and the other name is not asked for. -/
theorem invoke_native_fails : Denied (integral "__dict__") ∧ Denied (integral "__start__") :=
  ⟨denied_of_reserved (by decide), denied_of_reserved (by decide)⟩

end Invocation

end Hotload
