import Hotload.Proofs.TypeTable.Document
import Mathlib

/-!
Which entries a type table may have. The documented shape is let through, and so is some more: names that are no texts,
parameters given as one text or as an object, results that are nothing in some other way. What is not let through is
refused as malformed, or it fails with a failure of its own: a type whose name has no bytes is not expected, and the type
of the result and the name are looked at too late. The first entry that is not let through decides.
-/
namespace Hotload.TypeTable

variable {disk : Files.Disk} {p : Files.Path} {path : String} {t : TypeTable} {v n entry : Value} {f : Failure}
  {entries vs : List Value} {spare : Nat}

def isText : Value → Bool
  | .text _ => true
  | _ => false

def IsText (v : Value) : Prop :=
  ∃ s, v = .text s

/-- A text, which may be ragged. -/
def IsString (v : Value) : Prop :=
  IsText v ∨ ∃ r, v = .ragged r

def IsStrings (v : Value) : Prop :=
  ∃ vs, v = .list vs ∧ ∀ x ∈ vs, IsString x

/-- What names of types can be taken from, one after another: a list, the letters of a text, the keys of an object. -/
def IsSeries (v : Value) : Prop :=
  ∃ vs, listed? v = some vs ∧ ∀ x ∈ vs, IsText x

/-- A ragged text comes first among what is no text, where names of types are to be. -/
def Torn (r : Text.Ragged) (v : Value) : Prop :=
  ∃ vs, listed? v = some vs ∧ vs.find? (!isText ·) = some (.ragged r)

def IsCompound (v : Value) : Prop :=
  (∃ vs, v = .list vs) ∨ ∃ es, v = .object es

/-- A text, or what counts as no result. -/
def IsResult (v : Value) : Prop :=
  v.truthy = false ∨ IsText v

/-- An object with a name, and perhaps with parameters and a result. -/
def Shaped (name parameters result : Value → Prop) (entry : Value) : Prop :=
  ∃ es n, entry = .object es ∧ valueAt? (.plain "name") es = some n ∧ name n ∧
    (∀ v, valueAt? (.plain "arg_types") es = some v → parameters v) ∧
      ∀ v, valueAt? (.plain "return_type") es = some v → result v

/-- The documented shape of an entry. -/
def Proper (entry : Value) : Prop :=
  Shaped IsString IsStrings (fun v => v = .null ∨ IsString v) entry

/-- The shape of the entries that are let through. -/
def Admitted (entry : Value) : Prop :=
  Shaped (¬IsCompound ·) IsSeries IsResult entry

/-- Entries without a name, or with parameters that are no names of types. -/
def Malformed (entry : Value) : Prop :=
  ¬Shaped (fun _ => True) (fun v => IsSeries v ∨ ∃ r, Torn r v) (fun _ => True) entry

/-- What comes of a value that is no text where the name of a type is to be. -/
def faultOf (noText : Failure) : Value → Failure
  | .ragged r => .loneHalves r
  | _ => noText

/-- Entries that are neither let through nor malformed: the name of a type has no bytes, the result is no text, or else the
name is a list or an object. -/
inductive Escapes (entry : Value) : Failure → Prop where
  | parameters {es : List (Text.Wide × Value)} {v : Value} {r : Text.Ragged} : entry = .object es → ¬Malformed entry →
      valueAt? (.plain "arg_types") es = some v → Torn r v → Escapes entry (.loneHalves r)
  | result {es : List (Text.Wide × Value)} {v : Value} : entry = .object es →
      Shaped (fun _ => True) IsSeries (fun _ => True) entry → valueAt? (.plain "return_type") es = some v →
      ¬IsResult v → Escapes entry (faultOf (.unencodable v.kindName) v)
  | name {es : List (Text.Wide × Value)} {n : Value} : entry = .object es →
      Shaped (fun _ => True) IsSeries IsResult entry → valueAt? (.plain "name") es = some n → IsCompound n →
      Escapes entry (.unhashable n.kindName)

/-- What comes of an entry that is not let through. -/
def Refuses (path : String) (entry : Value) (f : Failure) : Prop :=
  Malformed entry ∧ f = .malformedEntry path entry ∨ Escapes entry f

/-- The first of some entries that is not let through. -/
def First (q : Value → Prop) (entries : List Value) : Prop :=
  ∃ as e bs, entries = as ++ e :: bs ∧ (∀ a ∈ as, Admitted a) ∧ q e

theorem Shaped.mono {name name' parameters parameters' result result' : Value → Prop}
    (h : Shaped name parameters result entry) (hn : ∀ v, name v → name' v) (hp : ∀ v, parameters v → parameters' v)
    (hr : ∀ v, result v → result' v) : Shaped name' parameters' result' entry := by
  obtain ⟨es, n, rfl, hes, hname, hparameters, hresult⟩ := h
  exact ⟨es, n, rfl, hes, hn n hname, fun v hv => hp v (hparameters v hv), fun v hv => hr v (hresult v hv)⟩

theorem isText_iff : isText v = true ↔ IsText v := by
  cases v <;> simp [isText, IsText]

theorem typeOf_eq (noText : Failure) (h : ¬IsText v) : typeOf noText v = .error (faultOf noText v) := by
  cases v with
  | text s => exact absurd ⟨s, rfl⟩ h
  | _ => rfl

/-- Names of types are taken up to the first that is no text. -/
theorem mapM_typeOf (noText : Failure) (vs : List Value) :
    (∀ x ∈ vs, IsText x) ∧ (∃ ts, vs.mapM (typeOf noText) = .ok ts) ∨
      ∃ v, vs.find? (!isText ·) = some v ∧ vs.mapM (typeOf noText) = .error (faultOf noText v) := by
  induction vs with
  | nil => exact .inl ⟨by simp, [], rfl⟩
  | cons v vs ih =>
    by_cases hv : IsText v
    · have hskip : (v :: vs).find? (!isText ·) = vs.find? (!isText ·) :=
        List.find?_cons_of_neg (by simp [isText_iff.2 hv])
      rw [hskip, List.mapM_cons, List.forall_mem_cons]
      obtain ⟨s, rfl⟩ := hv
      obtain ⟨hvs, ts, hts⟩ | ⟨x, hx, hmap⟩ := ih
      · refine .inl ⟨⟨⟨s, rfl⟩, hvs⟩, .of s :: ts, ?_⟩
        rw [hts]
        rfl
      · refine .inr ⟨x, hx, ?_⟩
        rw [hmap]
        rfl
    · have hother : (!isText v) = true := by rw [Bool.not_eq_true', ← Bool.not_eq_true, isText_iff]; exact hv
      refine .inr ⟨v, List.find?_cons_of_pos hother, ?_⟩
      rw [List.mapM_cons, typeOf_eq noText hv]
      rfl

theorem not_isText_of_find? {x : Value} (h : vs.find? (!isText ·) = some x) : ¬∀ y ∈ vs, IsText y := by
  intro hall
  have hx := List.find?_some h
  rw [isText_iff.2 (hall x (List.mem_of_find?_eq_some h))] at hx
  cases hx

/-- What is listed gives types, or a ragged text breaks that off, or it is malformed. -/
theorem parameterTypes_cases (malformed : Failure) (v : Value) :
    IsSeries v ∧ (∀ r, ¬Torn r v) ∧ (∃ ts, parameterTypes malformed v = .ok ts) ∨
      ¬IsSeries v ∧ ((∃ r, Torn r v ∧ parameterTypes malformed v = .error (.loneHalves r) ∧ ∀ r', Torn r' v → r' = r) ∨
        (∀ r, ¬Torn r v) ∧ parameterTypes malformed v = .error malformed) := by
  unfold parameterTypes IsSeries Torn
  cases listed? v with
  | none => simp
  | some vs =>
    simp only [Option.some.injEq, exists_eq_left']
    obtain ⟨hvs, hts⟩ | ⟨x, hx, hmap⟩ := mapM_typeOf malformed vs
    · exact .inl ⟨hvs, fun r hr => not_isText_of_find? hr hvs, hts⟩
    · refine .inr ⟨not_isText_of_find? hx, ?_⟩
      rw [hx, hmap]
      simp only [Option.some.injEq]
      cases x with
      | ragged r => exact .inl ⟨r, rfl, rfl, fun r' hr => (Value.ragged.inj hr).symm⟩
      | _ => exact .inr ⟨by rintro _ ⟨⟩, rfl⟩

/-- What holds of a default and of every value under a key holds of what is there or stands for it. -/
theorem getD_iff {q : Value → Prop} {o : Option Value} {d : Value} (hd : q d) :
    q (o.getD d) ↔ ∀ v, o = some v → q v := by
  cases o <;> simp [hd]

theorem isSeries_nil : IsSeries (.list []) :=
  ⟨[], rfl, by simp⟩

theorem not_torn_nil (r : Text.Ragged) : ¬Torn r (.list []) := by
  rintro ⟨vs, hvs, hr⟩
  cases hvs
  cases hr

theorem isResult_null : IsResult .null :=
  .inl rfl

section

variable {es : List (Text.Wide × Value)}

/-- What an object gives as parameters, and as result. -/
def parametersIn (es : List (Text.Wide × Value)) : Value :=
  (valueAt? (.plain "arg_types") es).getD (.list [])

def resultIn (es : List (Text.Wide × Value)) : Value :=
  (valueAt? (.plain "return_type") es).getD .null

/-- The shape of an object with a name is a matter of that, of the parameters and of the result. -/
theorem shaped_iff {name parameters result : Value → Prop} (hn : valueAt? (.plain "name") es = some n)
    (hp : parameters (.list [])) (hr : result .null) :
    Shaped name parameters result (.object es) ↔ name n ∧ parameters (parametersIn es) ∧ result (resultIn es) := by
  rw [parametersIn, resultIn, getD_iff hp, getD_iff hr]
  constructor
  · rintro ⟨_, _, hes, hn', hname, hparameters, hresult⟩
    cases hes
    cases hn.symm.trans hn'
    exact ⟨hname, hparameters, hresult⟩
  · rintro ⟨hname, hparameters, hresult⟩
    exact ⟨es, n, rfl, hn, hname, hparameters, hresult⟩

theorem malformed_iff (hn : valueAt? (.plain "name") es = some n) :
    Malformed (.object es) ↔ ¬(IsSeries (parametersIn es) ∨ ∃ r, Torn r (parametersIn es)) := by
  rw [Malformed, shaped_iff hn (.inl isSeries_nil) trivial]
  simp

theorem torn_iff {r : Text.Ragged} :
    Torn r (parametersIn es) ↔ ∃ v, valueAt? (.plain "arg_types") es = some v ∧ Torn r v := by
  unfold parametersIn
  cases valueAt? (.plain "arg_types") es <;> simp [not_torn_nil]

theorem not_isResult_iff : ¬IsResult (resultIn es) ↔ ∃ v, valueAt? (.plain "return_type") es = some v ∧ ¬IsResult v := by
  unfold resultIn
  cases valueAt? (.plain "return_type") es <;> simp [isResult_null]

theorem admitted_iff (hn : valueAt? (.plain "name") es = some n) :
    Admitted (.object es) ↔ ¬IsCompound n ∧ IsSeries (parametersIn es) ∧ IsResult (resultIn es) :=
  shaped_iff hn isSeries_nil isResult_null

theorem escapes_iff (hn : valueAt? (.plain "name") es = some n) :
    Escapes (.object es) f ↔
      (∃ r, Torn r (parametersIn es) ∧ f = .loneHalves r) ∨
        IsSeries (parametersIn es) ∧
          (¬IsResult (resultIn es) ∧ f = faultOf (.unencodable (resultIn es).kindName) (resultIn es) ∨
            IsResult (resultIn es) ∧ IsCompound n ∧ f = .unhashable n.kindName) := by
  constructor
  · rintro (⟨hes, -, hv, hr⟩ | ⟨hes, hs, hv, hr⟩ | ⟨hes, hs, hn', hc⟩)
    · cases hes
      exact .inl ⟨_, torn_iff.2 ⟨_, hv, hr⟩, rfl⟩
    · cases hes
      refine .inr ⟨((shaped_iff hn isSeries_nil trivial).1 hs).2.1, .inl ?_⟩
      rw [resultIn, hv, Option.getD_some]
      exact ⟨hr, rfl⟩
    · cases hes
      cases hn.symm.trans hn'
      obtain ⟨-, hseries, hresult⟩ := (shaped_iff hn isSeries_nil isResult_null).1 hs
      exact .inr ⟨hseries, .inr ⟨hresult, hc, rfl⟩⟩
  · rintro (⟨r, hr, rfl⟩ | ⟨hseries, ⟨hr, rfl⟩ | ⟨hr, hc, rfl⟩⟩)
    · obtain ⟨v, hv, hvr⟩ := torn_iff.1 hr
      exact .parameters rfl (by rw [malformed_iff hn, not_not]; exact .inr ⟨r, hr⟩) hv hvr
    · obtain ⟨v, hv, hvr⟩ := not_isResult_iff.1 hr
      have hresult : resultIn es = v := by rw [resultIn, hv, Option.getD_some]
      rw [hresult]
      exact .result rfl ((shaped_iff hn isSeries_nil trivial).2 ⟨trivial, hseries, trivial⟩) hv hvr
    · exact .name rfl ((shaped_iff hn isSeries_nil isResult_null).2 ⟨trivial, hseries, hr⟩) hn hc

theorem resultOf_cases (v : Value) :
    IsResult v ∧ (∃ r, resultOf v = .ok r) ∨ ¬IsResult v ∧ resultOf v = .error (faultOf (.unencodable v.kindName) v) := by
  cases ht : v.truthy with
  | false => exact .inl ⟨.inl ht, none, by simp [resultOf, ht]⟩
  | true =>
    rw [resultOf, if_pos ht]
    by_cases hv : IsText v
    · obtain ⟨s, rfl⟩ := hv
      exact .inl ⟨.inr ⟨s, rfl⟩, some (.of s), rfl⟩
    · refine .inr ⟨by simp [IsResult, ht, hv], ?_⟩
      rw [typeOf_eq _ hv]
      rfl

theorem checkName_cases (v : Value) :
    ¬IsCompound v ∧ checkName v = .ok v ∨ IsCompound v ∧ checkName v = .error (.unhashable v.kindName) := by
  cases v with
  | list vs => exact .inr ⟨.inl ⟨vs, rfl⟩, rfl⟩
  | object es => exact .inr ⟨.inr ⟨es, rfl⟩, rfl⟩
  | null | bool | int | real | text | ragged | bytes | path | foreign => exact .inl ⟨by simp [IsCompound], rfl⟩

/-- An entry without a name is malformed. -/
theorem unnamed (h : ∀ es n, entry = .object es → valueAt? (.plain "name") es ≠ some n) :
    Malformed entry ∧ ∀ f, entryParts f entry = .error f := by
  constructor
  · rintro ⟨es, n, hes, hn, -⟩
    exact h es n hes hn
  · intro f
    cases entry with
    | object es =>
      cases hn : valueAt? (.plain "name") es with
      | none => simp only [entryParts, hn]
      | some n => exact absurd hn (h es n rfl)
    | _ => rfl

theorem addEntry_of_error {g : Failure} (h : entryParts (.malformedEntry path entry) entry = .error g) :
    addEntry path t entry = .error g := by
  rw [addEntry, h]
  rfl

/-- An entry with a name is entered as its parameters, its result and its name allow, in this order. -/
theorem addEntry_object (hn : valueAt? (.plain "name") es = some n) :
    addEntry path t (.object es) = do
      let parameters ← parameterTypes (.malformedEntry path (.object es)) (parametersIn es)
      let result ← resultOf (resultIn es)
      let name ← checkName n
      return insert name ⟨name, parameters, result⟩ t := by
  rw [addEntry, entryParts]
  simp only [hn]
  change (parameterTypes _ (parametersIn es) >>= fun parameters => _) >>= _ = _
  cases parameterTypes (.malformedEntry path (.object es)) (parametersIn es) <;> rfl

end

/-- An entry is let through, or it is refused in one way. -/
theorem addEntry_cases (path : String) (t : TypeTable) (entry : Value) :
    Admitted entry ∧ (∀ f, ¬Refuses path entry f) ∧ (∃ t', addEntry path t entry = .ok t') ∨
      ¬Admitted entry ∧ ∃ f, addEntry path t entry = .error f ∧ ∀ g, Refuses path entry g ↔ g = f := by
  by_cases hnamed : ∃ es n, entry = .object es ∧ valueAt? (.plain "name") es = some n
  · obtain ⟨es, n, rfl, hn⟩ := hnamed
    simp only [Refuses, malformed_iff hn, admitted_iff hn, escapes_iff hn, addEntry_object hn]
    obtain ⟨hs, hno, ts, hts⟩ | ⟨hs, ⟨r, hr, hts, hunique⟩ | ⟨hno, hts⟩⟩ :=
      parameterTypes_cases (.malformedEntry path (.object es)) (parametersIn es)
    · obtain ⟨hr, r, hresult⟩ | ⟨hr, hresult⟩ := resultOf_cases (resultIn es)
      · obtain ⟨hc, hcheck⟩ | ⟨hc, hcheck⟩ := checkName_cases n
        · refine .inl ⟨⟨hc, hs, hr⟩, by simp [hs, hr, hc, hno], ?_⟩
          rw [hts, hresult, hcheck]
          exact ⟨_, rfl⟩
        · refine .inr ⟨by simp [hc], .unhashable n.kindName, ?_, by simp [hs, hr, hc, hno]⟩
          rw [hts, hresult, hcheck]
          rfl
      · refine .inr ⟨by simp [hr], faultOf (.unencodable (resultIn es).kindName) (resultIn es), ?_, by simp [hs, hr, hno]⟩
        rw [hts, hresult]
        rfl
    · refine .inr ⟨by simp [hs], .loneHalves r, ?_, fun g => ?_⟩
      · rw [hts]
        rfl
      · have htorn : (∃ r', Torn r' (parametersIn es) ∧ g = .loneHalves r') ↔ g = .loneHalves r :=
          ⟨fun ⟨r', hr', hg⟩ => hunique r' hr' ▸ hg, fun hg => ⟨r, hr, hg⟩⟩
        simp only [hs, htorn, false_and, or_false, false_or, not_exists, or_iff_right_iff_imp]
        exact fun h => absurd hr (h.1 r)
    · refine .inr ⟨by simp [hs], .malformedEntry path (.object es), ?_, by simp [hs, hno]⟩
      rw [hts]
      rfl
  · have hno : ∀ es n, entry = .object es → valueAt? (.plain "name") es ≠ some n :=
      fun es n hes hn => hnamed ⟨es, n, hes, hn⟩
    obtain ⟨hm, hparts⟩ := unnamed hno
    refine .inr ⟨?_, .malformedEntry path entry, addEntry_of_error (hparts _), fun g => ?_⟩
    · rintro ⟨es, n, hes, hn, -⟩
      exact hno es n hes hn
    · have hescapes : ¬Escapes entry g := by
        rintro (⟨-, h, -⟩ | ⟨-, ⟨es, n, hes, hn, -⟩, -⟩ | ⟨-, ⟨es, n, hes, hn, -⟩, -⟩)
        · exact h hm
        · exact hno es n hes hn
        · exact hno es n hes hn
      simp [Refuses, hm, hescapes]

theorem addEntry_ok_iff (path : String) (t : TypeTable) : (∃ t', addEntry path t entry = .ok t') ↔ Admitted entry := by
  obtain ⟨ha, -, h⟩ | ⟨ha, f, hf, -⟩ := addEntry_cases path t entry
  · exact iff_of_true h ha
  · refine iff_of_false ?_ ha
    rintro ⟨t', h⟩
    cases hf.symm.trans h

theorem addEntry_error_iff : addEntry path t entry = .error f ↔ Refuses path entry f := by
  obtain ⟨-, hno, t', h⟩ | ⟨-, g, hg, hiff⟩ := addEntry_cases path t entry
  · refine iff_of_false (fun hf => ?_) (hno f)
    cases h.symm.trans hf
  · rw [hg, hiff, Except.error.injEq, eq_comm]

theorem foldlM_ok_iff (path : String) (t : TypeTable) :
    (∃ t', entries.foldlM (addEntry path) t = .ok t') ↔ ∀ e ∈ entries, Admitted e := by
  induction entries generalizing t with
  | nil => exact ⟨fun _ => nofun, fun _ => ⟨t, rfl⟩⟩
  | cons e entries ih =>
    rw [List.foldlM_cons, List.forall_mem_cons, ← addEntry_ok_iff path t]
    cases ha : addEntry path t e with
    | error f => exact ⟨nofun, nofun⟩
    | ok t₁ => exact (ih t₁).trans (by simp)

/-- Reading fails as the first entry does that is not let through. -/
theorem foldlM_error_iff (path : String) (t : TypeTable) :
    entries.foldlM (addEntry path) t = .error f ↔ First (Refuses path · f) entries := by
  induction entries generalizing t with
  | nil =>
    refine ⟨nofun, ?_⟩
    rintro ⟨as, e, bs, h, -⟩
    simp at h
  | cons e entries ih =>
    rw [List.foldlM_cons]
    cases ha : addEntry path t e with
    | error g =>
      have he : ¬Admitted e := fun h => by
        obtain ⟨t', ht⟩ := (addEntry_ok_iff path t).2 h
        cases ha.symm.trans ht
      constructor
      · rintro h
        cases h
        exact ⟨[], e, entries, rfl, nofun, addEntry_error_iff.1 ha⟩
      · rintro ⟨as, e', bs, hes, has, hf⟩
        cases as with
        | nil =>
          cases hes
          cases ha.symm.trans (addEntry_error_iff.2 hf)
          rfl
        | cons a as =>
          cases hes
          exact absurd (has e List.mem_cons_self) he
    | ok t₁ =>
      have he : Admitted e := (addEntry_ok_iff _ _).1 ⟨t₁, ha⟩
      refine (ih t₁).trans ⟨?_, ?_⟩
      · rintro ⟨as, e', bs, rfl, has, hf⟩
        exact ⟨e :: as, e', bs, rfl, List.forall_mem_cons.2 ⟨he, has⟩, hf⟩
      · rintro ⟨as, e', bs, hes, has, hf⟩
        cases as with
        | nil =>
          cases hes
          cases ha.symm.trans (addEntry_error_iff.2 hf)
        | cons a as =>
          cases hes
          exact ⟨as, e', bs, rfl, fun x hx => has x (List.mem_cons_of_mem _ hx), hf⟩

/-- There is not enough room to read the lists and objects of a table. -/
def TooDeep (spare : Nat) (d : Files.Disk) (p : Files.Path) (what : String) : Prop :=
  (d.readFile p >>= parse spare) = .error (.tooDeep what)

theorem read_of_lists (h : Lists spare disk p entries) :
    read spare disk p = entries.foldlM (addEntry p.toString) [] := by
  obtain ⟨es, hv, hes⟩ := h
  rw [read, hv]
  dsimp only [ofValue]
  rw [hes]

theorem parse_error {content : ByteArray} (h : parse spare content = .error f) :
    f.isValue = true ∨ ∃ what, f = .tooDeep what := by
  unfold parse at h
  split at h
  · cases h
    exact .inl rfl
  · split at h
    · cases h
    · cases h
      exact .inl rfl
    · cases h
      exact .inl rfl
    · cases h
      exact .inr ⟨_, rfl⟩

theorem value_error (h : (disk.readFile p >>= parse spare) = .error f) :
    (f.isSystem || f.isValue) = true ∨ ∃ what, f = .tooDeep what := by
  rw [Bool.or_eq_true]
  obtain hr | ⟨content, -, hp⟩ := Outcome.bind_error h
  · obtain hs | rfl := Files.Disk.readFile_error hr
    · exact .inl (.inl hs)
    · exact .inl (.inr rfl)
  · exact (parse_error hp).imp .inr id

theorem read_of_tooDeep {what : String} (h : TooDeep spare disk p what) :
    read spare disk p = .error (.tooDeep what) := by
  rw [read, h]
  rfl

/-- A file that is missing, that cannot be read or that lists no functions is refused, unless there is no room for it. -/
theorem read_of_not_lists (h : ∀ entries, ¬Lists spare disk p entries) (hroom : ∀ what, ¬TooDeep spare disk p what) :
    ∃ f, read spare disk p = .error f ∧ f.kind = .own .launch := by
  unfold read
  cases hv : disk.readFile p >>= parse spare with
  | ok v =>
    unfold ofValue
    dsimp only
    split
    · next es =>
      split
      · next entries hes => exact absurd ⟨es, hv, hes⟩ (h entries)
      · exact ⟨_, rfl, rfl⟩
    · exact ⟨_, rfl, rfl⟩
  | error f =>
    dsimp only
    obtain hf | ⟨what, rfl⟩ := value_error hv
    · rw [if_pos hf]
      split <;> exact ⟨_, rfl, rfl⟩
    · exact absurd hv (hroom what)

theorem Lists.unique {entries' : List Value} (h : Lists spare disk p entries) (h' : Lists spare disk p entries') :
    entries' = entries := by
  obtain ⟨es, hv, hes⟩ := h
  obtain ⟨es', hv', hes'⟩ := h'
  cases hv.symm.trans hv'
  cases hes.symm.trans hes'
  rfl

theorem Lists.not_tooDeep (h : Lists spare disk p entries) (what : String) : ¬TooDeep spare disk p what := by
  obtain ⟨es, hv, -⟩ := h
  intro hd
  cases hv.symm.trans hd

theorem kind_faultOf {noText : Failure} (h : noText.kind ≠ .own .launch) (v : Value) :
    (faultOf noText v).kind ≠ .own .launch := by
  cases v with
  | ragged => rintro ⟨⟩
  | _ => exact h

theorem Escapes.kind_ne (h : Escapes entry f) : f.kind ≠ .own .launch := by
  cases h with
  | parameters => rintro ⟨⟩
  | result => exact kind_faultOf (by rintro ⟨⟩) _
  | name => rintro ⟨⟩

theorem Refuses.kind_iff (h : Refuses path entry f) : f.kind = .own .launch ↔ Malformed entry := by
  obtain ⟨hm, rfl⟩ | he := h
  · exact iff_of_true rfl hm
  · refine iff_of_false he.kind_ne ?_
    cases he with
    | parameters _ hno => exact hno
    | result _ hs => exact fun hm => hm (hs.mono (fun _ => id) (fun _ => .inl) fun _ => id)
    | name _ hs => exact fun hm => hm (hs.mono (fun _ => id) (fun _ => .inl) fun _ _ => trivial)

/-- What is read has entries of the documented shape, or a failure of the tool's own says that it cannot be read. -/
def Reported (spare : Nat) (disk : Files.Disk) (p : Files.Path) : Prop :=
  (∃ t, read spare disk p = .ok t ∧ ∀ entries, Lists spare disk p entries → ∀ e ∈ entries, Proper e) ∨
    ∃ f, read spare disk p = .error f ∧ f.kind = .own .launch

theorem First.mono {q q' : Value → Prop} (h : First q entries) (hq : ∀ e, q e → q' e) : First q' entries := by
  obtain ⟨as, e, bs, hes, has, he⟩ := h
  exact ⟨as, e, bs, hes, has, hq e he⟩

/-- The first entry is refused with another failure than the tool's own just if it escapes. -/
theorem first_escapes_iff : First (Refuses path · f) entries ∧ f.kind ≠ .own .launch ↔ First (Escapes · f) entries := by
  constructor
  · rintro ⟨h, hk⟩
    refine h.mono fun e he => ?_
    have hm : ¬Malformed e := fun hm => hk (he.kind_iff.2 hm)
    exact he.resolve_left fun h => hm h.1
  · intro h
    refine ⟨h.mono fun _ => .inr, ?_⟩
    obtain ⟨_, e, _, -, -, he⟩ := h
    exact he.kind_ne

theorem reported_of_lists (hl : Lists spare disk p entries) :
    Reported spare disk p ↔ (∀ e ∈ entries, Admitted e ∧ Proper e) ∨ First Malformed entries := by
  have hread := read_of_lists hl
  constructor
  · rintro (⟨t, ht, hproper⟩ | ⟨f, hf, hk⟩)
    · have hadmitted := (foldlM_ok_iff p.toString []).1 ⟨t, hread.symm.trans ht⟩
      exact .inl fun e he => ⟨hadmitted e he, hproper entries hl e he⟩
    · rw [hread, foldlM_error_iff] at hf
      exact .inr (hf.mono fun e he => he.kind_iff.1 hk)
  · rintro (hproper | ⟨as, e, bs, hes, has, hm⟩)
    · obtain ⟨t, ht⟩ := (foldlM_ok_iff p.toString []).2 fun e he => (hproper e he).1
      refine .inl ⟨t, hread.trans ht, fun entries' hl' e he => (hproper e ?_).2⟩
      rwa [hl.unique hl'] at he
    · have hf := (foldlM_error_iff p.toString []).2 ⟨as, e, bs, hes, has, .inl ⟨hm, rfl⟩⟩
      exact .inr ⟨_, hread.trans hf, rfl⟩

/-- A table is read just if all its entries are let through. It fails in another way than the tool's own just if there is no
room to read it, or the first entry that is not let through does so. With enough room, then, it is reported as it should be
unless that happens or an entry that is let through has not the documented shape. -/
theorem read_reported_iff (spare : Nat) (disk : Files.Disk) (p : Files.Path) :
    ((∃ t, read spare disk p = .ok t) ↔ ∃ entries, Lists spare disk p entries ∧ ∀ e ∈ entries, Admitted e) ∧
      (∀ f, read spare disk p = .error f ∧ f.kind ≠ .own .launch ↔
        (∃ what, TooDeep spare disk p what ∧ f = .tooDeep what) ∨
          ∃ entries, Lists spare disk p entries ∧ First (Escapes · f) entries) ∧
      (Reported spare disk p ↔ (∀ what, ¬TooDeep spare disk p what) ∧
        ∀ entries, Lists spare disk p entries → (∀ e ∈ entries, Admitted e ∧ Proper e) ∨ First Malformed entries) := by
  by_cases hlists : ∃ entries, Lists spare disk p entries
  · obtain ⟨entries, hl⟩ := hlists
    have hexists (q : List Value → Prop) : (∃ es, Lists spare disk p es ∧ q es) ↔ q entries :=
      ⟨fun ⟨es, hes, h⟩ => hl.unique hes ▸ h, fun h => ⟨entries, hl, h⟩⟩
    have hforall (q : List Value → Prop) : (∀ es, Lists spare disk p es → q es) ↔ q entries :=
      ⟨fun h => h entries hl, fun h es hes => hl.unique hes ▸ h⟩
    rw [hexists, hforall, reported_of_lists hl, read_of_lists hl]
    refine ⟨foldlM_ok_iff _ _, fun f => ?_, (and_iff_right hl.not_tooDeep).symm⟩
    rw [hexists, foldlM_error_iff, first_escapes_iff]
    simp [hl.not_tooDeep]
  · rw [not_exists] at hlists
    have hnone (q : List Value → Prop) : ¬∃ es, Lists spare disk p es ∧ q es := fun ⟨es, hes, _⟩ => hlists es hes
    by_cases hroom : ∃ what, TooDeep spare disk p what
    · obtain ⟨what, hdeep⟩ := hroom
      have hread := read_of_tooDeep hdeep
      refine ⟨iff_of_false ?_ (hnone _), fun g => ?_, iff_of_false ?_ fun h => h.1 what hdeep⟩
      · rintro ⟨t, ht⟩
        cases hread.symm.trans ht
      · constructor
        · rintro ⟨hg, -⟩
          cases hread.symm.trans hg
          exact .inl ⟨what, hdeep, rfl⟩
        · rintro (⟨what', hdeep', rfl⟩ | h)
          · exact ⟨read_of_tooDeep hdeep', by rintro ⟨⟩⟩
          · exact absurd h (hnone _)
      · rintro (⟨t, ht, -⟩ | ⟨f, hf, hk⟩)
        · cases hread.symm.trans ht
        · cases hread.symm.trans hf
          cases hk
    · rw [not_exists] at hroom
      obtain ⟨f, hf, hk⟩ := read_of_not_lists hlists hroom
      refine ⟨iff_of_false ?_ (hnone _), fun g => iff_of_false ?_ ?_,
        iff_of_true (.inr ⟨f, hf, hk⟩) ⟨hroom, fun es hes => absurd hes (hlists es)⟩⟩
      · rintro ⟨t, ht⟩
        cases hf.symm.trans ht
      · rintro ⟨hg, hkg⟩
        cases hf.symm.trans hg
        exact hkg hk
      · rintro (⟨what, hdeep, -⟩ | h)
        · exact hroom what hdeep
        · exact hnone _ h

/-- A table whose only function has a list for its result. -/
def listedResult : String :=
  "\x7b\"functions\": [\x7b\"name\": \"main\", \"return_type\": [\"core::i64\"]\x7d]\x7d"

set_option maxRecDepth 20000 in
theorem parse_listedResult : Json.parse (levels + 0) (Text.unifyLineEnds listedResult.toList) =
    .ok (.record [("functions", .list [.record [("name", .text "main"), ("return_type", .list [.text "core::i64"])]])]) := by
  cbv

/-- The attribute that a list lacks is missed, and the failure is passed on as it is. -/
theorem read_reported_fails :
    read 0 (onlyTable listedResult.toUTF8) onlyPath = .error (.unencodable "list") ∧
      ¬Reported 0 (onlyTable listedResult.toUTF8) onlyPath := by
  have hread : read 0 (onlyTable listedResult.toUTF8) onlyPath = .error (.unencodable "list") := by
    have hvalue := congrArg (· >>= TypeTable.parse 0) (readFile_onlyTable listedResult.toUTF8)
    rw [read, hvalue.trans (parse_toUTF8 parse_listedResult)]
    rfl
  refine ⟨hread, ?_⟩
  rintro (⟨t, ht, -⟩ | ⟨f, hf, hk⟩)
  · cases hread.symm.trans ht
  · cases hread.symm.trans hf
    cases hk

end Hotload.TypeTable
