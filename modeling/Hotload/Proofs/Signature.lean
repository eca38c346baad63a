import Hotload.Signature
import Mathlib.Data.List.Nodup

/-!
Tokens of types. The native types have three tokens, so that a token stands for one native type at the most.
-/
namespace Hotload

namespace NativeType

theorem nodup_tokens : (all.map fun n => n.info.token).Nodup := by decide +kernel

theorem mem_all (n : NativeType) : n ∈ all := by
  cases n <;> decide

theorem token_inj {m n : NativeType} (h : m.info.token = n.info.token) : m = n :=
  List.inj_on_of_nodup_map nodup_tokens (mem_all m) (mem_all n) h

theorem token_of_ofToken? {token : Token} {n : NativeType} (h : ofToken? token = some n) : n.info.token = token := by
  unfold ofToken? at h
  simpa using List.find?_some h

theorem ofToken?_eq_some {token : Token} {n : NativeType} : ofToken? token = some n ↔ n.info.token = token := by
  refine ⟨token_of_ofToken?, ?_⟩
  rintro rfl
  cases h : ofToken? n.info.token with
  | some m => rw [token_inj (token_of_ofToken? h)]
  | none =>
    have := List.find?_eq_none.1 h n (mem_all n)
    simp at this

theorem readInteger_error {s : List Char} {shown : String} {f : Failure} (h : readInteger s shown = .error f) :
    f.kind = .value := by
  unfold readInteger at h
  split at h <;> cases h <;> rfl

theorem readReal_error {s : List Char} {shown : String} {f : Failure} (h : readReal s shown = .error f) :
    f.kind = .value := by
  unfold readReal at h
  split at h <;> cases h
  rfl

theorem toInteger_error {v : Value} {f : Failure} (h : toInteger v = .error f) :
    f.kind = .value ∨ f.kind = .overflow ∨ f.kind = .type := by
  cases v with
  | bool | int => cases h
  | null | path | list | object | foreign =>
    cases h
    exact .inr (.inr rfl)
  | text | bytes => exact .inl (readInteger_error h)
  | ragged =>
    cases h
    exact .inl rfl
  | real x =>
    unfold toInteger at h
    dsimp only at h
    split at h
    · cases h
      exact .inl rfl
    · split at h <;> cases h
      exact .inr (.inl rfl)

theorem toReal_error {v : Value} {f : Failure} (h : toReal v = .error f) :
    f.kind = .value ∨ f.kind = .overflow ∨ f.kind = .type := by
  cases v with
  | bool | real => cases h
  | null | path | list | object | foreign =>
    cases h
    exact .inr (.inr rfl)
  | text | bytes => exact .inl (readReal_error h)
  | ragged =>
    cases h
    exact .inl rfl
  | int i =>
    unfold toReal realOfInt at h
    dsimp only at h
    split at h <;> cases h
    exact .inr (.inl rfl)

theorem integerText_cases (i : Int) : integerText i = .ok (toString i) ∨ integerText i = .error .tooLongToShow := by
  obtain h | h := Nat.lt_or_ge i.natAbs (Binary64.pow10 Numeral.digitLimit)
  · exact .inl (by rw [integerText, if_pos h])
  · exact .inr (by rw [integerText, if_neg (Nat.not_lt.2 h)])

theorem integerText_of_lt {i : Int} (h : i.natAbs < UInt64.size) : integerText i = .ok (toString i) := by
  have hlimit : UInt64.size ≤ 10 ^ Numeral.digitLimit :=
    calc UInt64.size ≤ 10 ^ 64 := by decide
      _ ≤ 10 ^ Numeral.digitLimit := Nat.pow_le_pow_right (by decide) (by decide)
  rw [integerText, Binary64.pow10, Nat.pow_eq, if_pos (Nat.lt_of_lt_of_le h hlimit)]

theorem format_integer {v : Value} {i : Int} (h : toInteger v = .ok i) : integer.format v = integerText i := by
  rw [format, h]
  simp only [bind, Except.bind]

/-- A value without a text in a native format fails to be converted, or to be written out. -/
theorem format_error {n : NativeType} {v : Value} {f : Failure} (h : n.format v = .error f) :
    f.kind = .value ∨ f.kind = .overflow ∨ f.kind = .type := by
  cases n with
  | bool => cases h
  | real =>
    cases hv : toReal v with
    | ok x =>
      rw [format, hv] at h
      cases h
    | error e =>
      rw [format, hv] at h
      cases h
      exact toReal_error hv
  | integer =>
    cases hv : toInteger v with
    | ok i =>
      rw [format_integer hv] at h
      obtain hi | hi := integerText_cases i
      · cases hi.symm.trans h
      · cases hi.symm.trans h
        exact .inl rfl
    | error e =>
      rw [format, hv] at h
      cases h
      exact toInteger_error hv

end NativeType

/-- A type is decoded as a native one if it has the token of that. -/
theorem TypeInfo.decoded_eq_native {t : TypeInfo} {n : NativeType} : t.decoded = .native n ↔ t.token = n.info.token := by
  rw [eq_comm (a := t.token), ← NativeType.ofToken?_eq_some]
  unfold decoded
  cases h : NativeType.ofToken? t.token <;> simp

/-- A type is decoded as the native one that has its token, or it is known by its name only. -/
theorem TypeInfo.decoded_cases (t : TypeInfo) :
    (∃ n : NativeType, t.token = n.info.token ∧ t.decoded = .native n) ∨
      (∀ n : NativeType, t.token ≠ n.info.token) ∧ t.decoded = .unsupported t.name := by
  cases h : NativeType.ofToken? t.token with
  | some n => exact .inl ⟨n, (NativeType.ofToken?_eq_some.1 h).symm, by rw [decoded, h]⟩
  | none =>
    refine .inr ⟨fun n hn => ?_, by rw [decoded, h]⟩
    rw [NativeType.ofToken?_eq_some.2 hn.symm] at h
    cases h

/-- What a definition asks for as its result: a native type by its token, or nothing. -/
def Definition.Asks (d : Definition) (as : Option NativeType) : Prop :=
  d.result.map (·.token) = as.map (·.info.token)

theorem Definition.Asks.eq {d : Definition} {as bs : Option NativeType} (h : d.Asks as) (h' : d.Asks bs) : as = bs :=
  Option.map_injective (fun _ _ => NativeType.token_inj) (h.symm.trans h')

/-- Nothing is asked for by a type without the token of a native one. -/
theorem Definition.not_asks {d : Definition} {t : TypeInfo} {as : Option NativeType} (hr : d.result = some t)
    (ht : ∀ n : NativeType, t.token ≠ n.info.token) : ¬d.Asks as := by
  intro h
  rw [Asks, hr] at h
  obtain ⟨n, -, hn⟩ := Option.map_eq_some_iff.1 h.symm
  exact ht n hn.symm

end Hotload
