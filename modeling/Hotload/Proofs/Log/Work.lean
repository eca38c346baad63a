import Hotload.Log.Work
import Hotload.Proofs.Session
import Mathlib.Data.List.Forall2

/-!
Fields of the records that work leaves. What an event gives itself comes first, then what the blocks around it give, the
innermost one first, then a dash for a standard field. The names of a record's own data are in no field, whatever the
blocks say; among them are those that a record has only once it is written, its message and its time. A block leaves the
context as it found it, also when it is left by a failure.
-/
namespace Hotload.Log

variable {key : String} {blocks : List Fields} {e : Event} {r : Record} {h : Host} {w : Work}

theorem valueAt?_addMissing (key k : String) (v : Value) (fs : Fields) :
    valueAt? key (addMissing fs k v) = (valueAt? key fs).or (if k = key then some v else none) := by
  unfold addMissing hasEntry
  by_cases hk : k = key
  · subst hk
    cases hv : valueAt? k fs <;> simp [valueAt?_append, valueAt?, hv]
  · cases valueAt? k fs <;> simp [valueAt?_append, valueAt?, hk]

/-- A context adds nothing under the names that records use. -/
theorem valueAt?_foldl_context (key : String) (context : Context) (own : Fields) :
    valueAt? key (context.foldl (fun fs f => if isTaken f.1 then fs else addMissing fs f.1 f.2) own) =
      (valueAt? key own).or (if isTaken key then none else valueAt? key context) := by
  induction context generalizing own with
  | nil => simp [valueAt?]
  | cons f context ih =>
    rw [List.foldl_cons, ih]
    by_cases hf : f.1 = key
    · subst hf
      by_cases ht : isTaken f.1
      · simp [ht]
      · simp [ht, valueAt?_addMissing, valueAt?]
    · by_cases ht : isTaken f.1 <;> simp [ht, valueAt?_addMissing, valueAt?, hf]

theorem valueAt?_foldl_dash (key : String) (ks : List String) (fs : Fields) (v : Value) :
    valueAt? key (ks.foldl (fun fs k => addMissing fs k v) fs) =
      (valueAt? key fs).or (if ks.contains key then some v else none) := by
  induction ks generalizing fs with
  | nil => simp
  | cons k ks ih =>
    rw [List.foldl_cons, ih, valueAt?_addMissing, Option.or_assoc]
    by_cases hk : k = key
    · simp [hk]
    · simp [hk, Ne.symm hk]

theorem valueAt?_fill (key : String) (context : Context) (own : Fields) :
    valueAt? key (fill context own) =
      ((valueAt? key own).or (if isTaken key then none else valueAt? key context)).or
        (if standardFields.contains key then some (.text "-") else none) := by
  rw [fill, valueAt?_foldl_dash, valueAt?_foldl_context]

/-- No standard field has a name that records use. -/
theorem not_standard_of_isTaken (ht : isTaken key = true) : standardFields.contains key = false := by
  have hall : ∀ k ∈ standardFields, isTaken k = false := by decide
  cases hs : standardFields.contains key with
  | false => rfl
  | true =>
    rw [hall key (List.contains_iff_mem.1 hs)] at ht
    cases ht

/-- Inside blocks the context gives what the innermost block gives. -/
theorem valueAt?_contextOf (key : String) (blocks : List Fields) :
    valueAt? key (contextOf blocks) = blockValue? key blocks := by
  induction blocks with
  | nil => rfl
  | cons fs blocks ih =>
    change valueAt? key (setEntries (contextOf blocks) (given fs)) = _
    rw [valueAt?_setEntries_reverse, ih]
    change (lastValue? key (given fs)).or (blockValue? key blocks) = _
    cases hv : lastValue? key (given fs) <;> simp [blockValue?, hv]

theorem valueAt?_own (key : String) (e : Event) : valueAt? key (setEntries [] e.extra) = lastValue? key e.extra := by
  rw [valueAt?_setEntries_reverse, lastValue?, valueAt?, Option.or_none]

/-- An event that the log accepts gives nothing under the names of a record's own data. -/
theorem lastValue?_of_reserved (ha : reservedField? e = none) (hk : key ∈ reservedNames) :
    lastValue? key e.extra = none := by
  rw [reservedField?, Option.map_eq_none_iff, List.find?_eq_none] at ha
  cases hv : lastValue? key e.extra with
  | none => rfl
  | some v =>
    have hmem : (key, v) ∈ e.extra := List.mem_reverse.1 (mem_of_valueAt? hv)
    exact absurd (List.contains_iff_mem.2 hk) (ha _ hmem)

/-- What a record of an event holds that is logged inside some blocks. -/
structure Scoped (e : Event) (blocks : List Fields) (r : Record) : Prop where
  event : r.event = e
  free : ∀ key, isTaken key = false → valueAt? key r.fields = resolve key e blocks
  taken : ∀ key, isTaken key = true → valueAt? key r.fields = lastValue? key e.extra
  reserved : ∀ key ∈ reservedNames, valueAt? key r.fields = none

theorem scoped_of (ha : reservedField? e = none) : Scoped e blocks (.of (contextOf blocks) e) := by
  have hvalue : ∀ key, valueAt? key (Record.of (contextOf blocks) e).fields =
      ((lastValue? key e.extra).or (if isTaken key then none else blockValue? key blocks)).or
        (if standardFields.contains key then some (.text "-") else none) := by
    intro key
    rw [Record.of, valueAt?_fill, valueAt?_own, valueAt?_contextOf]
  have htaken : ∀ key, isTaken key = true →
      valueAt? key (Record.of (contextOf blocks) e).fields = lastValue? key e.extra := by
    intro key ht
    rw [hvalue, ht, not_standard_of_isTaken ht]
    simp
  constructor
  case event => rfl
  case free =>
    intro key ht
    rw [hvalue, ht, resolve, Option.or_assoc]
    rfl
  case taken => exact htaken
  case reserved =>
    intro key hk
    have ht : isTaken key = true := by
      rw [isTaken, List.contains_iff_mem.2 hk, Bool.true_or]
    rw [htaken key ht, lastValue?_of_reserved ha hk]

/-- What is left of some work whose trace is known: its outcome, the context as it was and a record of each event. -/
structure Leaves (trace : List (Event × List Fields) × Outcome Unit) (h : Host) (left : Outcome Unit × Host) : Prop where
  outcome : left.1 = trace.2
  context : left.2.context = h.context
  records : ∃ rs, left.2.records = h.records ++ rs ∧ List.Forall₂ (fun logged r => Scoped logged.1 logged.2 r) trace.1 rs

theorem run_next_eq (first second : Work) (h : Host) :
    (Work.next first second).run h = match first.run h with
      | (.ok _, h₁) => second.run h₁
      | (.error f, h₁) => (.error f, h₁) := by
  rw [Work.run, Action.bind_eq]
  rcases first.run h with ⟨f | u, h₁⟩ <;> rfl

theorem run_guarded_eq (body : Work) (h : Host) : (Work.guarded body).run h = (.ok (), (body.run h).2) :=
  Action.bind_of_ok (Action.attempt_eq body.run h)

/-- However it ends, work leaves the context as it was. -/
theorem run_context (w : Work) (h : Host) : (w.run h).2.context = h.context := by
  induction w generalizing h with
  | done => rfl
  | record e => rfl
  | fail f => rfl
  | block fs body _ =>
    rw [Work.run, Action.within_eq]
  | guarded body ih =>
    rw [run_guarded_eq]
    exact ih h
  | next first second ih₁ ih₂ =>
    have hfirst := ih₁ h
    rw [run_next_eq]
    rcases hr : first.run h with ⟨f | u, h₁⟩
    · rw [hr] at hfirst
      exact hfirst
    · rw [hr] at hfirst
      exact (ih₂ h₁).trans hfirst

/-- The induction is on the work; each block puts one more in front of the blocks around. -/
theorem run_leaves (w : Work) (h : Host) (blocks : List Fields) (hc : h.context = contextOf blocks)
    (ha : ∀ e ∈ w.events, reservedField? e = none) : Leaves (w.trace blocks) h (w.run h) := by
  induction w generalizing h blocks with
  | done => exact ⟨rfl, rfl, [], (List.append_nil _).symm, .nil⟩
  | record e =>
    have hs : Scoped e blocks (.of h.context e) := hc ▸ scoped_of (ha e List.mem_cons_self)
    exact ⟨rfl, rfl, [_], rfl, .cons hs .nil⟩
  | fail f => exact ⟨rfl, rfl, [], (List.append_nil _).symm, .nil⟩
  | block fs body ih =>
    have hin : (h.context.enter fs) = contextOf (fs :: blocks) := by
      rw [hc]
      rfl
    obtain ⟨ho, -, hrs⟩ := ih { h with context := h.context.enter fs } (fs :: blocks) hin ha
    rw [Work.run, Action.within_eq]
    exact ⟨ho, rfl, hrs⟩
  | guarded body ih =>
    obtain ⟨-, hcontext, hrs⟩ := ih h blocks hc ha
    rw [run_guarded_eq]
    exact ⟨rfl, hcontext, hrs⟩
  | next first second ih₁ ih₂ =>
    have hfirst := ih₁ h blocks hc fun e he => ha e (List.mem_append_left _ he)
    rw [run_next_eq, Work.trace]
    rcases ht : first.trace blocks with ⟨es, f | u⟩
    · rcases hr : first.run h with ⟨r, h₁⟩
      rw [ht, hr] at hfirst
      obtain ⟨rfl, hcontext, hrs⟩ := hfirst
      exact ⟨rfl, hcontext, hrs⟩
    · rcases hr : first.run h with ⟨r, h₁⟩
      rw [ht, hr] at hfirst
      obtain ⟨rfl, hcontext, rs, hrs, hall⟩ := hfirst
      have hsecond := ih₂ h₁ blocks (hcontext.trans hc) fun e he => ha e (List.mem_append_right _ he)
      obtain ⟨ho, hcontext', rs', hrs', hall'⟩ := hsecond
      refine ⟨ho, hcontext'.trans hcontext, rs ++ rs', ?_, List.rel_append hall hall'⟩
      rw [hrs', hrs, List.append_assoc]

/-- Fields go by scope: each event that work logs becomes a record that holds what the event gives, else what the
innermost block around it gives, else a dash in a standard field; no record's own data is overwritten. The context after
any work is the context before it, whether it ends well or fails. -/
theorem fields_scoped (w : Work) (h : Host) :
    (w.run h).2.context = h.context ∧
      ∀ blocks, h.context = contextOf blocks → (∀ e ∈ w.events, reservedField? e = none) →
        (w.run h).1 = (w.trace blocks).2 ∧
          ∃ rs, (w.run h).2.records = h.records ++ rs ∧
            List.Forall₂ (fun logged r => Scoped logged.1 logged.2 r) (w.trace blocks).1 rs := by
  refine ⟨run_context w h, fun blocks hc ha => ?_⟩
  have hleaves := run_leaves w h blocks hc ha
  exact ⟨hleaves.outcome, hleaves.records⟩

/-- A field without a value leaves that of the outer block in place, and a failure leaves the inner block's fields
behind. -/
theorem fields_scoped_nested :
    let e := debug "muncli" "first" [("library", .text "mod.so")]
    let inner := Work.block [("command", .null), ("entry", .text "main")] (.next (.record e) (.fail .notText))
    let w := Work.block [("command", .text "start")] (.next (.guarded inner) (.record (debug "muncli" "second" [])))
    (w.run .bare).1 = .ok () ∧ (w.run .bare).2.context = [] ∧ ∃ r₁ r₂, (w.run .bare).2.records = [r₁, r₂] ∧
      valueAt? "command" r₁.fields = some (.text "start") ∧ valueAt? "entry" r₁.fields = some (.text "main") ∧
      valueAt? "library" r₁.fields = some (.text "mod.so") ∧ valueAt? "command" r₂.fields = some (.text "start") ∧
      valueAt? "entry" r₂.fields = some (.text "-") := by
  intro e inner w
  obtain ⟨hcontext, hrun⟩ := fields_scoped w .bare
  obtain ⟨ho, rs, hrs, hall⟩ := hrun [] rfl (by decide)
  have htrace : (w.trace []).1 = [(e, [[("command", .null), ("entry", .text "main")], [("command", .text "start")]]),
      (debug "muncli" "second" [], [[("command", .text "start")]])] := rfl
  rw [htrace] at hall
  obtain ⟨r₁, rest, hfirst, hrest, rfl⟩ := List.forall₂_cons_left_iff.1 hall
  obtain ⟨r₂, none, hsecond, hnone, rfl⟩ := List.forall₂_cons_left_iff.1 hrest
  cases hnone
  exact ⟨ho, hcontext, r₁, r₂, hrs, hfirst.free "command" (by decide), hfirst.free "entry" (by decide),
    hfirst.free "library" (by decide), hsecond.free "command" (by decide), hsecond.free "entry" (by decide)⟩

end Hotload.Log
