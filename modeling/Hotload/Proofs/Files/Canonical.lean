import Hotload.Files.Canonical
import Hotload.Proofs.Action
import Hotload.Proofs.Files.Write

/-!
What a path is canonically, if it need not be there, depends on the directories and links only: files that come or go
change nothing, as the components below a file are kept just like those that are missing.
-/
namespace Hotload.Files

/-- Two disks that have the same directories and links and the same working directory, and are looked at in the same
way. -/
structure Disk.Alike (d d' : Disk) : Prop where
  workingDirectory : d'.workingDirectory = d.workingDirectory
  spare : d'.spare = d.spare
  there : d.tree.Carries d'.tree
  back : d'.tree.Carries d.tree

namespace Disk

variable {d d' : Disk} {p q : Path} {f : Failure} {target : String} {i : Intent}

theorem Alike.symm (h : Alike d d') : Alike d' d :=
  ⟨h.workingDirectory.symm, h.spare.symm, h.back, h.there⟩

theorem Alike.refl (d : Disk) : Alike d d :=
  ⟨rfl, rfl, fun _ _ h _ => h, fun _ _ h _ => h⟩

theorem Alike.trans {d'' : Disk} (h : Alike d d') (h' : Alike d' d'') : Alike d d'' where
  workingDirectory := h'.workingDirectory.trans h.workingDirectory
  spare := h'.spare.trans h.spare
  there l n hg hn := h'.there l n (h.there l n hg hn) hn
  back l n hg hn := h.back l n (h'.back l n hg hn) hn

theorem alike_writeFile {content : ByteArray} {modified : Int} (h : d.writeFile p content modified = .ok d') :
    Alike d d' := by
  obtain ⟨hthere, hback, hw, hn⟩ := carries_writeFile h
  exact ⟨hw, hn, hthere, hback⟩

theorem look_carry_found {l : Location} {n : Node} (hw : d'.workingDirectory = d.workingDirectory) (hc : d.tree.Carries d'.tree)
    (hn : ∀ content modified, n ≠ .file content modified) (hl : d.look i p = .ok (.found l n)) :
    d'.look i p = .ok (.found l n) := by
  obtain ⟨hnul, hb, hleads⟩ := look_eq_ok.1 hl
  have hstart : d'.start p = d.start p := by simp [start, hw]
  refine look_eq_ok.2 ⟨hnul, hb, ?_⟩
  rw [hstart]
  exact hleads.carry_found hc hn

theorem look_carry_loop {path : String} (hw : d'.workingDirectory = d.workingDirectory) (hc : d.tree.Carries d'.tree)
    (hl : d.look i p = .error (.system .loop path)) : d'.look i p = .error (.system .loop path) := by
  have hstart : d'.start p = d.start p := by simp [start, hw]
  unfold look at hl ⊢
  split at hl
  · cases hl
  · split at hl
    · cases hl
    · split at hl
      · cases hl
      · rename_i hn hb _ e hwalk
        cases hl
        rw [if_neg hn, if_neg hb, hstart, Tree.walk_loop hc hwalk]

theorem Alike.look_found {l : Location} {n : Node} (h : Alike d d') (hn : ∀ content modified, n ≠ .file content modified)
    (hl : d.look i p = .ok (.found l n)) : d'.look i p = .ok (.found l n) :=
  look_carry_found h.workingDirectory h.there hn hl

theorem Alike.look_directory {l : Location} (h : Alike d d') (hl : d.look i p = .ok (.found l .directory)) :
    d'.look i p = .ok (.found l .directory) :=
  h.look_found nofun hl

theorem Alike.look_loop {path : String} (h : Alike d d') (hl : d.look i p = .error (.system .loop path)) :
    d'.look i p = .error (.system .loop path) :=
  look_carry_loop h.workingDirectory h.there hl

theorem linkAt_eq_some : d.linkAt p = .ok (some target) ↔ ∃ l, d.look ⟨false, false⟩ p = .ok (.found l (.link target)) := by
  unfold linkAt
  split <;> simp_all

theorem linkAt_of_directory {l : Location} (h : d.look ⟨false, false⟩ p = .ok (.found l .directory)) :
    d.linkAt p = .ok none := by
  rw [linkAt, h]

/-- What is looked for at a path is refused by the system, unless there is a NUL in it. -/
theorem linkAt_error (h : d.linkAt p = .error f) (hs : f.isSystem = false) : f = .nulByte := by
  unfold linkAt at h
  split at h
  · cases h
  · cases h
  · cases h
    cases hs
  · rename_i hl
    cases h
    by_cases hn : p.hasNul = true
    · rw [look, if_pos hn] at hl
      cases hl
      rfl
    · rw [isSystem_of_look (Bool.eq_false_iff.2 hn) hl] at hs
      cases hs

theorem linkAt_failure (h : d.linkAt p = .error f) : f.isSystem = true ∨ f = .nulByte := by
  cases hs : f.isSystem with
  | true => exact .inl rfl
  | false => exact .inr (linkAt_error h hs)

/-- Nothing that the system refuses ends the tracing of a path that need not be there. -/
theorem trace_error {depth : Nat} {seen : Seen} {parts : List String} (h : d.trace false depth p seen parts = .error f) :
    f = .nulByte := by
  fun_induction trace d false depth p seen parts generalizing f with
  | case1 | case9 | case11 | case13 => cases h
  | case2 | case3 | case5 | case6 | case7 | case14 =>
    rename_i ih
    exact ih h
  | case4 =>
    rename_i hl hs
    cases h
    exact linkAt_error hl (by simpa using hs)
  | case8 | case10 => contradiction
  | case12 =>
    rename_i hf ih
    cases h
    exact ih hf

/-- A path that need not be there has a canonical form unless there is a NUL in it or it ends in a loop. -/
theorem canonical_error (h : d.canonical false p = .error f) : f = .nulByte ∨ ∃ path, f = .linkLoop path := by
  unfold canonical at h
  obtain hf | ⟨⟨reached, seen⟩, -, h⟩ := Outcome.bind_error h
  · exact .inl (trace_error hf)
  · dsimp only at h
    rw [if_neg (by decide)] at h
    split at h
    · split at h
      · cases h
        exact .inr ⟨_, rfl⟩
      · cases h
    · cases h

/-- There is no link at a path that the system can be asked about. -/
def Unlinked (d : Disk) (p : Path) : Prop :=
  d.linkAt p = .ok none ∨ ∃ f, d.linkAt p = .error f ∧ f.isSystem = true

theorem linkAt_of_nul (h : p.hasNul = true) : d.linkAt p = .error .nulByte := by
  rw [linkAt, look, if_pos h]

theorem isSystem_of_linkAt (hn : p.hasNul = false) (h : d.linkAt p = .error f) : f.isSystem = true := by
  unfold linkAt at h
  split at h
  · cases h
  · cases h
  · cases h
    rfl
  · rename_i hl
    cases h
    exact isSystem_of_look hn hl

theorem linkAt_cases (d : Disk) (p : Path) :
    d.linkAt p = .error .nulByte ∧ p.hasNul = true ∨ d.Unlinked p ∨ ∃ target, d.linkAt p = .ok (some target) := by
  by_cases hn : p.hasNul = true
  · exact .inl ⟨linkAt_of_nul hn, hn⟩
  · cases hl : d.linkAt p with
    | error f => exact .inr (.inl (.inr ⟨f, hl, isSystem_of_linkAt (Bool.eq_false_iff.2 hn) hl⟩))
    | ok link =>
      cases link with
      | none => exact .inr (.inl (.inl hl))
      | some target => exact .inr (.inr ⟨target, rfl⟩)

theorem Alike.linkAt (h : Alike d d') (hl : d.linkAt p = .ok (some target)) : d'.linkAt p = .ok (some target) := by
  obtain ⟨l, hl⟩ := linkAt_eq_some.1 hl
  exact linkAt_eq_some.2 ⟨l, h.look_found nofun hl⟩

theorem Alike.unlinked (h : Alike d d') (hu : d.Unlinked p) : d'.Unlinked p := by
  obtain ⟨-, hn⟩ | hu' | ⟨target, hl⟩ := d'.linkAt_cases p
  · obtain hnone | ⟨f, hf, hs⟩ := hu
    · cases (linkAt_of_nul hn).symm.trans hnone
    · cases (linkAt_of_nul hn).symm.trans hf
      cases hs
  · exact hu'
  · have hback := h.symm.linkAt hl
    obtain hnone | ⟨f, hf, -⟩ := hu
    · cases hnone.symm.trans hback
    · cases hf.symm.trans hback

section Trace

variable {depth : Nat} {seen : Seen} {part : String} {rest parts : List String}

theorem trace_idle {strict : Bool} (h : Path.isIdle part = true) :
    d.trace strict depth p seen (part :: rest) = d.trace strict depth p seen rest := by
  rw [trace, if_pos h]

theorem trace_up {strict : Bool} : d.trace strict depth p seen (".." :: rest) = d.trace strict depth p.up seen rest := by
  rw [trace, if_neg (by decide), if_pos rfl]

theorem trace_of_nul {strict : Bool} (hi : ¬Path.isIdle part = true) (hd : ¬part = "..") (hn : (p.child part).hasNul = true) :
    d.trace strict depth p seen (part :: rest) = .error .nulByte := by
  have hs : Failure.nulByte.isSystem = false := rfl
  simp [trace, hi, hd, linkAt_of_nul hn, hs]

theorem trace_unlinked (hi : ¬Path.isIdle part = true) (hd : ¬part = "..") (h : d.Unlinked (p.child part)) :
    d.trace false depth p seen (part :: rest) = d.trace false depth (p.child part) seen rest := by
  obtain hl | ⟨f, hl, hs⟩ := h
  · simp [trace, hi, hd, hl]
  · simp [trace, hi, hd, hl, hs]

theorem trace_plain {strict : Bool} (hi : ¬Path.isIdle part = true) (hd : ¬part = "..")
    (hl : d.linkAt (p.child part) = .ok none) :
    d.trace strict depth p seen (part :: rest) = d.trace strict depth (p.child part) seen rest := by
  simp [trace, hi, hd, hl]

theorem trace_refused (hi : ¬Path.isIdle part = true) (hd : ¬part = "..") (hl : d.linkAt (p.child part) = .error f) :
    d.trace true depth p seen (part :: rest) = .error f := by
  simp [trace, hi, hd, hl]

section Linked

variable {strict : Bool} (hi : ¬Path.isIdle part = true) (hd : ¬part = "..") (hl : d.linkAt (p.child part) = .ok (some target))

include hi hd hl

/-- A link that was followed before is known. -/
theorem trace_known {known : Path} (hv : valueAt? (p.child part) seen = some (some known)) :
    d.trace strict depth p seen (part :: rest) = d.trace strict depth known seen rest := by
  simp [trace, hi, hd, hl, hv]

/-- One that is being followed leads back to itself. -/
theorem trace_circular (hv : valueAt? (p.child part) seen = some none) :
    d.trace strict depth p seen (part :: rest) =
      if strict then .error (d.loopFailure (p.child part)) else .ok (.stuck ((p.child part).joinRest rest), seen) := by
  simp [trace, hi, hd, hl, hv]

/-- Any other one is followed, unless that goes too deep. -/
theorem trace_deepest (hv : valueAt? (p.child part) seen = none) :
    d.trace strict 0 p seen (part :: rest) =
      if strict then .error (d.loopFailure (p.child part)) else .ok (.stuck ((p.child part).joinRest rest), seen) := by
  simp [trace, hi, hd, hl, hv]

theorem trace_followed (hv : valueAt? (p.child part) seen = none) {followed : Outcome (Reached × Seen)} :
    d.trace strict depth (if isRootedText target then Path.root else p) (setEntry (p.child part) none seen)
        (components target) = followed →
      d.trace strict (depth + 1) p seen (part :: rest) =
        match followed with
        | .error f => .error f
        | .ok (.stuck r, seen) => .ok (.stuck (r.joinRest rest), seen)
        | .ok (.whole r, seen) => d.trace strict (depth + 1) r (setEntry (p.child part) (some r) seen) rest := by
  intro hf
  rcases followed with f | ⟨r | r, seen⟩ <;> simp [trace, hi, hd, hl, hv, hf]

end Linked

/-- Which files there are is of no consequence. -/
theorem Alike.trace_eq (h : Alike d d') : d'.trace false depth p seen parts = d.trace false depth p seen parts := by
  fun_induction trace d false depth p seen parts with
  | case1 => rw [trace]
  | case2 depth p seen part rest hi ih => rw [trace_idle hi, ih]
  | case3 depth p seen rest hd ih => rw [trace_up, ih]
  | case4 depth p seen part rest hi hd q f hl hs =>
    obtain rfl := linkAt_error hl (by simpa using hs)
    have hn : q.hasNul = true := by
      cases hq : q.hasNul with
      | true => rfl
      | false => cases isSystem_of_linkAt hq hl
    exact trace_of_nul hi hd hn
  | case5 depth p seen part rest hi hd q f hl hs ih =>
    have hu : d.Unlinked q := .inr ⟨f, hl, by simpa using hs⟩
    rw [trace_unlinked hi hd (h.unlinked hu), ih]
  | case6 depth p seen part rest hi hd q hl ih => rw [trace_unlinked hi hd (h.unlinked (.inl hl)), ih]
  | case7 depth p seen part rest hi hd q target hl known hv ih => rw [trace_known hi hd (h.linkAt hl) hv, ih]
  | case9 depth p seen part rest hi hd q target hl hv => exact trace_circular hi hd (h.linkAt hl) hv
  | case11 p seen part rest hi hd q target hl hv => exact trace_deepest hi hd (h.linkAt hl) hv
  | case12 p seen part rest hi hd q target hl hv depth start f hf ih =>
    exact trace_followed hi hd (h.linkAt hl) hv (ih.trans hf)
  | case13 p seen part rest hi hd q target hl hv depth start r seen' hf ih =>
    exact trace_followed hi hd (h.linkAt hl) hv (ih.trans hf)
  | case14 p seen part rest hi hd q target hl hv depth start r seen' hf ih ih' =>
    exact (trace_followed hi hd (h.linkAt hl) hv (ih.trans hf)).trans ih'
  | case8 | case10 => contradiction

end Trace

/-- Where the tracing of a path starts. -/
def traceStart (p : Path) : Path :=
  if p.isAbsolute then .root else .current

section Ends

variable {strict : Bool} {reached : Reached} {seen : Seen} {path : String}

theorem canonical_of_error (ht : d.trace strict d.nesting (traceStart p) [] p.parts = .error f) :
    d.canonical strict p = .error f := by
  rw [traceStart] at ht
  rw [canonical, ht]
  rfl

/-- What need not be there is looked at, and only a loop is a failure. -/
theorem canonical_of_loop (ht : d.trace false d.nesting (traceStart p) [] p.parts = .ok (reached, seen))
    (hl : d.look ⟨true, false⟩ (d.workingPath / reached.path).collapse = .error (.system .loop path)) :
    d.canonical false p = .error (.linkLoop path) := by
  rw [traceStart] at ht
  rw [canonical, ht]
  simp [bind, Except.bind, hl]

theorem canonical_of_free (ht : d.trace false d.nesting (traceStart p) [] p.parts = .ok (reached, seen))
    (hl : ∀ path, d.look ⟨true, false⟩ (d.workingPath / reached.path).collapse ≠ .error (.system .loop path)) :
    d.canonical false p = .ok (d.workingPath / reached.path).collapse := by
  rw [traceStart] at ht
  rw [canonical, ht]
  simp only [bind, Except.bind, Bool.false_eq_true, if_false]
  split
  · rename_i e path hlook
    rw [if_neg]
    · rfl
    · rintro rfl
      exact hl path hlook
  · rfl

/-- What the path comes to is canonical if it is there. -/
theorem canonical_of_found {x : Landing} (ht : d.trace false d.nesting (traceStart p) [] p.parts = .ok (reached, seen))
    (hq : (d.workingPath / reached.path).collapse = q) (hl : d.look ⟨true, false⟩ q = .ok x) : d.canonical false p = .ok q := by
  have hfree (path : String) : d.look ⟨true, false⟩ (d.workingPath / reached.path).collapse ≠ .error (.system .loop path) := by
    rw [hq, hl]
    exact nofun
  rw [canonical_of_free ht hfree, hq]

end Ends

/-- What a path is canonically is the same with other files. -/
theorem Alike.canonical_eq (h : Alike d d') (p : Path) : d'.canonical false p = d.canonical false p := by
  have hpath : d'.workingPath = d.workingPath := by simp [workingPath, h.workingDirectory]
  have htrace : d'.trace false d'.nesting (traceStart p) [] p.parts = d.trace false d.nesting (traceStart p) [] p.parts := by
    rw [nesting, nesting, h.spare]
    exact h.trace_eq
  cases ht : d.trace false d.nesting (traceStart p) [] p.parts with
  | error f => rw [canonical_of_error (htrace.trans ht), canonical_of_error ht]
  | ok found =>
    obtain ⟨reached, seen⟩ := found
    by_cases hl : ∃ path, d.look ⟨true, false⟩ (d.workingPath / reached.path).collapse = .error (.system .loop path)
    · obtain ⟨path, hl⟩ := hl
      have hl' := h.look_loop hl
      rw [← hpath] at hl'
      rw [canonical_of_loop (htrace.trans ht) hl', canonical_of_loop ht hl]
    · have hfree := not_exists.1 hl
      have hfree' (path : String) : d'.look ⟨true, false⟩ (d'.workingPath / reached.path).collapse ≠
          .error (.system .loop path) := by
        rw [hpath]
        exact fun hl' => hfree path (h.symm.look_loop hl')
      rw [canonical_of_free (htrace.trans ht) hfree', canonical_of_free ht hfree, hpath]

end Disk

end Hotload.Files
