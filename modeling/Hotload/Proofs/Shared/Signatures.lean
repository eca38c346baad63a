import Hotload.Proofs.Shared.Alone
import Hotload.Proofs.Shared.Calls
import Hotload.Proofs.Signature

/-!
The signature that an entry point is called with. It is looked up in one visit and used in another one, and between the
two anything may be installed. What is called is the library that was installed last in between, whose own definition of
the entry point may be another one.
-/
namespace Hotload

/-- A library exports a function with the parameters and the token of the result that a definition gives. -/
def Shelf.Fits (s : Shelf) (id : LibraryId) (name : String) (d : Definition) : Prop :=
  ∃ d', s.definition? id name = some d' ∧ d'.parameters = d.parameters ∧
    d'.result.map (·.token) = d.result.map (·.token)

/-- What a visit can come to after its question was answered with a definition. -/
inductive Thread.After (e : Errand) (found : Option Definition) : Thread → Prop where
  | answered : After e found (.visit e (.answered (.definition found)))
  | replied (a : Reply) : After e found (.replied a)
  | invoked (r : Outcome (Option String)) : After e found (.invoked r)
  | calls {entry : String} {d : Definition} {as : Option NativeType} (v : Visit) : e = .entryLookup entry →
      Invocation.plan entry found = .ok (d, as) → After e found (.visit (.entryCall entry d as) v)

theorem Thread.After.step {s s' : Session} {l l' : ReadWriteLock} {x y : Thread} {d : Deed} {e : Errand}
    {found : Option Definition} (hx : x.After e found) (h : Step s l x d y s' l') : y.After e found := by
  cases hx with
  | answered =>
    cases h with
    | leaveRead =>
      unfold Errand.conclude
      split
      · rename_i entry found' ha
        cases ha
        split
        · exact .invoked _
        · rename_i hp
          exact .calls .waiting rfl hp
      · exact .invoked _
      · exact .replied _
  | replied => cases h
  | invoked => cases h
  | calls v he hp =>
    cases h with
    | enterRead | look | answer => exact .calls _ he hp
    | leaveRead =>
      unfold Errand.conclude
      split
      · rename_i heq
        cases heq
      · exact .invoked _
      · exact .replied _

theorem Thread.Path.after {x y : Thread} {ds : List Deed} {e : Errand} {found : Option Definition} (h : Path x ds y)
    (hx : x.After e found) : y.After e found := by
  induction h with
  | none => exact hx
  | step _ hs ih => exact ih.step hs

theorem Invocation.plan_ok {entry : String} {found : Option Definition} {d : Definition} {as : Option NativeType}
    (h : plan entry found = .ok (d, as)) : found = some d ∧ representation entry d = .ok as := by
  cases found with
  | none => cases h
  | some d' =>
    cases hr : representation entry d' with
    | error f =>
      simp only [plan, hr] at h
      cases h
    | ok as' =>
      simp only [plan, hr] at h
      cases h
      exact ⟨rfl, hr⟩

namespace Shared

open ReadWriteLock

variable {s : Session} {w v : Shared} {es es₁ es₂ es₃ : List Event} {t : Nat} {a c : LibraryId}

/-- A library answers the visit that called it. -/
theorem Step.answer_spec {q : Request} (h : Step w (.act t (.answer a q)) v) :
    ∃ e, e.asks = q ∧ w.threads[t]? = some (.visit e (.calling a)) ∧
      v.threads[t]? = some (.visit e (.answered (w.session.answer a q).1)) ∧
      v.session = (w.session.answer a q).2 := by
  cases h with
  | act hx hs =>
    have ht := (List.getElem?_eq_some_iff.1 hx).1
    cases hs with
    | @answer e _ => exact ⟨e, rfl, hx, List.getElem?_set_self ht, rfl⟩

/-- A call that is answered goes to the library that is the active one. -/
theorem Run.answer_active (h : Run (start s) es w) {q : Request} (hstep : Step w (.act t (.answer a q)) v) :
    a = w.active ∧ v.active = w.active := by
  obtain ⟨e, -, hx, -⟩ := hstep.answer_spec
  exact ⟨h.current e a (List.mem_of_getElem? hx), (hstep.hold_eq rfl).1⟩

/-- When the libraries change and are loaded anew between the two visits, the call goes to the fresh library. -/
theorem exists_changed {s₁ : Session} {loader : Loader} {entry : String} {d : Definition} {as : Option NativeType}
    (ho : s.handle.closed = false) (hp : Invocation.plan entry (s.definition? entry) = .ok (d, as))
    (hl : ({ s with loader := loader } : Session).load = (.ok c, s₁)) :
    ∃ es₁ es₂ es₃ v, Run (start s)
        (es₁ ++ .act 0 (.answer s.handle.active (.lookup entry)) :: (es₂ ++ .act 0 (.answer c (.call d as)) :: es₃)) v ∧
      installs es₂ = [c] ∧ v.shelf.definition? c entry = s₁.host.shelf.definition? c entry := by
  obtain ⟨hh, hadd⟩ := Session.load_spec hl
  have hc : s₁.handle.closed = false := hh ▸ ho
  have hactive : (s₁.install c).2.handle.active = c := by rw [s₁.handle_install_of_open hc]
  have hlook : Run (start s) (.demand (.invoke entry) :: [.enter .read, .look s.handle.active,
      .answer s.handle.active (.lookup entry), .leave .read].map (.act 0))
      ⟨s, free, .resting, [.visit (.entryCall entry d as) .waiting]⟩ :=
    Run.demand (d := .invoke entry) .resting [] (Thread.Steps.look_up_ok hp)
  have hload := ((hlook.more (.elsewhere (s := { s with loader := loader }) ⟨rfl, rfl, rfl, rfl⟩)).more
    (.demand .reload)).more (.act (t := 1) rfl (.load hl))
  have hinstall := (Thread.Steps.install_open hc c).run .resting
    [.visit (.entryCall entry d as) .waiting, .reload (.loaded c)] 1 rfl
  have hvisit := Thread.Steps.visit (s₁.install c).2 (.entryCall entry d as)
  simp only [hactive] at hvisit
  have hcall := hinstall.trans (hvisit.run .resting _ 0 rfl)
  refine ⟨[.demand (.invoke entry), .act 0 (.enter .read), .act 0 (.look s.handle.active)],
    [.act 0 (.leave .read), .elsewhere, .demand .reload, .act 1 (.load c), .act 1 (.enter .write), .act 1 (.install c),
      .act 1 (.leave .write), .act 1 (.drop s₁.handle.active), .act 0 (.enter .read), .act 0 (.look c)],
    [.act 0 (.leave .read)], _, hload.trans hcall, rfl, ?_⟩
  exact (Run.keeps hcall).definition c (hadd.size_eq.2 ▸ hadd.size_eq.1 ▸ Nat.lt_succ_self _) entry

end Shared

/-- A loader of libraries with one function without parameters, whose result has a native type. -/
def GivenLoader.returning (n : NativeType) : GivenLoader :=
  ⟨[("main", ⟨⟨.text "main", [], some n.info⟩, .ok .null⟩)], none, false⟩

theorem Invocation.representation_native {entry : String} {d : Definition} {n : NativeType} (h : d.result = some n.info) :
    representation entry d = .ok (some n) := by
  simp only [representation, h, TypeInfo.decoded_eq_native.2 rfl]

namespace Shared

/-- The function may have returned one type when it was looked up and return another one when it is called. -/
theorem spawned_changed (m n : NativeType) :
    ∃ s es₁ es₂ es₃ v, Spawned s ∧
      Run (start s) (es₁ ++ .act 0 (.answer s.handle.active (.lookup "main")) ::
        (es₂ ++ .act 0 (.answer 1 (.call ⟨.text "main", [], some m.info⟩ (some m))) :: es₃)) v ∧
      installs es₂ = [1] ∧ v.shelf.definition? 1 "main" = some ⟨.text "main", [], some n.info⟩ := by
  obtain ⟨s, hs, -, hh, hsh⟩ := exists_spawned (g := .returning m) rfl
  have hp : Invocation.plan "main" (s.definition? "main") = .ok (⟨.text "main", [], some m.info⟩, some m) := by
    have hd : s.definition? "main" = some ⟨.text "main", [], some m.info⟩ := by
      simp only [Session.definition?, Handle.definition?, Shelf.definition?, Shelf.get?, hh, hsh]
      rfl
    rw [hd, Invocation.plan, Invocation.representation_native rfl]
    rfl
  have hl := Session.load_given (s := { s with loader := .given (.returning n) }) rfl rfl
  have hsize : s.host.shelf.size = 1 := by rw [Shelf.size, hsh]; rfl
  rw [hsize] at hl
  obtain ⟨es₁, es₂, es₃, v, h, hi, hd⟩ := exists_changed hs.fresh.closed hp hl
  refine ⟨s, es₁, es₂, es₃, v, hs, h, hi, hd.trans ?_⟩
  simp only [Shelf.definition?, Shelf.get?, Shelf.add, hsh]
  rfl

/-- An invocation calls what was installed last since it looked the entry point up, so it calls a function of the
signature that it found just if that library has one. -/
theorem Run.fits_iff (hs : Spawned s) {entry : String} {d : Definition} {as : Option NativeType}
    (h : Run (start s) (es₁ ++ .act t (.answer a (.lookup entry)) :: (es₂ ++ .act t (.answer c (.call d as)) :: es₃)) v) :
    v.shelf.definition? a entry = some d ∧ Invocation.representation entry d = .ok as ∧
      c = (installs es₂).getLastD a ∧
      (v.shelf.Fits c entry d ↔ ∀ id ∈ (installs es₂).getLast?, v.shelf.Fits id entry d) := by
  obtain ⟨u, u', hu, hlook, hrest⟩ := h.split
  obtain ⟨x, x', hx, hcall, htail⟩ := hrest.split
  have hu' := hu.more hlook
  have hxs : Run (start s) _ x := hu'.trans hx
  obtain ⟨ha, hact⟩ := Run.answer_active hu hlook
  obtain ⟨hc, -⟩ := hxs.answer_active hcall
  obtain ⟨e, hasks, -, hanswered, -⟩ := hlook.answer_spec
  obtain ⟨e', hasks', hcalling, -⟩ := hcall.answer_spec
  have hplan : Invocation.plan entry (u.shelf.definition? a entry) = .ok (d, as) := by
    obtain ⟨y, hy, hp⟩ := Run.path hx hanswered
    obtain rfl := Option.some.inj (hy.symm.trans hcalling)
    cases hp.after .answered with
    | calls _ he hplan =>
      subst he
      cases hasks
      cases hasks'
      exact hplan
  obtain ⟨hfound, hrep⟩ := Invocation.plan_ok hplan
  have hdef : v.shelf.definition? a entry = some d := by
    have hlt : a < u.shelf.size := ha ▸ (Run.owned hu (owned_start hs.fresh)).active_lt
    have hkeeps : u.shelf.Keeps v.shelf :=
      hlook.keeps.trans (((Run.keeps hx).trans hcall.keeps).trans (Run.keeps htail))
    rw [hkeeps.definition a hlt entry, hfound]
  have hlast : c = (installs es₂).getLastD a := by
    rw [hc, (Run.hold hx).1, hact, ha]
  refine ⟨hdef, hrep, hlast, ?_⟩
  rw [hlast, List.getLastD_eq_getLast?]
  cases (installs es₂).getLast? with
  | none => exact ⟨fun _ _ => nofun, fun _ => ⟨d, hdef, rfl, rfl⟩⟩
  | some id => simp

/-- A double is asked of a library whose function returns an integer. -/
theorem fits_fails :
    ∃ s es₁ es₂ es₃ v d, Spawned s ∧
      Run (start s) (es₁ ++ .act 0 (.answer s.handle.active (.lookup "main")) ::
        (es₂ ++ .act 0 (.answer 1 (.call d (some .real))) :: es₃)) v ∧ ¬v.shelf.Fits 1 "main" d := by
  obtain ⟨s, es₁, es₂, es₃, v, hs, h, -, hd⟩ := spawned_changed .real .integer
  refine ⟨s, es₁, es₂, es₃, v, _, hs, h, ?_⟩
  rintro ⟨d', hd', -, hr⟩
  obtain rfl := Option.some.inj (hd.symm.trans hd')
  exact absurd (NativeType.token_inj (Option.some.inj hr)) nofun

/-- A library with the same type, installed in between, fits. -/
theorem fits_same_type :
    ∃ s es₁ es₂ es₃ v d, Spawned s ∧
      Run (start s) (es₁ ++ .act 0 (.answer s.handle.active (.lookup "main")) ::
        (es₂ ++ .act 0 (.answer 1 (.call d (some .real))) :: es₃)) v ∧
      installs es₂ = [1] ∧ v.shelf.definition? s.handle.active "main" = some d ∧ v.shelf.Fits 1 "main" d := by
  obtain ⟨s, es₁, es₂, es₃, v, hs, h, hi, hd⟩ := spawned_changed .real .real
  obtain ⟨hfound, -, -, hfits⟩ := h.fits_iff hs
  refine ⟨s, es₁, es₂, es₃, v, _, hs, h, hi, hfound, hfits.2 ?_⟩
  rw [hi]
  rintro id ⟨⟩
  exact ⟨_, hd, rfl, rfl⟩

end Shared

end Hotload
