import Hotload.Proofs.Session
import Hotload.Toolchain.LanguageServer

/-!
The language server from its start to the end of its run. It is polled and a stop is waited for, in rounds, until it has
ended, a stop is requested, or the wait is broken off. A run that returns has waited for the server; one that was broken
off may leave it running.
-/
namespace Hotload

/-- The machine after some waits, with what was done meanwhile. -/
def Host.after (h : Host) (k : Nat) (es : List Effect) : Host :=
  { h with waits := h.waits.map (List.drop k), effects := h.effects ++ es }

theorem Host.after_after (h : Host) (j k : Nat) (es fs : List Effect) :
    (h.after j es).after k fs = h.after (j + k) (es ++ fs) := by
  cases hw : h.waits <;> simp [after, hw]

/-- A wait that is interrupted, told by its place among the waits that are laid down. -/
def Host.Interrupted (h : Host) (k : Nat) : Prop :=
  ∃ ws, h.waits = some ws ∧ ws[k]? = some .interrupted

/-- A machine has as many waits behind it, and is else like another for those who wait. -/
structure Host.Follows (h' h : Host) (j : Nat) : Prop where
  waits : h'.waits = h.waits.map (List.drop j)
  stopped : h'.stopped = h.stopped

theorem Host.follows_after (h : Host) (j : Nat) (es : List Effect) : (h.after j es).Follows h j :=
  ⟨rfl, rfl⟩

theorem Host.Follows.interrupted {h h' : Host} {j : Nat} (hf : h'.Follows h j) (k : Nat) :
    h'.Interrupted k ↔ h.Interrupted (k + j) := by
  cases hw : h.waits <;> simp [Interrupted, hf.waits, hw, Nat.add_comm]

namespace External

variable {x : External} {s : ServerScript} {polls : List (Option Int)} {h : Host} {n : Nat}

/-- What comes of a wait for a stop request after so many others. -/
def stopAt (x : External) (h : Host) (k : Nat) : Outcome Bool :=
  match h.waits with
  | none => if h.stopped then .ok true else if isUnmeasured x.pollInterval then .error unmeasured else .ok false
  | some ws =>
    match ws[k]?.getD .elapsed with
    | .elapsed => .ok false
    | .stopped => .ok true
    | .interrupted => .error interrupt

/-- What can be seen of a wait for a stop request. -/
def waited (x : External) (h : Host) : List Effect :=
  if h.waits.isSome then [.wait x.pollInterval] else []

theorem stopAt_of_follows {h' : Host} {j : Nat} (hf : h'.Follows h j) (x : External) (k : Nat) :
    x.stopAt h' k = x.stopAt h (k + j) := by
  cases hw : h.waits <;> simp [stopAt, hf.waits, hf.stopped, hw, Nat.add_comm]

theorem waited_of_follows {h' : Host} {j : Nat} (hf : h'.Follows h j) (x : External) : x.waited h' = x.waited h := by
  simp [waited, hf.waits]

theorem note_eq (e : Effect) (h : Host) : Action.note e h = (.ok (), h.after 0 [e]) := by
  have hw : h.waits.map (List.drop 0) = h.waits := by cases h.waits <;> rfl
  rw [Host.after, hw]
  rfl

theorem awaitStop_eq (x : External) (h : Host) :
    awaitStop x.pollInterval h = (x.stopAt h 0, h.after 1 (x.waited h)) := by
  rw [awaitStop, Action.bind_of_ok (Action.get_eq h)]
  cases hw : h.waits with
  | none =>
    have hsame : h.after 1 (x.waited h) = h := by
      have hwaits : h.waits.map (List.drop 1) = h.waits := by rw [hw]; rfl
      have hunseen : x.waited h = [] := by simp [waited, hw]
      rw [Host.after, hwaits, hunseen, List.append_nil]
    rw [hsame]
    simp only [stopAt, hw]
    split
    · rfl
    · split <;> rfl
  | some ws =>
    have hafter : h.after 1 (x.waited h) =
        { h with waits := some ws.tail, effects := h.effects ++ [.wait x.pollInterval] } := by
      simp [Host.after, waited, hw]
    have hstop : x.stopAt h 0 = match ws.head?.getD .elapsed with
        | .elapsed => .ok false
        | .stopped => .ok true
        | .interrupted => .error interrupt := by
      rw [stopAt, hw, List.head?_eq_getElem?]
    rw [hafter, hstop]
    dsimp only
    cases ws.head?.getD .elapsed <;> rfl

theorem awaitEnd_eq (timeout : Option Nat) (h : Host) :
    (h.Interrupted 0 ∧ awaitEnd timeout h = (.error interrupt, h.after 1 [.join timeout])) ∨
      ¬h.Interrupted 0 ∧ awaitEnd timeout h = (.ok (), h.after 1 [.join timeout]) := by
  have hstate : h.after 1 [.join timeout] =
      { h with waits := h.waits.map List.tail, effects := h.effects ++ [.join timeout] } := by
    cases hw : h.waits <;> simp [Host.after, hw]
  have hiff : h.Interrupted 0 ↔ h.waits.bind List.head? = some .interrupted := by
    cases hw : h.waits <;> simp [Host.Interrupted, hw, List.head?_eq_getElem?]
  rw [hiff, hstate]
  have hnote : Action.note (.join timeout) h = (.ok (), { h with effects := h.effects ++ [.join timeout] }) := rfl
  rw [awaitEnd, Action.bind_of_ok hnote, Action.bind_of_ok (Action.get_eq _)]
  dsimp only
  cases hw : h.waits.bind List.head? with
  | none => exact .inr ⟨nofun, rfl⟩
  | some w =>
    cases w with
    | interrupted => exact .inl ⟨rfl, rfl⟩
    | elapsed | stopped => exact .inr ⟨nofun, rfl⟩

/-- What the server answers to a poll after so many others; when its answers are used up, it has ended. -/
def pollAt (s : ServerScript) (polls : List (Option Int)) (k : Nat) : Option Int :=
  polls[k]?.getD (some s.exit)

/-- A round of a poll that finds the server running and a wait that brings no stop request. -/
structure Rounds (x : External) (s : ServerScript) (polls : List (Option Int)) (h : Host) (k : Nat) : Prop where
  running : pollAt s polls k = none
  unasked : x.stopAt h k = .ok false

/-- A stop is requested while the server runs. -/
structure Asked (x : External) (s : ServerScript) (polls : List (Option Int)) (h : Host) (k : Nat) : Prop where
  running : pollAt s polls k = none
  asked : x.stopAt h k = .ok true

/-- The server ignores that it was terminated for as long as it has for that. -/
structure Ignored (s : ServerScript) (h : Host) (k : Nat) : Prop where
  waited : ¬h.Interrupted (k + 1)
  hangs : s.hangs = true

/-- How a run ends after so many rounds, with what is done in the end. -/
inductive Ending (x : External) (s : ServerScript) (polls : List (Option Int)) (h : Host) (n : Nat) :
    ServerEnd → List Effect → Prop where
  | exited {c : Int} : pollAt s polls n = some c → Ending x s polls h n ⟨none, false, some c⟩ [.poll]
  | broken {f : Failure} : pollAt s polls n = none → x.stopAt h n = .error f →
      Ending x s polls h n ⟨some f, false, none⟩ (.poll :: x.waited h)
  | terminated : Asked x s polls h n → ¬h.Interrupted (n + 1) → s.hangs = false →
      Ending x s polls h n ⟨none, true, some s.signalExit⟩
        (.poll :: x.waited h ++ [.terminate, .join (some gracePeriod)])
  | left : Asked x s polls h n → h.Interrupted (n + 1) →
      Ending x s polls h n ⟨some interrupt, true, lateCode s (polls.drop (n + 1))⟩
        (.poll :: x.waited h ++ [.terminate, .join (some gracePeriod)])
  | killed : Asked x s polls h n → Ignored s h n → ¬h.Interrupted (n + 2) →
      Ending x s polls h n ⟨none, true, some s.signalExit⟩
        (.poll :: x.waited h ++ [.terminate, .join (some gracePeriod), .kill, .join none])
  | leftKilled : Asked x s polls h n → Ignored s h n → h.Interrupted (n + 2) →
      Ending x s polls h n ⟨some interrupt, true, lateCode s (polls.drop (n + 1))⟩
        (.poll :: x.waited h ++ [.terminate, .join (some gracePeriod), .kill, .join none])

/-- What is done in some rounds. -/
def rounds (x : External) (h : Host) (n : Nat) : List Effect :=
  (List.replicate n (.poll :: x.waited h)).flatten

theorem rounds_succ (x : External) (h : Host) (n : Nat) :
    x.rounds h (n + 1) = x.rounds h n ++ .poll :: x.waited h := by
  rw [rounds, List.replicate_succ', List.flatten_append, List.flatten_singleton, ← rounds]

theorem not_mem_seen {a : Effect} (hp : a ≠ .poll) (hw : a ≠ .wait x.pollInterval) : a ∉ .poll :: x.waited h := by
  rw [waited]
  split <;> simp [hp, hw]

theorem not_mem_rounds {a : Effect} (hp : a ≠ .poll) (hw : a ≠ .wait x.pollInterval) : a ∉ x.rounds h n := by
  rw [rounds, List.mem_flatten]
  rintro ⟨seen, hseen, ha⟩
  rw [List.eq_of_mem_replicate hseen] at ha
  exact not_mem_seen hp hw ha

section Follows

variable {h' : Host} {j k : Nat}

theorem pollAt_drop (s : ServerScript) (polls : List (Option Int)) (j k : Nat) :
    pollAt s (polls.drop j) k = pollAt s polls (k + j) := by
  rw [pollAt, pollAt, List.getElem?_drop, Nat.add_comm]

theorem Rounds.shift (hf : h'.Follows h j) (hr : Rounds x s (polls.drop j) h' k) : Rounds x s polls h (k + j) :=
  ⟨by rw [← hr.running, pollAt_drop], by rw [← hr.unasked, stopAt_of_follows hf]⟩

theorem Asked.shift (hf : h'.Follows h j) (ha : Asked x s (polls.drop j) h' k) : Asked x s polls h (k + j) :=
  ⟨by rw [← ha.running, pollAt_drop], by rw [← ha.asked, stopAt_of_follows hf]⟩

theorem Ignored.shift (hf : h'.Follows h j) (hi : Ignored s h' k) : Ignored s h (k + j) :=
  ⟨fun h => hi.waited ((hf.interrupted _).2 (Nat.add_right_comm k 1 j ▸ h)), hi.hangs⟩

/-- An ending seen from a machine with fewer waits behind it. -/
theorem Ending.shift {e : ServerEnd} {tail : List Effect} (hf : h'.Follows h j)
    (he : Ending x s (polls.drop j) h' n e tail) : Ending x s polls h (n + j) e tail := by
  have hinterrupted (k : Nat) : h'.Interrupted (n + k) ↔ h.Interrupted (n + j + k) := by
    rw [hf.interrupted, Nat.add_right_comm]
  have hlate : (polls.drop j).drop (n + 1) = polls.drop (n + j + 1) := by
    rw [List.drop_drop]
    congr 1
    omega
  cases he with
  | exited hp => exact .exited (by rw [← hp, pollAt_drop])
  | broken hp hs =>
    rw [waited_of_follows hf]
    exact .broken (by rw [← hp, pollAt_drop]) (by rw [← hs, stopAt_of_follows hf])
  | terminated ha hi hh =>
    rw [waited_of_follows hf]
    exact .terminated (ha.shift hf) (fun h => hi ((hinterrupted 1).2 h)) hh
  | left ha hi =>
    rw [waited_of_follows hf, hlate]
    exact .left (ha.shift hf) ((hinterrupted 1).1 hi)
  | killed ha hg hi =>
    rw [waited_of_follows hf]
    exact .killed (ha.shift hf) (hg.shift hf) fun h => hi ((hinterrupted 2).2 h)
  | leftKilled ha hg hi =>
    rw [waited_of_follows hf, hlate]
    exact .leftKilled (ha.shift hf) (hg.shift hf) ((hinterrupted 2).1 hi)

end Follows

theorem attempt_awaitEnd (timeout : Option Nat) (h : Host) :
    (h.Interrupted 0 ∧ Action.attempt (awaitEnd timeout) h = (.ok (.error interrupt), h.after 1 [.join timeout])) ∨
      ¬h.Interrupted 0 ∧ Action.attempt (awaitEnd timeout) h = (.ok (.ok ()), h.after 1 [.join timeout]) := by
  rw [Action.attempt_eq]
  obtain ⟨hi, he⟩ | ⟨hi, he⟩ := awaitEnd_eq timeout h
  · exact .inl ⟨hi, by rw [he]⟩
  · exact .inr ⟨hi, by rw [he]⟩

/-- Ending a server that a stop was requested for. -/
theorem endServer_ends (ha : Asked x s (none :: polls) h 0) :
    ∃ e k tail, Ending x s (none :: polls) h 0 e (.poll :: x.waited h ++ tail) ∧
      endServer s polls (h.after 1 (.poll :: x.waited h)) = (.ok e, h.after k (.poll :: x.waited h ++ tail)) := by
  generalize hseen : Effect.poll :: x.waited h = seen
  have hterminate : Action.note .terminate (h.after 1 seen) = (.ok (), h.after 1 (seen ++ [.terminate])) := by
    rw [note_eq, Host.after_after]
  rw [endServer, Action.bind_of_ok hterminate]
  obtain ⟨hi, hj⟩ | ⟨hi, hj⟩ := attempt_awaitEnd (some gracePeriod) (h.after 1 (seen ++ [.terminate]))
  all_goals
    rw [(Host.follows_after h 1 _).interrupted] at hi
    rw [Host.after_after, List.append_assoc] at hj
    rw [Action.bind_of_ok hj]
  · exact ⟨_, 2, _, hseen ▸ .left ha hi, rfl⟩
  · dsimp only
    cases hh : s.hangs with
    | false => exact ⟨_, 2, _, hseen ▸ .terminated ha hi hh, rfl⟩
    | true =>
      have hkill : Action.note .kill (h.after 2 (seen ++ ([.terminate] ++ [.join (some gracePeriod)]))) =
          (.ok (), h.after 2 (seen ++ [.terminate, .join (some gracePeriod), .kill])) := by
        rw [note_eq, Host.after_after, List.append_assoc]
        rfl
      rw [if_pos rfl, Action.bind_of_ok hkill]
      obtain ⟨hi', hj'⟩ | ⟨hi', hj'⟩ :=
        attempt_awaitEnd none (h.after 2 (seen ++ [.terminate, .join (some gracePeriod), .kill]))
      all_goals
        rw [(Host.follows_after h 2 _).interrupted] at hi'
        rw [Host.after_after, List.append_assoc] at hj'
        rw [Action.bind_of_ok hj']
      · exact ⟨_, 3, _, hseen ▸ .leftKilled ha ⟨hi, hh⟩ hi', rfl⟩
      · exact ⟨_, 3, _, hseen ▸ .killed ha ⟨hi, hh⟩ hi', rfl⟩

theorem followServer_ends (x : External) (s : ServerScript) (polls : List (Option Int)) (h : Host) :
    ∃ n e tail k, (∀ i < n, Rounds x s polls h i) ∧ Ending x s polls h n e tail ∧
      followServer x s polls h = (.ok e, h.after k (x.rounds h n ++ tail)) := by
  induction polls generalizing h with
  | nil =>
    refine ⟨0, _, _, 0, nofun, .exited rfl, ?_⟩
    rw [followServer, Action.bind_of_ok (note_eq .poll h)]
    rfl
  | cons p polls ih =>
    cases p with
    | some c =>
      refine ⟨0, _, _, 0, nofun, .exited rfl, ?_⟩
      rw [followServer, Action.bind_of_ok (note_eq .poll h)]
      rfl
    | none =>
      have hwait : Action.attempt (awaitStop x.pollInterval) (h.after 0 [.poll]) =
          (.ok (x.stopAt h 0), h.after 1 (.poll :: x.waited h)) := by
        rw [Action.attempt_eq, awaitStop_eq, stopAt_of_follows (Host.follows_after h 0 _),
          waited_of_follows (Host.follows_after h 0 _), Host.after_after]
        rfl
      rw [followServer, Action.bind_of_ok (note_eq .poll h), Action.bind_of_ok hwait]
      cases hs : x.stopAt h 0 with
      | error f => exact ⟨0, _, _, 1, nofun, .broken rfl hs, rfl⟩
      | ok asked =>
        cases asked with
        | true =>
          have ha : Asked x s (none :: polls) h 0 := ⟨rfl, hs⟩
          obtain ⟨e, k, tail, hending, hrun⟩ := endServer_ends ha
          exact ⟨0, e, _, k, nofun, hending, hrun⟩
        | false =>
          have hf := Host.follows_after h 1 (.poll :: x.waited h)
          obtain ⟨n, e, tail, k, hrounds, hending, hrun⟩ := ih (h.after 1 (.poll :: x.waited h))
          have hlater : Ending x s ((none :: polls).drop 1) (h.after 1 (.poll :: x.waited h)) n e tail := hending
          refine ⟨n + 1, e, tail, 1 + k, fun i hi => ?_, hlater.shift hf, ?_⟩
          · cases i with
            | zero => exact ⟨rfl, hs⟩
            | succ i =>
              have hround : Rounds x s ((none :: polls).drop 1) _ i := hrounds i (Nat.lt_of_succ_lt_succ hi)
              exact hround.shift hf
          · dsimp only
            rw [hrun, Host.after_after, rounds, rounds, waited_of_follows hf, List.replicate_succ, List.flatten_cons,
              List.append_assoc]

/-- A server that is started is followed to some end, which is logged. -/
theorem serve_ends (x : External) (hs : h.server.failure = none) :
    ∃ n e tail, (∀ i < n, Rounds x h.server h.server.polls h i) ∧ Ending x h.server h.server.polls h n e tail ∧
      (x.serve h).1 = e.result ∧ (x.serve h).2.effects = h.effects ++ .spawn x.server :: (x.rounds h n ++ tail) ∧
      (x.serve h).2.records =
        h.records ++ [Log.Record.of h.context startedEvent, Log.Record.of h.context (stoppedEvent e.code)] := by
  have hspawn := note_eq (.spawn x.server) h
  obtain ⟨h₁, hlog, hf, hserver, heffects, hcontext, hrecords⟩ : ∃ h₁,
      Action.log startedEvent (h.after 0 [.spawn x.server]) = (.ok (), h₁) ∧ h₁.Follows h 0 ∧ h₁.server = h.server ∧
        h₁.effects = h.effects ++ [.spawn x.server] ∧ h₁.context = h.context ∧
        h₁.records = h.records ++ [Log.Record.of h.context startedEvent] := ⟨_, rfl, ⟨rfl, rfl⟩, rfl, rfl, rfl, rfl⟩
  obtain ⟨n, e, tail, k, hrounds, hending, hrun⟩ := followServer_ends x h.server h.server.polls h₁
  have hserve : x.serve h = (e.result, (Action.log (stoppedEvent e.code) (h₁.after k (x.rounds h₁ n ++ tail))).2) := by
    have hlogged : Action.log (stoppedEvent e.code) (h₁.after k (x.rounds h₁ n ++ tail)) =
        (.ok (), (Action.log (stoppedEvent e.code) (h₁.after k (x.rounds h₁ n ++ tail))).2) := rfl
    rw [serve, Action.bind_of_ok (Action.get_eq h), Action.bind_of_ok hspawn, hs]
    dsimp only
    rw [Action.bind_of_ok hlog, Action.bind_of_ok hrun, Action.bind_of_ok hlogged, Action.lift_eq]
  have hlast : Ending x h.server (h.server.polls.drop 0) h₁ n e tail := hending
  refine ⟨n, e, tail, fun i hi => ?_, hlast.shift hf, by rw [hserve], ?_, ?_⟩
  · have hround : Rounds x h.server (h.server.polls.drop 0) h₁ i := hrounds i hi
    exact hround.shift hf
  · rw [hserve]
    change h₁.effects ++ (x.rounds h₁ n ++ tail) = _
    rw [heffects, rounds, waited_of_follows hf, ← rounds, List.append_assoc, List.singleton_append]
  · rw [hserve]
    change h₁.records ++ [Log.Record.of h₁.context (stoppedEvent e.code)] = _
    rw [hrecords, hcontext, List.append_assoc]
    rfl

/-- What breaks a run off after so many rounds: the wait for a stop request, or one of those for the server to end. -/
inductive BrokenOff (x : External) (s : ServerScript) (polls : List (Option Int)) (h : Host) (n : Nat) : Failure → Prop where
  | asking {f : Failure} : pollAt s polls n = none → x.stopAt h n = .error f → BrokenOff x s polls h n f
  | terminated : Asked x s polls h n → h.Interrupted (n + 1) → BrokenOff x s polls h n interrupt
  | killed : Asked x s polls h n → Ignored s h n → h.Interrupted (n + 2) → BrokenOff x s polls h n interrupt

/-- The server is left while it runs: a run that was not to be ended is broken off, or one in which the server would not
have ended by the next poll. -/
def Orphaned (x : External) (s : ServerScript) (polls : List (Option Int)) (h : Host) (n : Nat) : Prop :=
  ∃ f, BrokenOff x s polls h n f ∧ (¬Asked x s polls h n ∨ pollAt s polls (n + 1) = none)

theorem not_asked_of_exited {c : Int} (hp : pollAt s polls n = some c) : ¬Asked x s polls h n := fun ha => by
  cases hp.symm.trans ha.running

theorem not_asked_of_broken {f : Failure} (hs : x.stopAt h n = .error f) : ¬Asked x s polls h n := fun ha => by
  cases hs.symm.trans ha.asked

theorem lateCode_eq_none : lateCode s (polls.drop (n + 1)) = none ↔ pollAt s polls (n + 1) = none := by
  rw [pollAt, ← List.head?_drop]
  cases polls.drop (n + 1) <;> simp [lateCode]

namespace Ending

variable {e : ServerEnd} {tail : List Effect}

theorem returned (he : Ending x s polls h n e tail) {b : Bool} (hr : e.result = .ok b) :
    (∃ c, e.code = some c) ∧ (b = true ↔ Asked x s polls h n ∨ pollAt s polls n = some 0) := by
  cases he with
  | exited hp =>
    cases hr
    refine ⟨⟨_, rfl⟩, ?_⟩
    simp [hp, not_asked_of_exited hp]
  | terminated ha | killed ha =>
    cases hr
    exact ⟨⟨_, rfl⟩, by simp [ha]⟩
  | broken | left | leftKilled => cases hr

theorem failed_iff (he : Ending x s polls h n e tail) {f : Failure} : e.result = .error f ↔ BrokenOff x s polls h n f := by
  cases he with
  | exited hp =>
    refine iff_of_false nofun ?_
    rintro (⟨hp', -⟩ | ⟨ha, -⟩ | ⟨ha, -, -⟩)
    · cases hp.symm.trans hp'
    · exact not_asked_of_exited hp ha
    · exact not_asked_of_exited hp ha
  | @broken g hp hs =>
    constructor
    · rintro ⟨⟩
      exact .asking hp hs
    · rintro (⟨-, hs'⟩ | ⟨ha, -⟩ | ⟨ha, -, -⟩)
      · cases hs.symm.trans hs'
        rfl
      · exact absurd ha (not_asked_of_broken hs)
      · exact absurd ha (not_asked_of_broken hs)
  | terminated ha hi hh =>
    refine iff_of_false nofun ?_
    rintro (⟨-, hs⟩ | ⟨-, hi'⟩ | ⟨-, hg, -⟩)
    · exact not_asked_of_broken hs ha
    · exact hi hi'
    · cases hh.symm.trans hg.hangs
  | left ha hi =>
    constructor
    · rintro ⟨⟩
      exact .terminated ha hi
    · rintro (⟨-, hs⟩ | ⟨-, -⟩ | ⟨-, -, -⟩)
      · exact absurd ha (not_asked_of_broken hs)
      · rfl
      · rfl
  | killed ha hg hi =>
    refine iff_of_false nofun ?_
    rintro (⟨-, hs⟩ | ⟨-, hi'⟩ | ⟨-, -, hi'⟩)
    · exact not_asked_of_broken hs ha
    · exact hg.waited hi'
    · exact hi hi'
  | leftKilled ha hg hi =>
    constructor
    · rintro ⟨⟩
      exact .killed ha hg hi
    · rintro (⟨-, hs⟩ | ⟨-, -⟩ | ⟨-, -, -⟩)
      · exact absurd ha (not_asked_of_broken hs)
      · rfl
      · rfl

theorem orphaned_iff (he : Ending x s polls h n e tail) : e.code = none ↔ Orphaned x s polls h n := by
  have hfailed (f : Failure) := he.failed_iff (f := f)
  cases he with
  | exited hp =>
    refine iff_of_false nofun ?_
    rintro ⟨f, hb, -⟩
    cases (hfailed f).2 hb
  | broken hp hs => exact iff_of_true rfl ⟨_, .asking hp hs, .inl (not_asked_of_broken hs)⟩
  | terminated | killed =>
    refine iff_of_false nofun ?_
    rintro ⟨f, hb, -⟩
    cases (hfailed f).2 hb
  | left ha hi =>
    rw [lateCode_eq_none]
    exact ⟨fun h => ⟨_, .terminated ha hi, .inr h⟩, fun ⟨_, _, h⟩ => h.resolve_left fun h => h ha⟩
  | leftKilled ha hg hi =>
    rw [lateCode_eq_none]
    exact ⟨fun h => ⟨_, .killed ha hg hi, .inr h⟩, fun ⟨_, _, h⟩ => h.resolve_left fun h => h ha⟩

/-- The rounds before an ending are all. -/
theorem not_rounds (he : Ending x s polls h n e tail) : ¬Rounds x s polls h n := fun hr => by
  cases he with
  | exited hp => cases hp.symm.trans hr.running
  | broken _ hs => cases hs.symm.trans hr.unasked
  | terminated ha | left ha | killed ha | leftKilled ha => cases ha.asked.symm.trans hr.unasked

theorem unasked (he : Ending x s polls h n e tail) (ha : ¬Asked x s polls h n) :
    .terminate ∉ x.rounds h n ++ tail ∧ .kill ∉ x.rounds h n ++ tail := by
  have hquiet (a : Effect) (hp : a ≠ .poll) (hw : a ≠ .wait x.pollInterval) : a ∉ x.rounds h n ++ tail := by
    rw [List.mem_append, or_iff_right (not_mem_rounds hp hw)]
    cases he with
    | exited => simp [hp]
    | broken => exact not_mem_seen hp hw
    | terminated ha' | left ha' | killed ha' | leftKilled ha' => exact absurd ha' ha
  exact ⟨hquiet .terminate nofun nofun, hquiet .kill nofun nofun⟩

theorem obeyed (he : Ending x s polls h n e tail) (ha : Asked x s polls h n) (hg : ¬Ignored s h n) :
    x.rounds h n ++ tail = x.rounds h (n + 1) ++ [.terminate, .join (some gracePeriod)] := by
  rw [rounds_succ, List.append_assoc]
  cases he with
  | exited hp => exact absurd ha (not_asked_of_exited hp)
  | broken _ hs => exact absurd ha (not_asked_of_broken hs)
  | terminated | left => rfl
  | killed _ hg' | leftKilled _ hg' => exact absurd hg' hg

theorem ignored (he : Ending x s polls h n e tail) (ha : Asked x s polls h n) (hg : Ignored s h n) :
    x.rounds h n ++ tail =
      x.rounds h (n + 1) ++ [.terminate, .join (some gracePeriod), .kill, .join none] := by
  rw [rounds_succ, List.append_assoc]
  cases he with
  | exited hp => exact absurd ha (not_asked_of_exited hp)
  | broken _ hs => exact absurd ha (not_asked_of_broken hs)
  | terminated _ _ hh => cases hh.symm.trans hg.hangs
  | left _ hi => exact absurd hi hg.waited
  | killed | leftKilled => rfl

end Ending

/-- Every run of a server that starts. It returns once the server has ended and was waited for, and then true just if a
stop was requested or the server ended well. Just if it is broken off, and the server would not have ended at once, it
leaves the server behind, and the end is logged without an exit code. The server is terminated just when a stop was
requested, and killed just if it ignores that. -/
theorem serve_orphans_iff (x : External) (hs : h.server.failure = none) :
    ∃ n code trace, (∀ i < n, Rounds x h.server h.server.polls h i) ∧ ¬Rounds x h.server h.server.polls h n ∧
      (x.serve h).2.effects = h.effects ++ .spawn x.server :: trace ∧
      (x.serve h).2.records =
        h.records ++ [Log.Record.of h.context startedEvent, Log.Record.of h.context (stoppedEvent code)] ∧
      (∀ b, (x.serve h).1 = .ok b → (∃ c, code = some c) ∧
        (b = true ↔ Asked x h.server h.server.polls h n ∨ pollAt h.server h.server.polls n = some 0)) ∧
      (∀ f, (x.serve h).1 = .error f ↔ BrokenOff x h.server h.server.polls h n f) ∧
      (code = none ↔ Orphaned x h.server h.server.polls h n) ∧
      (¬Asked x h.server h.server.polls h n → .terminate ∉ trace ∧ .kill ∉ trace) ∧
      (Asked x h.server h.server.polls h n → ¬Ignored h.server h n →
        trace = x.rounds h (n + 1) ++ [.terminate, .join (some gracePeriod)]) ∧
      (Asked x h.server h.server.polls h n → Ignored h.server h n →
        trace = x.rounds h (n + 1) ++ [.terminate, .join (some gracePeriod), .kill, .join none]) := by
  obtain ⟨n, e, tail, hrounds, hending, hresult, heffects, hrecords⟩ := serve_ends x hs
  refine ⟨n, e.code, x.rounds h n ++ tail, hrounds, hending.not_rounds, heffects, hrecords, fun b hb => ?_, fun f => ?_,
    hending.orphaned_iff, hending.unasked, hending.obeyed, hending.ignored⟩
  · exact hending.returned (hresult ▸ hb)
  · rw [hresult, hending.failed_iff]

/-- A toolchain that looks for a stop request every second. -/
def attached : External :=
  ⟨["munc"], ["mun-language-server"], .ofInt 1, Delay.standard, Host.bare.platform.loader⟩

/-- A machine with a server that minds nothing, for which a stop is requested at the second wait. -/
def stubborn : Host :=
  { Host.bare with server := ⟨[none, none], 0, -9, true, none⟩, waits := some [.elapsed, .stopped] }

/-- The server is killed once it has had its time. -/
theorem serve_orphans_iff_stubborn :
    stubborn.server.failure = none ∧
      (attached.serve stubborn).2.effects = [.spawn attached.server, .poll, .wait attached.pollInterval, .poll,
        .wait attached.pollInterval, .terminate, .join (some gracePeriod), .kill, .join none] := by
  obtain ⟨n, code, trace, hrounds, hover, heffects, -, -, -, -, -, -, hkilled⟩ :=
    serve_orphans_iff attached (show stubborn.server.failure = none from rfl)
  have hfirst : Rounds attached stubborn.server stubborn.server.polls stubborn 0 := ⟨rfl, rfl⟩
  have hsecond : Asked attached stubborn.server stubborn.server.polls stubborn 1 := ⟨rfl, rfl⟩
  have hignored : Ignored stubborn.server stubborn 1 := ⟨by rintro ⟨ws, ⟨⟩, ⟨⟩⟩, rfl⟩
  obtain rfl : n = 1 := by
    rcases n with _ | _ | n
    · exact absurd hfirst hover
    · rfl
    · cases (hrounds 1 (by omega)).unasked.symm.trans hsecond.asked
  refine ⟨rfl, ?_⟩
  rw [heffects, hkilled hsecond hignored]
  rfl

/-- A machine on which the first wait for a stop request is interrupted. -/
def interrupted : Host :=
  { Host.bare with server := ⟨[none], 0, -15, false, none⟩, waits := some [.interrupted] }

/-- A server can be left while it runs: nobody terminated it or waited for it. -/
theorem serve_orphans_interrupted :
    interrupted.server.failure = none ∧ (attached.serve interrupted).1 = .error interrupt ∧
      (attached.serve interrupted).2.effects = [.spawn attached.server, .poll, .wait attached.pollInterval] ∧
      Orphaned attached interrupted.server interrupted.server.polls interrupted 0 :=
  ⟨rfl, rfl, rfl, _, .asking rfl rfl, .inl (not_asked_of_broken rfl)⟩

end External

end Hotload
