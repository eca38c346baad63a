import Hotload.Toolchain.External

/-!
Running the language server until it ends by itself or a stop is requested. A server that is to stop is terminated; if
it does not end within a grace period, it is killed. What breaks off a wait ends the run, and the server is left as it is.
-/
namespace Hotload.External

def processId : Int := 1

/-- Seconds that a server has to end after it was terminated. -/
def gracePeriod : Nat := 5

def interrupt : Failure :=
  .raised ⟨.interrupt, [], [], none⟩

def unmeasured : Failure :=
  .raised ⟨.overflow, [.text "timestamp too large to convert to C _PyTime_t"], [], none⟩

/-- Whether a wait takes so many nanoseconds that 63 bits do not hold their number. -/
def isUnmeasured (seconds : Binary64) : Bool :=
  seconds.isPositive &&
    (seconds.isInfinite ||
      let e := seconds.exponent
      if 0 ≤ e then Binary64.pow2 63 ≤ seconds.significand * Binary64.pow2 e.toNat * Binary64.pow10 9
      else Binary64.pow2 63 * Binary64.pow2 (-e).toNat ≤ seconds.significand * Binary64.pow10 9)

/-- Waits for a stop request; true if there is one. When the waits that are laid down are used up, none comes. -/
def awaitStop (seconds : Binary64) : Action Bool := do
  let h ← get
  match h.waits with
  | none =>
    if h.stopped then return true
    else if isUnmeasured seconds then throw unmeasured
    else return false
  | some ws =>
    Action.note (.wait seconds)
    modify fun h => { h with waits := some ws.tail }
    match ws.head?.getD .elapsed with
    | .elapsed => return false
    | .stopped => return true
    | .interrupted => throw interrupt

/-- Waits for the server to end, which it may not do in time. Of the waits that are laid down only interrupts count. -/
def awaitEnd (timeout : Option Nat) : Action Unit := do
  Action.note (.join timeout)
  let h ← get
  modify fun h => { h with waits := h.waits.map List.tail }
  match h.waits.bind List.head? with
  | some .interrupted => throw interrupt
  | _ => return ()

/-- How a run of the server came to its end: what broke it off, whether a stop was requested, and the exit code if the
server has ended and was waited for. -/
structure ServerEnd where
  failure : Option Failure
  stopped : Bool
  code : Option Int

/-- A wait for the server that is interrupted goes on for a moment; the exit code if the server ends by then. -/
def lateCode (s : ServerScript) : List (Option Int) → Option Int
  | [] => some s.signalExit
  | code :: _ => code

/-- Ends the server, which would have answered so if it had been polled on. -/
def endServer (s : ServerScript) (polls : List (Option Int)) : Action ServerEnd := do
  Action.note .terminate
  match ← Action.attempt (awaitEnd (some gracePeriod)) with
  | .error f => return ⟨some f, true, lateCode s polls⟩
  | .ok () =>
    if s.hangs then
      Action.note .kill
      match ← Action.attempt (awaitEnd none) with
      | .error f => return ⟨some f, true, lateCode s polls⟩
      | .ok () => return ⟨none, true, some s.signalExit⟩
    else return ⟨none, true, some s.signalExit⟩

def followServer (x : External) (s : ServerScript) : List (Option Int) → Action ServerEnd
  | [] => do
    Action.note .poll
    return ⟨none, false, some s.exit⟩
  | some code :: _ => do
    Action.note .poll
    return ⟨none, false, some code⟩
  | none :: polls => do
    Action.note .poll
    match ← Action.attempt (awaitStop x.pollInterval) with
    | .error f => return ⟨some f, false, none⟩
    | .ok true => endServer s polls
    | .ok false => followServer x s polls

def codeValue (code : Option Int) : Value :=
  (code.map Value.int).getD .null

def startedEvent : Log.Event :=
  Log.info logger "language_server_started" [("pid", .int processId)]

def stoppedEvent (code : Option Int) : Log.Event :=
  Log.info logger "language_server_stopped" [("exit_code", codeValue code)]

/-- True if the server was stopped on request or ended well by itself. -/
def ServerEnd.result (e : ServerEnd) : Outcome Bool :=
  match e.failure with
  | some f => .error f
  | none => .ok (e.stopped || e.code = some 0)

def serve (x : External) : Action Bool := do
  let s := (← get).server
  Action.note (.spawn x.server)
  match s.failure with
  | some f => throw (startFailure .cannotServe x.server f)
  | none =>
    Action.log startedEvent
    let e ← x.followServer s s.polls
    Action.log (stoppedEvent e.code)
    Action.lift e.result

end Hotload.External
