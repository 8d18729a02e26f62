import Coordination.Rehearsal.Stage

/-! # Playing a rehearsal

Each step becomes one line: its report, its own calls of the store and the number of live keys after it. A crash ends
the step that caused it and no other.
-/
namespace Coordination.Rehearsal
open Store

def run {α : Type} (p : Program Unit α) : Play α := p.interpret (answerWith (pure ()))

def report {ω α : Type} (work : Play ω) (a : Action ω α) (shown : α → Report) : Play Report := do
  match ← (ExceptT.run a).interpret (answerWith work) with
  | .ok result => pure (shown result)
  | .error f => pure (.failed f)

def reportAlone {α : Type} (a : Action Unit α) (shown : α → Report) : Play Report := report (pure ()) a shown

def reportOf : (r : Request) → r.Reply → Report
  | .ping, _ => .nothing
  | .setIfAbsent .., b => .flag b
  | .get _, s => .text s
  | .set .., _ => .nothing
  | .delete _, b => .flag b
  | .increment .., n => .count n
  | .ttlRemaining _, d => .span d
  | .compareAndDelete .., b => .flag b

def Call.report (call : Call) : Report :=
  match call.outcome with
  | .ok reply => reportOf call.request reply
  | .error f => .failed f

def playStore (r : Request) : Play Report := do
  let outcome ← serve r
  return (← record ⟨r, outcome⟩).report

/-- Writes the keys from a number on, unrecorded, and reports the last write. -/
def playFill (stem value : String) (ttl : Option Duration) : Nat → Nat → Report → Play Report
  | 0, _, last => pure last
  | count + 1, i, _ => do
    match ← serve (.set s!"{stem}{i}" value ttl) with
    | .ok () => playFill stem value ttl count (i + 1) .nothing
    | .error f => playFill stem value ttl count (i + 1) (.failed f)

/-- Reports what a caller for an idempotency key is told; a ticket is kept under its number. -/
def reportStanding : Idempotency.Standing → Play Report
  | .inFlight => pure .inFlight
  | .cached response => pure (.cached response)
  | .acquired ticket => do
    let stage ← get
    set { stage with tickets := stage.tickets ++ [ticket] }
    pure (.claimed ticket.key stage.tickets.length)

def playClaim (key : String) : Play Report := do
  let stage ← get
  match ← run (ExceptT.run (stage.services.idempotency.check key)) with
  | .ok standing => reportStanding standing
  | .error f => pure (.failed f)

def playInspect (key : String) : Play Report := do
  match ← run (ExceptT.run (Idempotency.inspect key)) with
  | .ok (some standing) => reportStanding standing
  | .ok none => pure .noRecord
  | .error f => pure (.failed f)

def playRelease (number : Nat) : Play Report := do
  let stage ← get
  match stage.tickets[number]? with
  | none => pure .noTicket
  | some ticket => reportAlone (Idempotency.release ticket) (.ticketReleased ticket.key)

def playSignIn (rules : SignIn.Rules) (s : SignIn.Subject) : SignInAct → Play Report
  | .check => reportAlone (SignIn.check s) .standing
  | .fail => reportAlone (rules.recordFailure s) .failure
  | .succeed remember => reportAlone (rules.recordSuccess s remember) fun _ => .nothing
  | .isKnownGood => reportAlone (SignIn.isKnownGood s) .flag
  | .incrementFailures => reportAlone (rules.incrementFailures s) .count
  | .failureCount => reportAlone (SignIn.failureCount s) .count
  | .lockedSeconds => reportAlone (SignIn.lockedSeconds s) .count
  | .setLocked seconds => reportAlone (SignIn.setLocked s seconds) fun _ => .nothing
  | .clear => reportAlone (SignIn.clear s) fun _ => .nothing
  | .markKnownGood => reportAlone (rules.markKnownGood s) fun _ => .nothing

/-- Notes that wall times may be written from now on. -/
def noteClock : Play Unit := modify fun stage => { stage with clockRead := true }

def playCheckRate (context : RateLimit.Context) : Option Int → Play Report
  | some nowMs => do
    let stage ← get
    reportAlone (stage.services.rateLimit.checkAt context nowMs) .decision
  | none => do
    noteClock
    let stage ← get
    reportAlone (stage.services.rateLimit.check context) .decision

/-- How often a handler was run, and the lines of its last run. -/
structure Handled where
  runs : Nat
  lines : List Line

/-- Sends a request through layers; the handler plays its steps and then answers. -/
def playHttp (layers : List Http.Layer) (request : Http.Request) (answer : Http.Response)
    (handle : StateM Stage (List Line)) : Play Report := do
  noteClock
  let stage ← get
  let answerAsk : (q : Ask) → StateT Handled Play (q.Answer Http.Response)
    | .work => do
      let lines ← (handle : Play (List Line))
      modify fun handled => ⟨handled.runs + 1, lines⟩
      pure answer
    | .store r => (Rehearsal.request r : Play _)
    | .token => (drawToken : Play _)
    | .clock => pure wallClock
  let (response, handled) ← ((Http.serve stage.services request layers).interpret answerAsk).run ⟨0, []⟩
  pure (.response response handled.runs handled.lines)

/-- Plays lines so often and keeps the last ones. -/
def playRounds (round : StateM Stage (List Line)) : Nat → List Line → StateM Stage (List Line)
  | 0, last => pure last
  | times + 1, _ => do playRounds round times (← round)

/-- Plays a step on its own calls, which come after those of the step around it. -/
def lineOf (play : Play Report) : StateM Stage Line := do
  let outer := (← get).calls
  modify fun stage => { stage with calls := [] }
  let result ← ExceptT.run play
  let stage ← get
  set { stage with calls := outer }
  let report := match result with
    | .ok report => report
    | .error c => .crashed c
  pure (.mk report stage.calls.reverse (stage.memory.size stage.now))

mutual
def playStep : Step → Play Report
  | .store r => playStore r
  | .fill stem count value ttl => playFill stem value ttl count 0 .nothing
  | .advance d => do
    modify fun stage => { stage with now := stage.now.advance d }
    pure .nothing
  | .health => reportAlone Services.checkHealth fun _ => .nothing
  | .isEmpty => do
    let stage ← get
    pure (.flag (stage.memory.size stage.now == 0))
  | .script s => do
    modify fun stage => { stage with scripts := installScript s stage.scripts }
    pure .nothing
  | .outage message => do
    modify fun stage => { stage with outage := message }
    pure .nothing
  | .rounds times steps => do
    let lines ← playRounds (playSteps steps) times []
    pure (.lastRound lines)
  | .acquireLock key owner ttl => reportAlone (Lock.acquire key owner ttl) .lockAcquired
  | .releaseLock key owner => reportAlone (Lock.release key owner) .lockReleased
  | .runExclusive resource ttl steps =>
    report (playSteps steps : Play (List Line)) (Lock.runExclusive resource ttl (Program.once .work)) .exclusive
  | .checkRate context nowMs => playCheckRate context nowMs
  | .claim key => playClaim key
  | .inspect key => playInspect key
  | .release number => playRelease number
  | .complete key response => do
    let stage ← get
    reportAlone (stage.services.idempotency.complete key response) .completion
  | .signIn subject act => do
    let stage ← get
    playSignIn stage.services.signIn subject act
  | .policyDelay failures => do
    let stage ← get
    pure (.span (some (stage.services.signIn.policy.delayFor failures)))
  | .http layers request answer steps => playHttp layers request answer (playSteps steps)

def playSteps : List Step → StateM Stage (List Line)
  | [] => pure []
  | step :: rest => do
    let line ← lineOf (playStep step)
    return line :: (← playSteps rest)
end

/-- The lines of a rehearsal and all calls that it made, in order. -/
def rehearse (services : Services) (steps : List Step) : List Line × List Call :=
  let (lines, stage) := (playSteps steps).run (Stage.initial services)
  (lines, stage.history.reverse)

end Coordination.Rehearsal
