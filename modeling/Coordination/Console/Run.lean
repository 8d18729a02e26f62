import Coordination.Console.Command
import Coordination.Console.Screen
import Coordination.Console.Table
import Coordination.RateLimit.Codec
import Coordination.Remote.Client
import Coordination.Services

/-! # Running commands

A command is a program over the store that also writes on the screen. What it has written stays when it fails later
on. Only the commands that touch the store need complete settings.
-/
namespace Coordination.Console

/-- A program that writes on the screen and may fail. -/
abbrev Session := ExceptT Failure (StateT Screen (Program Unit))

namespace Session

/-- Runs an action of a service. -/
def act {α : Type} (a : Action Unit α) : Session α := ExceptT.mk (StateT.lift (ExceptT.run a))

def say (line : String) : Session Unit := modify fun s => s.print line

def remark (line : String) : Session Unit := modify fun s => s.printError line

end Session

open Session (act say remark)

/-! ## Commands -/

def runHealth : Session Unit := do
  act Services.checkHealth
  say (successLine "Store reachable")

def runAcquire (resource : String) (owner : Option String) (ttl : Duration) : Session Unit := do
  let owner ← match owner with
    | some owner => pure owner
    | none => act Action.token
  let key := Lock.key resource
  if ← act (Lock.acquire key owner ttl) then
    say (successLine s!"Acquired {Style.bold key} for {Span.render ttl}")
    say owner
  else
    say (deniedLine s!"{Style.bold key} is held by another owner")

def runRelease (resource owner : String) : Session Unit := do
  let key := Lock.key resource
  if ← act (Lock.release key owner) then say (successLine s!"Released {Style.bold key}")
  else say (deniedLine s!"{Style.bold key} is not held by {owner}")

/-- A line for each attribute that was given: its value and its threshold, if it has one. -/
def dimensionRows (thresholds : RateLimit.Thresholds) (context : RateLimit.Context) : List (List String) :=
  RateLimit.Dimension.all.filterMap fun d => (context.value d).map fun value =>
    [d.title, value, ((thresholds.get? d).map toString).getD "off"]

def decisionLine (decision : RateLimit.Decision) : String :=
  match decision.isBlocked, decision.blockedBy with
  | true, some d =>
    deniedLine s!"Blocked by {Style.bold d.title}, retry after {Span.render (.ofMillis decision.retryAfterMs)}"
  | _, _ => successLine "Allowed"

def runCheckRate (rules : RateLimit.Rules) (context : RateLimit.Context) (json : Bool) : Session Unit := do
  let decision ← act (rules.check context)
  if json then say decision.toJson.renderIndented
  else
    match dimensionRows rules.thresholds context with
    | [] => remark (infoLine "No request attributes given; nothing is counted.")
    | rows => say (Table.render ["Dimension", "Value", "Threshold"] rows)
    say (decisionLine decision)

def previewLength : Nat := 60

/-- The beginning of a text, with an ellipsis for what is left out. -/
def preview (text : String) : String :=
  let cs := text.toList
  if previewLength < cs.length then String.ofList (cs.take previewLength ++ ['…']) else text

def responseTable (r : Idempotency.CachedResponse) : String :=
  Table.render ["Status", "Content-Type", "Body"] [[toString r.statusCode, r.contentType.getD "-", preview r.body]]

def runClaim (limits : Idempotency.Limits) (key : String) : Session Unit := do
  match ← act (limits.check key) with
  | .acquired _ => say (successLine s!"Claimed {Style.bold key} for {Span.render limits.inFlightTtl}")
  | .inFlight => say (deniedLine s!"{Style.bold key} is in flight")
  | .cached response => do
    remark (infoLine s!"{Style.bold key} has a cached response")
    say (responseTable response)

def runShow (key : String) (json : Bool) : Session Unit := do
  match ← act (Idempotency.inspect key) with
  | none => say s!"No record for {Style.bold key}"
  | some (.cached response) => say (if json then response.toJson.renderIndented else responseTable response)
  | some _ => say s!"{Style.bold key} is in flight"

def runThrottleStatus (s : SignIn.Subject) : Session Unit := do
  let failures ← act (SignIn.failureCount s)
  let locked ← act (SignIn.lockedSeconds s)
  let knownGood ← act (SignIn.isKnownGood s)
  say (Table.render ["Failures", "Locked for", "Known good"] [[toString failures, s!"{locked}s", toString knownGood]])
  match ← act (SignIn.check s) with
  | .allowed => say (successLine "Sign-in attempts allowed")
  | .locked seconds => say (deniedLine s!"Locked, retry after {seconds}s")

def runThrottleFail (rules : SignIn.Rules) (s : SignIn.Subject) : Session Unit := do
  match ← act (rules.recordFailure s) with
  | .bypassed => remark (infoLine "Pair is known good; failure not counted")
  | .recorded failures delay =>
    if delay.isZero then say (successLine s!"Recorded failure {failures}, no lockout")
    else say (deniedLine s!"Recorded failure {failures}, locked for {Span.render delay}")

def runThrottleSucceed (rules : SignIn.Rules) (s : SignIn.Subject) (remember : Bool) : Session Unit := do
  act (rules.recordSuccess s remember)
  if remember then say (successLine "Failure state cleared; pair remembered as known good")
  else say (successLine "Failure state cleared")

def runCommand (settings : Settings) : Command → Session Unit
  | .health => runHealth
  | .acquireLock resource owner ttl => runAcquire resource owner (ttl.getD settings.lockTtl)
  | .releaseLock resource owner => runRelease resource owner
  | .checkRate context json => runCheckRate settings.rateLimit context json
  | .claimKey key => runClaim settings.idempotency key
  | .showKey key json => runShow key json
  | .throttleStatus identifier identity => runThrottleStatus (.ofRaw identifier identity)
  | .throttleFail identifier identity => runThrottleFail settings.signIn (.ofRaw identifier identity)
  | .throttleSucceed identifier identity remember =>
    runThrottleSucceed settings.signIn (.ofRaw identifier identity) remember
  | .throttleDelay failures => say (Span.render (settings.signIn.policy.delayFor failures))
  | .completions _ => pure ()

/-! ## The tool -/

/-- What a run of the tool leaves: its exit code and the screen. -/
structure Ending where
  exitCode : Nat
  screen : Screen
deriving DecidableEq, Repr

def Ending.failed (s : Screen) (f : Failure) : Ending := ⟨1, s.printFailure f⟩

def Ending.printed (text : String) : Ending := ⟨0, Screen.blank.print text⟩

/-- The policy of the settings. Where the environment cannot be read as settings, the standard one. -/
def delayPolicy (environment : List (String × String)) : Except Failure SignIn.Policy :=
  match Settings.ofVariables environment with
  | .ok settings => .ok settings.signIn.policy
  | .error (.configuration _) => .ok .standard
  | .error f => .error f

def toolName : String := "tollgate"

def versionText : String := toolName ++ " 0.1.0"

/-- The commands of the tool, one per line, groups with their members. -/
def commandLines : List String := Command.tree.flatMap fun
  | (name, .leaf _) => [name]
  | (name, .group members) => members.map fun m => s!"{name} {m.1}"

def usageText : String :=
  String.intercalate "\n" (["Inspect and drive distributed coordination state", "", "Commands:"]
    ++ commandLines.map fun line => s!"  {toolName} {line}")

def completionScript (shell : Shell) : String :=
  let names := String.intercalate " " (Command.tree.map Prod.fst)
  match shell with
  | .bash => s!"complete -W '{names}' {toolName}"
  | .elvish => s!"set edit:completion:arg-completer[{toolName}] = [@args]\x7b all [{names}] \x7d"
  | .fish => s!"complete -c {toolName} -f -a '{names}'"
  | .powershell =>
    s!"Register-ArgumentCompleter -Native -CommandName {toolName} -ScriptBlock \x7b '{names}' -split ' ' \x7d"
  | .zsh => s!"compctl -k '({names})' {toolName}"

/-- A run of the tool before it reaches out: it has ended, or it is a session with a client. -/
inductive Start where
  | ended (e : Ending)
  | session (client : Remote.Client) (s : Session Unit)

/-- Begins a command. Completions and delays need no store. -/
def startOf (environment : List (String × String)) : Command → Start
  | .completions shell => .ended (.printed (completionScript shell))
  | .throttleDelay failures =>
    match delayPolicy environment with
    | .ok policy => .ended (.printed (Span.render (policy.delayFor failures)))
    | .error f => .ended (.failed .blank f)
  | command =>
    match Settings.ofVariables environment with
    | .error f => .ended (.failed .blank f)
    | .ok settings =>
      match Remote.Client.ofUrl settings.storeUrl settings.storeTimeout with
      | .error f => .ended (.failed .blank f)
      | .ok client => .session client (runCommand settings command)

/-- What a session needs from outside: a line to the store, tokens and the wall clock. -/
structure Outside (m : Type → Type) where
  signal : Remote.Signal → m Remote.Arrival
  token : m String
  clock : m Int

variable {m : Type → Type} [Monad m]

/-- Answers the questions of a session through a client. -/
def Outside.answer (o : Outside m) (client : Remote.Client) : (q : Ask) → m (q.Answer Unit)
  | .store r => (client.request r).hold o.signal
  | .token => o.token
  | .clock => o.clock
  | .work => pure ()

def Outside.finish (o : Outside m) (client : Remote.Client) (s : Session Unit) : m Ending := do
  let (result, screen) ← ((ExceptT.run s).run .blank).interpret (o.answer client)
  match result with
  | .ok () => pure ⟨0, screen⟩
  | .error f => pure (.failed screen f)

def Outside.run (o : Outside m) (environment : List (String × String)) (arguments : List String) : m Ending :=
  match Command.read arguments with
  | .error .misuse => pure ⟨2, Screen.blank.printError usageText⟩
  | .error .help => pure (.printed usageText)
  | .error .version => pure (.printed versionText)
  | .ok command =>
    match startOf environment command with
    | .ended e => pure e
    | .session client s => o.finish client s

end Coordination.Console
