import ToranaEdge.Stream.Policy
import ToranaEdge.Stream.Verify

/-! # Stream enforcement

`RunOnStreamChunkVerified` takes one host event through the chain of stream
plugins.  Each stage offers the event to its plugin, checks the answer and
passes the result on.  A suppressed tool start opens a journal: from then on
the stage holds its output back until every deferred tool block is resolved,
so that a failing plugin can still be undone.

Modelled are the two loops of `runOnStreamChunk`, the scope check, the
rollback and `EndStreamVerified`.  The conversion between engine events and
ABI events at both ends of the chain is `pbconv`'s and stays outside, as do
the log lines and the mutex.  A pipeline without a stream plugin keeps no
verifier state and passes events through.

A plugin is arbitrary: `invoke n` answers its call number `n`, and along one
run every behaviour of a guest is such a function. -/

namespace ToranaEdge.Enforce

open Policy

/-! ## Plugins, verifiers and terminal errors -/

/-- `failure_mode`, after the approval has defaulted and checked it. -/
inductive FailureMode where
  | pass
  | block
  deriving DecidableEq, Repr

/-- A stream plugin as the chain sees it. -/
structure StreamPlugin where
  name : String
  failureMode : FailureMode
  hasGrant : String → Bool
  streamBufferLimit : UInt64
  /-- `invokeStreamEvent`: pass and suppress are the one-element and the empty
      list, a trap or a frame that does not decode is an error. -/
  invoke : Nat → StreamEvent → Except String (List StreamEvent)

/-- What the enforcement uses of the SDK and of protobuf. -/
structure Verifiers where
  classifier : SignatureClassifier
  registry : Registry
  protobuf : Protobuf
  /-- `proto.Size`. -/
  size : StreamEvent → UInt64

def Verifiers.streamEventCost (v : Verifiers) (ev : StreamEvent) : UInt64 := v.size ev + 64

inductive TerminalKind where
  | plugin
  | host
  deriving DecidableEq, Repr

structure StreamTerminalError where
  plugin : String
  kind : TerminalKind
  index : Int32
  scope : Nat
  err : String
  deriving DecidableEq, Repr

/-- Its `Error` method. -/
def StreamTerminalError.text (e : StreamTerminalError) : String :=
  let head := match e.kind with
    | .plugin => "stream plugin violation"
    | .host => "stream host defect"
  if 0 ≤ e.index then s!"{head}: {e.plugin} at block {e.index} (scope {e.scope}): {e.err}"
  else s!"{head}: {e.plugin} (scope {e.scope}): {e.err}"

/-- The `Error` method of a verification failure. -/
def verifyErrorText : VerifyError → String
  | .accepted msg => "accepted stream: " ++ msg
  | .plugin msg => msg

variable (ev : StreamEvent)

/-- The block index an event names, or -1. -/
def eventIndex : Int32 :=
  match ev.event with
  | some (.contentBlockStart start) => start.index
  | some (.contentBlockStop stop) => stop.index
  | some (.toolCallDelta delta) => delta.index
  | _ => -1

/-- The digits after the first `tool block ` that has any. -/
def toolBlockDigits : List Char → Option (List Char)
  | [] => none
  | c :: rest =>
    let tail := (c :: rest).drop "tool block ".length
    if "tool block ".toList.isPrefixOf (c :: rest) && (tail.head?.map Char.isDigit).getD false then
      some (tail.takeWhile Char.isDigit)
    else toolBlockDigits rest

/-- `toolBlockIndexFrom`: the block a verifier's text names; a number `Atoi`
refuses is none. -/
def toolBlockIndexFrom (err : String) : Int32 :=
  match toolBlockDigits err.toList with
  | none => -1
  | some digits =>
    let n := digits.foldl (fun n c => 10 * n + (c.toNat - '0'.toNat)) 0
    if n < 2 ^ 63 then Int32.ofNat n else -1

/-- A content-block stop, a message stop or an error closes a scope. -/
def isScopeCloseEvent : Bool :=
  match ev.event with
  | some (.contentBlockStop _) => true
  | some (.messageStop _) => true
  | some (.error _) => true
  | _ => false

/-- A message stop or an error ends the message. -/
def isTerminalEvent : Bool :=
  match ev.event with
  | some (.messageStop _) => true
  | some (.error _) => true
  | _ => false

/-- The index of a tool start. -/
def toolStartIndex : Option Int32 :=
  match ev.event with
  | some (.contentBlockStart start) =>
    match start.block with
    | some (.toolCall _) => some start.index
    | _ => none
  | _ => none

/-! ## The state of a stage -/

/-- `streamJournal`: an open transaction over deferred tool blocks. -/
structure StreamJournal where
  /-- The accepted events since the journal began. -/
  originals : List StreamEvent
  /-- What the plugin returned for them; held back. -/
  outputs : List StreamEvent := []
  /-- The deferred tool indices. -/
  pending : List Int32 := []
  /-- The returned-side walker when the journal began. -/
  walker : StreamDisciplineWalker
  returnedStart : Nat
  bytes : UInt64
  deriving DecidableEq, Repr

/-- `pluginStreamState`.  `invocations` counts the guest's calls. -/
structure PluginStreamState where
  journal : Option StreamJournal := none
  /-- The plugin was rolled back and no longer runs. -/
  disabled : Bool := false
  accepted : List StreamEvent := []
  returned : List StreamEvent := []
  scopeStart : Nat := 0
  walker : StreamDisciplineWalker := {}
  scopeNum : Nat := 0
  acceptedCloseCount : Nat := 0
  returnedCloseCount : Nat := 0
  invocations : Nat := 0
  deriving DecidableEq, Repr

def PluginStreamState.recountCloses (pvs : PluginStreamState) : PluginStreamState :=
  let accepted := pvs.accepted.countP isScopeCloseEvent
  let returned := pvs.returned.countP isScopeCloseEvent
  { pvs with acceptedCloseCount := accepted, returnedCloseCount := returned
             scopeNum := max accepted returned }

/-- The stage has accepted the event; an open journal keeps it too. -/
def PluginStreamState.accept (v : Verifiers) (pvs : PluginStreamState) (ev : StreamEvent) :
    PluginStreamState :=
  { pvs with
    accepted := pvs.accepted ++ [ev]
    journal := pvs.journal.map fun j =>
      { j with originals := j.originals ++ [ev], bytes := j.bytes + v.streamEventCost ev } }

/-! ## One event -/

section stage

variable (v : Verifiers) (lp : StreamPlugin) (pvs : PluginStreamState) (ev : StreamEvent)

/-- A disabled plugin is not called: the event passes. -/
def callGuest :
    PluginStreamState × Except String (List StreamEvent) :=
  if pvs.disabled then (pvs, .ok [ev])
  else ({ pvs with invocations := pvs.invocations + 1 }, lp.invoke pvs.invocations ev)

variable (emitted : List StreamEvent)

/-- A one-for-one answer of the same arm is held to the field policy at once. -/
def checkOneForOne : Except String Unit :=
  match emitted with
  | [out] =>
    if eventArm ev = eventArm out then eventDiff v.registry lp.hasGrant v.protobuf ev out "event"
    else .ok ()
  | _ => .ok ()

/-- Then the whole answer is walked, on a clone of the walker. -/
def checkEmitted :
    Except String StreamDisciplineWalker := do
  checkOneForOne v lp ev emitted
  pvs.walker.walkAll emitted

/-- A suppressed tool start defers the decision about its block. -/
def deferTool :
    PluginStreamState :=
  match toolStartIndex ev with
  | some index =>
    if emitted.isEmpty then
      let journal := pvs.journal.getD
        { originals := [ev], walker := pvs.walker, returnedStart := pvs.returned.length
          bytes := v.streamEventCost ev }
      { pvs with journal := some { journal with pending := index :: journal.pending } }
    else pvs
  | none => pvs

/-- A plugin's checked answer: the state, the events and the failure, if any. -/
structure Proposal where
  state : PluginStreamState
  emitted : List StreamEvent
  callErr : Option String

/-- An open journal pays for the answer too. -/
def chargeJournal (p : Proposal) : Proposal :=
  match p.state.journal with
  | none => p
  | some j =>
    let bytes := p.emitted.foldl (fun bytes out => bytes + v.streamEventCost out) j.bytes
    { p with
      state := { p.state with journal := some { j with bytes } }
      callErr := if bytes > lp.streamBufferLimit then
          some "deferred stream transaction exceeds its byte limit"
        else p.callErr }

/-- From acceptance of the event to the byte limit. -/
def propose : Proposal :=
  let called := callGuest lp (pvs.accept v ev) ev
  chargeJournal v lp <|
    match called.2 with
    | .error err => { state := called.1, emitted := [], callErr := some err }
    | .ok emitted =>
      match checkEmitted v lp called.1 ev emitted with
      | .error err => { state := called.1, emitted, callErr := some err }
      | .ok walker =>
        { state := deferTool v { called.1 with walker } ev emitted, emitted, callErr := none }

/-- `rollbackStreamJournal`: the accepted events of the transaction are replayed
in place of the plugin's output, if discipline and policy hold then. -/
def rollbackStreamJournal (j : StreamJournal) :
    PluginStreamState × Except String (List StreamEvent) :=
  match j.walker.walkAll j.originals with
  | .error err => (pvs, .error err)
  | .ok walker =>
    let pvs := { pvs with walker, returned := pvs.returned.take j.returnedStart ++ j.originals }
    match verifyStreamPrefix v.classifier pvs.accepted pvs.returned (some lp.hasGrant) with
    | .error err => (pvs, .error (verifyErrorText err))
    | .ok () =>
      match verifyStreamPolicy v.registry v.protobuf pvs.accepted pvs.returned
        (some lp.hasGrant) with
      | .error err => (pvs, .error err)
      | .ok () =>
        (({ pvs with journal := none, disabled := true } : PluginStreamState).recountCloses,
          .ok j.originals)

/-- The pending indices after an accepted event: a stop resolves its own, an error
resolves all. -/
def resolvePending (pending : List Int32) : List Int32 :=
  match ev.event with
  | some (.contentBlockStop stop) => pending.filter fun index => index != stop.index
  | some (.error _) => []
  | _ => pending

/-- The events become the stage's output: held by an open journal, else released. -/
def publish :
    PluginStreamState × List StreamEvent :=
  let pvs := { pvs with returned := pvs.returned ++ emitted }
  match pvs.journal with
  | some j =>
    ({ pvs with journal := some { j with
        outputs := j.outputs ++ emitted, pending := resolvePending ev j.pending } }, [])
  | none => (pvs, emitted)

/-- A violation of this plugin at the event. -/
def eventViolation (err : String) :
    StreamTerminalError :=
  { plugin := lp.name, kind := .plugin, index := eventIndex ev, scope := pvs.scopeNum, err }

/-- One iteration of the event loop: the state, and what joins the released
events or the terminal error. -/
def handleEvent :
    PluginStreamState × Except StreamTerminalError (List StreamEvent) :=
  let p := propose v lp pvs ev
  match p.callErr with
  | none => ((publish p.state ev p.emitted).1, .ok (publish p.state ev p.emitted).2)
  | some err =>
    match lp.failureMode with
    | .block => ({ p.state with journal := none }, .error (eventViolation lp p.state ev err))
    | .pass =>
      match p.state.journal with
      | some j =>
        match rollbackStreamJournal v lp p.state j with
        | (pvs, .error err) => (pvs, .error (eventViolation lp pvs ev err))
        | (pvs, .ok replay) => (pvs, .ok replay)
      | none =>
        match p.state.walker.walk ev with
        | .error err => (p.state, .error (eventViolation lp p.state ev err))
        | .ok walker =>
          ((publish { p.state with walker } ev [ev]).1,
            .ok (publish { p.state with walker } ev [ev]).2)

/-- The event loop of one stage. -/
def handleBatch (pvs : PluginStreamState) :
    List StreamEvent → PluginStreamState × Except StreamTerminalError (List StreamEvent)
  | [] => (pvs, .ok [])
  | ev :: rest =>
    match handleEvent v lp pvs ev with
    | (pvs, .error term) => (pvs, .error term)
    | (pvs, .ok out) =>
      match handleBatch pvs rest with
      | (pvs, .error term) => (pvs, .error term)
      | (pvs, .ok outs) => (pvs, .ok (out ++ outs))

/-! ## The scope check -/

/-- `checkScope`.  A defect of the accepted stream is the host's. -/
def checkScope (scope : Nat) :
    PluginStreamState × Except StreamTerminalError Unit :=
  match verifyStreamPrefix v.classifier pvs.accepted pvs.returned (some lp.hasGrant) with
  | .error (.accepted msg) =>
    (pvs, .error { plugin := "host", kind := .host, index := -1, scope
                   err := verifyErrorText (.accepted msg) })
  | .error (.plugin msg) =>
    (pvs, .error { plugin := lp.name, kind := .plugin, index := toolBlockIndexFrom msg, scope
                   err := msg })
  | .ok () =>
    match verifyStreamPolicy v.registry v.protobuf pvs.accepted pvs.returned (some lp.hasGrant) with
    | .error msg =>
      (pvs, .error { plugin := lp.name, kind := .plugin, index := toolBlockIndexFrom msg, scope
                     err := msg })
    | .ok () => ({ pvs with scopeStart := pvs.accepted.length }, .ok ())

/-- A violation of this plugin at a closed scope. -/
def scopeViolation (scope : Nat) (err : String) : StreamTerminalError :=
  { plugin := lp.name, kind := .plugin, index := -1, scope, err }

/-- At the end of a message no block may be left open, then the scope is checked. -/
def scopeVerdict (ends : Bool) :
    PluginStreamState × Except StreamTerminalError Unit :=
  match if ends then pvs.walker.finish else .ok () with
  | .error err => (pvs, .error (scopeViolation lp pvs.scopeNum err))
  | .ok () => checkScope v lp pvs pvs.scopeNum

/-- The transaction has no deferred decision left. -/
def PluginStreamState.resolved : Bool :=
  match pvs.journal with
  | none => true
  | some j => j.pending.isEmpty

/-- The verification of the closed scopes.  A pass-mode plugin whose output is
still in the journal is rolled back; its replay is checked again. -/
def verifyScopes (ends : Bool) (next : List StreamEvent) :
    PluginStreamState × Except StreamTerminalError (List StreamEvent) :=
  let scope := pvs.scopeNum
  match scopeVerdict v lp pvs ends with
  | (pvs, .ok ()) => (pvs, .ok next)
  | (pvs, .error term) =>
    match pvs.journal, lp.failureMode with
    | some j, .pass =>
      match rollbackStreamJournal v lp pvs j with
      | (pvs, .error err) => (pvs, .error (scopeViolation lp scope err))
      | (pvs, .ok replay) =>
        match checkScope v lp pvs.recountCloses pvs.recountCloses.scopeNum with
        | (pvs, .error term) => (pvs, .error (scopeViolation lp scope term.text))
        | (pvs, .ok ()) => (pvs, .ok (next ++ replay))
    | _, _ => (pvs, .error term)

/-- A resolved journal releases what it held. -/
def releaseJournal (next : List StreamEvent) :
    PluginStreamState × List StreamEvent :=
  match pvs.journal with
  | some j =>
    if j.pending.isEmpty then ({ pvs with journal := none }, next ++ j.outputs) else (pvs, next)
  | none => (pvs, next)

/-- After the event loop: a close on either side since the call began, by the two
offsets, has the transaction verified before anything is released. -/
def settleScopes (acceptedStart returnedStart : Nat) (pvs : PluginStreamState)
    (next : List StreamEvent) : PluginStreamState × Except StreamTerminalError (List StreamEvent) :=
  let accepted := pvs.accepted.drop acceptedStart
  let returned := pvs.returned.drop returnedStart
  let verified :=
    if accepted.any isScopeCloseEvent || returned.any isScopeCloseEvent then
      if pvs.recountCloses.resolved then
        verifyScopes v lp pvs.recountCloses
          (accepted.any isTerminalEvent || returned.any isTerminalEvent) next
      else (pvs.recountCloses, .ok next)
    else (pvs, .ok next)
  match verified with
  | (pvs, .error term) => (pvs, .error term)
  | (pvs, .ok next) => ((releaseJournal pvs next).1, .ok (releaseJournal pvs next).2)

/-- One stage of the chain on one batch. -/
def runStage (batch : List StreamEvent) :
    PluginStreamState × Except StreamTerminalError (List StreamEvent) :=
  match handleBatch v lp pvs batch with
  | (pvs', .error term) => (pvs', .error term)
  | (pvs', .ok next) => settleScopes v lp pvs.accepted.length pvs.returned.length pvs' next

end stage

/-! ## The chain -/

/-- A plugin with its state, and the history of what the stage released. -/
structure Stage where
  plugin : StreamPlugin
  state : PluginStreamState := {}
  released : List StreamEvent := []

structure StreamVerifierState where
  host : StreamDisciplineWalker := {}
  stages : List Stage
  terminal : Option StreamTerminalError := none

def newStreamVerifierState (plugins : List StreamPlugin) : StreamVerifierState :=
  { stages := plugins.map fun plugin => { plugin } }

/-- The loop over the stages: each takes what the one before released. -/
def runStages (v : Verifiers) :
    List Stage → List StreamEvent → List Stage × Except StreamTerminalError (List StreamEvent)
  | [], batch => ([], .ok batch)
  | st :: rest, batch =>
    match runStage v st.plugin st.state batch with
    | (state, .error term) => ({ st with state } :: rest, .error term)
    | (state, .ok out) =>
      ({ st with state, released := st.released ++ out } :: (runStages v rest out).1,
        (runStages v rest out).2)

variable (v : Verifiers) (vs : StreamVerifierState)

/-- `runOnStreamChunk` with a verifier state: a malformed host event is the host's
defect and never enters the chain. -/
def runOnStreamChunk (ev : StreamEvent) :
    StreamVerifierState × Except StreamTerminalError (List StreamEvent) :=
  match vs.host.walk ev with
  | .error err =>
    let term : StreamTerminalError :=
      { plugin := "host", kind := .host, index := eventIndex ev, scope := 0, err }
    ({ vs with terminal := some term }, .error term)
  | .ok host =>
    match runStages v vs.stages [ev] with
    | (stages, .error term) => ({ host, stages, terminal := some term }, .error term)
    | (stages, .ok out) => ({ vs with host, stages }, .ok out)

/-- A terminated stream answers with its terminal error; without a stream plugin
there is nothing to verify. -/
def runOnStreamChunkVerified (ev : StreamEvent) :
    StreamVerifierState × Except StreamTerminalError (List StreamEvent) :=
  match vs.terminal with
  | some term => (vs, .error term)
  | none => if vs.stages.isEmpty then (vs, .ok [ev]) else runOnStreamChunk v vs ev

/-- The state after a host stream. -/
def run (plugins : List StreamPlugin) (hosts : List StreamEvent) :
    StreamVerifierState :=
  hosts.foldl (fun vs ev => (runOnStreamChunkVerified v vs ev).1) (newStreamVerifierState plugins)

/-- No returned stream may end with an open block. -/
def endWalkers : List Stage → Except StreamTerminalError Unit
  | [] => .ok ()
  | st :: rest =>
    match st.state.walker.finish with
    | .error err =>
      .error { plugin := st.plugin.name, kind := .plugin, index := -1, scope := st.state.scopeNum
               err }
    | .ok () => endWalkers rest

/-- The final scope of every stage with events since its last close. -/
def endScopes (v : Verifiers) : List Stage → List Stage × Except StreamTerminalError Unit
  | [] => ([], .ok ())
  | st :: rest =>
    if st.state.accepted.length ≤ st.state.scopeStart then
      (st :: (endScopes v rest).1, (endScopes v rest).2)
    else
      match checkScope v st.plugin st.state (st.state.scopeNum + 1) with
      | (state, .error term) => ({ st with state } :: rest, .error term)
      | (state, .ok ()) => ({ st with state } :: (endScopes v rest).1, (endScopes v rest).2)

def endStreamVerified :
    StreamVerifierState × Except StreamTerminalError Unit :=
  match vs.terminal with
  | some term => (vs, .error term)
  | none =>
    match vs.host.finish with
    | .error err =>
      let term : StreamTerminalError :=
        { plugin := "host", kind := .host, index := -1, scope := 0, err }
      ({ vs with terminal := some term }, .error term)
    | .ok () =>
      match endWalkers vs.stages with
      | .error term => ({ vs with terminal := some term }, .error term)
      | .ok () =>
        match endScopes v vs.stages with
        | (stages, .error term) => ({ vs with stages, terminal := some term }, .error term)
        | (stages, .ok ()) => ({ vs with stages }, .ok ())

end ToranaEdge.Enforce
