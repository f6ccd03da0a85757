import ToranaEdge.Lib.Attempt
import ToranaEdge.Stream.Validate

/-! # The incremental discipline walker

`streamDisciplineWalker` applies the per-event rules one event at a time,
so that a violating event is refused before it joins the output stream.
One walker watches the host's events, one per stage watches what the
stage's plugin returns.

A refused event leaves no trace: every caller walks a clone and drops it on
error, which is what returning the new state from `walk` expresses. -/

namespace ToranaEdge

open AcceptedState

/-- The state of a walker; `pos` counts the events walked. -/
structure StreamDisciplineWalker where
  nonTool : Option OpenNonTool := none
  openTools : List (Int32 × ToolInvocationKind) := []
  seen : List Int32 := []
  sawError : Bool := false
  messageStopped : Bool := false
  spanOpen : Bool := false
  sawText : Bool := false
  pos : Nat := 0
  deriving DecidableEq, Repr

variable (v : AcceptedState)

namespace StreamDisciplineWalker

variable (w : StreamDisciplineWalker)

/-- Start a text, thinking or provider block. -/
def startNonTool (pos : Nat) (index : Int32)
    (kind : OpenBlockKind) : Except String StreamDisciplineWalker :=
  match w.nonTool with
  | some nt =>
    .error s!"non-tool content block start at position {pos} while a {nt.kind} block is open"
  | none =>
    if !w.openTools.isEmpty then
      .error s!"non-tool content block start at position {pos} while a tool block is open"
    else .ok { w with nonTool := some { index, kind } }

/-- Validate one event and advance; the error names the violated rule. -/
def walk (ev : StreamEvent) :
    Except String StreamDisciplineWalker :=
  let pos := w.pos
  let w := { w with pos := pos + 1 }
  let stopViolation := match ev.event with
    | some (.usage _) => false
    | some (.error _) => false
    | _ => w.messageStopped
  if w.sawError then .error s!"event after StreamError at position {pos}"
  else if stopViolation then .error s!"event at position {pos} after MessageStop"
  else
    match ev.event with
    | some (.error _) => .ok { w with sawError := true }
    | some (.usage _) => .ok w
    | some (.messageStart _) => .ok w
    | some (.messageStop _) =>
      if w.nonTool.isSome || !w.openTools.isEmpty then
        .error s!"MessageStop at position {pos} while a content block is still open"
      else .ok { w with messageStopped := true }
    | some (.contentBlockStart cbs) =>
      let w := { w with spanOpen := false }
      if w.seen.contains cbs.index then
        .error s!"content block index {cbs.index} reused at position {pos}"
      else
        let w := { w with seen := cbs.index :: w.seen }
        match cbs.block with
        | some (.text _) => w.startNonTool pos cbs.index .text
        | some (.thinking _) => w.startNonTool pos cbs.index .thinking
        | some (.provider _) => w.startNonTool pos cbs.index .provider
        | some (.toolCall call) =>
          if w.nonTool.isSome then
            .error s!"tool call block start at position {pos} while a non-tool block is open"
          else .ok { w with openTools := (cbs.index, call.invocationKind) :: w.openTools }
        | none => .ok w
    | some (.contentBlockStop cbs) =>
      if (w.openTools.lookup cbs.index).isSome then
        .ok { w with openTools := w.openTools.filter fun t => t.1 != cbs.index }
      else
        match w.nonTool with
        | some nt =>
          if nt.index == cbs.index then .ok { w with nonTool := none, spanOpen := false }
          else .error s!"content block stop at position {pos} names no open block"
        | none => .error s!"content block stop at position {pos} names no open block"
    | some (.textDelta _) =>
      match w.nonTool with
      | some nt =>
        if nt.kind != .text then .error s!"text delta at position {pos} inside a {nt.kind} block"
        else .ok { w with spanOpen := true, sawText := true }
      | none =>
        if !w.openTools.isEmpty then
          .error s!"text delta at position {pos} while a tool block is open"
        else .ok { w with spanOpen := true, sawText := true }
    | some (.thinkingDelta _) =>
      match w.nonTool with
      | some nt =>
        if nt.kind != .thinking then
          .error s!"thinking delta at position {pos} inside a {nt.kind} block"
        else .ok { w with spanOpen := true, sawText := true }
      | none =>
        if !w.openTools.isEmpty then
          .error s!"thinking delta at position {pos} while a tool block is open"
        else .ok { w with spanOpen := true, sawText := true }
    | some (.signatureDelta _) =>
      let open? := match w.nonTool with
        | some nt => nt.kind == .text || nt.kind == .thinking
        | none => false
      let provider? := match w.nonTool with
        | some nt => nt.kind == .provider
        | none => false
      if w.spanOpen || open? then .ok { w with spanOpen := false }
      else if provider? || !w.openTools.isEmpty || !w.sawText then
        .error "signature_delta has no covered content (does not bind tool-call blocks)"
      else .ok w
    | some (.toolCallDelta delta) =>
      match w.openTools.lookup delta.index with
      | none =>
        .error s!"tool call delta at position {pos} names no open tool block ({delta.index})"
      | some kind =>
        match validateStreamToolDeltaFamily kind delta with
        | .error msg => .error s!"tool call delta at position {pos}: {msg}"
        | .ok () => .ok w
    | none => .ok w

/-- Walk a list of events; the first refused event stops the walk. -/
def walkAll : StreamDisciplineWalker → List StreamEvent → Except String StreamDisciplineWalker
  | w, [] => .ok w
  | w, ev :: rest =>
    match w.walk ev with
    | .error msg => .error msg
    | .ok w' => w'.walkAll rest

/-- The end-of-stream rule: a block still open and no `StreamError` to abandon it. -/
def finish : Except String Unit :=
  if !w.sawError && (w.nonTool.isSome || !w.openTools.isEmpty) then
    .error "stream ends with an open content block; missing ContentBlockStop (or StreamError)"
  else .ok ()

lemma walkAll_append (xs ys : List StreamEvent) :
    w.walkAll (xs ++ ys) = (w.walkAll xs).bind fun w' => w'.walkAll ys := by
  induction xs generalizing w with
  | nil => rfl
  | cons ev xs ih =>
  simp only [List.cons_append, walkAll]
  cases h : w.walk ev with
  | error msg => rfl
  | ok w' => exact ih w'

variable {w w' : StreamDisciplineWalker} {ev : StreamEvent}

lemma walkAll_cons {rest : List StreamEvent} :
    w.walkAll (ev :: rest) = .ok w' ↔ ∃ v, w.walk ev = .ok v ∧ v.walkAll rest = .ok w' := by
  rw [walkAll]
  cases w.walk ev with
  | error msg | ok v => simp

lemma walkAll_singleton : w.walkAll [ev] = .ok w' ↔ w.walk ev = .ok w' := by
  rw [walkAll_cons]
  simp [walkAll]

/-- A prefix of an accepted sequence is accepted. -/
lemma walkAll_prefix {xs ys : List StreamEvent}
    (h : w.walkAll (xs ++ ys) = .ok w') : ∃ v, w.walkAll xs = .ok v ∧ v.walkAll ys = .ok w' := by
  rw [walkAll_append] at h
  cases hx : w.walkAll xs with
  | error msg => rw [hx] at h; cases h
  | ok v => rw [hx] at h; exact ⟨v, rfl, h⟩

/-! ## What an accepted event does to the topology -/

/-- The open blocks and the used indexes are as they were. -/
def SameBlocks (w w' : StreamDisciplineWalker) : Prop :=
  w'.nonTool = w.nonTool ∧ w'.openTools = w.openTools ∧ w'.seen = w.seen

/-- A delta of text or thinking is bare, or inside the block of its kind. -/
def Allows (kind : OpenBlockKind) : Prop :=
  (∃ index, w.nonTool = some ⟨index, kind⟩) ∨ w.nonTool = none ∧ w.openTools = []

def StartSpec (w w' : StreamDisciplineWalker) (start : ContentBlockStart) : Prop :=
  start.index ∉ w.seen ∧ w'.seen = start.index :: w.seen ∧
    match start.block with
    | none => w'.nonTool = w.nonTool ∧ w'.openTools = w.openTools
    | some (.toolCall call) =>
      w.nonTool = none ∧ w'.nonTool = none ∧
        w'.openTools = (start.index, call.invocationKind) :: w.openTools
    | some block =>
      w.nonTool = none ∧ w.openTools = [] ∧ w'.openTools = [] ∧
        ∃ kind, block.nonToolKind = some kind ∧ w'.nonTool = some ⟨start.index, kind⟩

def StopSpec (w w' : StreamDisciplineWalker) (index : Int32) : Prop :=
  w'.seen = w.seen ∧
    ((w.openTools.lookup index).isSome ∧ w'.nonTool = w.nonTool ∧
        w'.openTools = w.openTools.filter (fun tool => tool.1 != index) ∨
      w.openTools.lookup index = none ∧ w'.openTools = w.openTools ∧ w'.nonTool = none ∧
        ∃ kind, w.nonTool = some ⟨index, kind⟩)

/-- What the walker asks of an event before the end of the message. -/
def ContentSpec (w w' : StreamDisciplineWalker) : Option EventArm → Prop
  | some (.contentBlockStart start) => StartSpec w w' start
  | some (.contentBlockStop stop) => StopSpec w w' stop.index
  | some (.textDelta _) => SameBlocks w w' ∧ w.Allows .text
  | some (.thinkingDelta _) => SameBlocks w w' ∧ w.Allows .thinking
  | some (.toolCallDelta delta) =>
    SameBlocks w w' ∧ ∃ kind, w.openTools.lookup delta.index = some kind ∧
      validateStreamToolDeltaFamily kind delta = .ok ()
  | _ => SameBlocks w w'

/-- What the walker asks of any event. -/
def WalkSpec (w w' : StreamDisciplineWalker) : Option EventArm → Prop
  | some (.error _) => SameBlocks w w' ∧ w'.sawError = true
  | some (.usage _) =>
    SameBlocks w w' ∧ w'.sawError = false ∧ w'.messageStopped = w.messageStopped
  | some (.messageStop _) =>
    SameBlocks w w' ∧ w.messageStopped = false ∧ w'.sawError = false ∧ w'.messageStopped = true ∧
      w.nonTool = none ∧ w.openTools = []
  | arm => w.messageStopped = false ∧ w'.sawError = false ∧ w'.messageStopped = false ∧
      ContentSpec w w' arm

/-! ## The walker and the validation -/

/-- The walker in the state of the validation loop at position `pos`. -/
def ofAccepted (pos : Nat) : StreamDisciplineWalker where
  nonTool := v.nonTool
  openTools := v.openTools
  seen := v.seen
  sawError := v.sawError
  messageStopped := v.messageStopped
  spanOpen := v.spanOpen
  sawText := v.sawText
  pos := pos

lemma startNonTool_ofAccepted (pos : Nat) (i : Nat) (index : Int32)
    (kind : OpenBlockKind) : (ofAccepted v pos).startNonTool i index kind =
      (v.startNonTool i index kind).map fun v' => ofAccepted v' pos := by
  obtain ⟨nonTool, openTools, seen, sawError, messageStopped, spanOpen, sawText⟩ := v
  cases nonTool with
  | some nt => rfl
  | none => cases openTools <;> rfl

section arms

variable (nonTool : Option OpenNonTool) (openTools : List (Int32 × ToolInvocationKind))
  (seen : List Int32) (spanOpen sawText : Bool) (pos : Nat) (unknown : Bytes)

lemma walk_toolCallDelta (delta : ToolCallDelta) (v : AcceptedState)
    (hv : v = { nonTool, openTools, seen, spanOpen, sawText }) :
    (ofAccepted v pos).walk { event := some (.toolCallDelta delta), unknown } =
      (v.toolCallDelta pos delta).map fun v' => ofAccepted v' (pos + 1) := by
  subst hv
  unfold walk ofAccepted toolCallDelta
  dsimp only
  cases openTools.lookup delta.index with
  | none => rfl
  | some kind =>
    dsimp only
    cases validateStreamToolDeltaFamily kind delta <;> rfl

lemma walk_contentBlockStart (start : ContentBlockStart) (v : AcceptedState)
    (hv : v = { nonTool, openTools, seen, spanOpen, sawText }) :
    (ofAccepted v pos).walk { event := some (.contentBlockStart start), unknown } =
      (v.contentBlockStart pos start).map fun v' => ofAccepted v' (pos + 1) := by
  subst hv
  obtain ⟨index, block, unknown'⟩ := start
  unfold walk ofAccepted contentBlockStart
  dsimp only
  cases seen.contains index with
  | true => rfl
  | false =>
  match block with
  | none => rfl
  | some (.text _) | some (.thinking _) | some (.provider _) =>
    exact startNonTool_ofAccepted { nonTool, openTools, seen := index :: seen, sawText } _ _ _ _
  | some (.toolCall call) => cases nonTool <;> rfl

lemma walk_contentBlockStop (stop : ContentBlockStop) (v : AcceptedState)
    (hv : v = { nonTool, openTools, seen, spanOpen, sawText }) :
    (ofAccepted v pos).walk { event := some (.contentBlockStop stop), unknown } =
      (v.contentBlockStop pos stop.index).map fun v' => ofAccepted v' (pos + 1) := by
  subst hv
  unfold walk ofAccepted contentBlockStop
  dsimp only
  cases (openTools.lookup stop.index).isSome with
  | true => rfl
  | false =>
  cases nonTool with
  | none => rfl
  | some nt =>
  by_cases hindex : nt.index = stop.index
  · simp [hindex, Except.map]
  · simp [hindex, Except.map]

end arms

/-- **One event**: the walker refuses what the validation refuses, with the same
words, and otherwise takes the same step. -/
theorem walk_ofAccepted (pos : Nat) (ev : StreamEvent) :
    (ofAccepted v pos).walk ev = (v.step pos ev).map fun v' => ofAccepted v' (pos + 1) := by
  obtain ⟨nonTool, openTools, seen, sawError, messageStopped, spanOpen, sawText⟩ := v
  obtain ⟨arm, unknown⟩ := ev
  cases sawError with
  | true => rfl
  | false =>
  cases messageStopped with
  | true =>
    -- only usage and errors may follow the stop
    match arm with
    | none | some (.textDelta _) | some (.thinkingDelta _) | some (.signatureDelta _)
    | some (.toolCallDelta _) | some (.contentBlockStart _) | some (.contentBlockStop _)
    | some (.messageStart _) | some (.messageStop _) | some (.usage _) | some (.error _) => rfl
  | false =>
  match arm with
  | none | some (.usage _) | some (.error _) | some (.messageStart _) => rfl
  | some (.messageStop _) => cases nonTool <;> cases openTools <;> rfl
  | some (.textDelta _) | some (.thinkingDelta _) =>
    cases nonTool with
    | none => cases openTools <;> rfl
    | some nt =>
      obtain ⟨index, kind⟩ := nt
      cases kind <;> rfl
  | some (.signatureDelta _) =>
    cases spanOpen with
    | true => rfl
    | false =>
    cases nonTool with
    | none => cases openTools <;> cases sawText <;> rfl
    | some nt =>
      obtain ⟨index, kind⟩ := nt
      cases kind <;> rfl
  | some (.toolCallDelta delta) => exact walk_toolCallDelta _ _ _ _ _ pos unknown delta _ rfl
  | some (.contentBlockStart start) => exact walk_contentBlockStart _ _ _ _ _ pos unknown start _ rfl
  | some (.contentBlockStop stop) => exact walk_contentBlockStop _ _ _ _ _ pos unknown stop _ rfl

lemma walkAll_ofAccepted (pos : Nat) (events : List StreamEvent) :
    (ofAccepted v pos).walkAll events =
      (v.run pos events).map fun v' => ofAccepted v' (pos + events.length) := by
  induction events generalizing v pos with
  | nil => rfl
  | cons ev rest ih =>
  unfold walkAll run
  rw [walk_ofAccepted]
  cases v.step pos ev with
  | error msg => rfl
  | ok v' =>
    show (ofAccepted v' (pos + 1)).walkAll rest = _
    rw [ih, List.length_cons, Nat.add_assoc, Nat.add_comm 1]

lemma walkAll_fresh (events : List StreamEvent) : ({} : StreamDisciplineWalker).walkAll events =
      (run {} 0 events).map fun v => ofAccepted v events.length := by
  have h := walkAll_ofAccepted {} 0 events
  rwa [Nat.zero_add] at h

/-- A fresh walker refuses the event at position `p`, and none before it. -/
def FailsAt (events : List StreamEvent) (p : Nat) (msg : String) : Prop :=
  ∃ before ev after w, events = before ++ ev :: after ∧ before.length = p ∧
    ({} : StreamDisciplineWalker).walkAll before = .ok w ∧ w.walk ev = .error msg

/-- **The walker mirrors the validation**: it first refuses the event the validation
reports, with the same words; after a walk without refusal its end rule fails
exactly where the validation reports a missing stop. -/
theorem walk_mirrors_validateAcceptedStream (events : List StreamEvent) :
    (∀ p msg, FailsAt events p msg ↔ ReportsAt events p msg) ∧
      ∀ w, ({} : StreamDisciplineWalker).walkAll events = .ok w →
        ((∃ msg, w.finish = .error msg) ↔ validateAcceptedStream events = .error
          "stream ends with an open content block; missing ContentBlockStop (or StreamError)") := by
  refine ⟨fun p msg => ⟨?_, ?_⟩, fun w h => ?_⟩
  · rintro ⟨before, ev, after, w, rfl, rfl, hbefore, hev⟩
    obtain ⟨v, hrun, rfl⟩ := Attempt.map_eq_ok.mp ((walkAll_fresh before).symm.trans hbefore)
    have hstep : v.step before.length ev = .error msg := by
      rw [walk_ofAccepted] at hev
      cases hs : v.step before.length ev with
      | error e => simpa [hs, Except.map] using hev
      | ok v' => simp [hs, Except.map] at hev
    refine ⟨?_, before, ev, after, v, rfl, rfl, hrun, hstep⟩
    rw [validateAcceptedStream, run_append, hrun]
    simp [Except.bind, run, hstep]
  · rintro ⟨-, before, ev, after, v, rfl, rfl, hrun, hstep⟩
    refine ⟨before, ev, after, ofAccepted v before.length, rfl, rfl, ?_, ?_⟩
    · rw [walkAll_fresh, hrun]
      rfl
    · rw [walk_ofAccepted, hstep]
      rfl
  · obtain ⟨v, hrun, rfl⟩ := Attempt.map_eq_ok.mp ((walkAll_fresh events).symm.trans h)
    rw [validateAcceptedStream, hrun]
    show (∃ msg, v.finish = .error msg) ↔ v.finish = _
    unfold AcceptedState.finish
    split <;> simp

/-- An accepted event moves the walker as it moves the validation. -/
lemma walk_moves (h : w.walk ev = .ok w') :
    ∃ (v v' : AcceptedState) (pos : Nat), w = ofAccepted v pos ∧ w' = ofAccepted v' (pos + 1) ∧
      v.sawError = false ∧ (allowedAfterStop ev.event = false → v.messageStopped = false) ∧
      v.Moves ev.event v' := by
  obtain ⟨nonTool, openTools, seen, sawError, messageStopped, spanOpen, sawText, pos⟩ := w
  have hwalk := walk_ofAccepted
    ⟨nonTool, openTools, seen, sawError, messageStopped, spanOpen, sawText⟩ pos ev
  obtain ⟨v', hstep, rfl⟩ := Attempt.map_eq_ok.mp (hwalk.symm.trans h)
  exact ⟨_, v', pos, rfl, rfl, step_moves hstep⟩

lemma walk_spec (h : w.walk ev = .ok w') : w.sawError = false ∧ WalkSpec w w' ev.event := by
  obtain ⟨v, v', pos, rfl, rfl, herror, hguard, hmoves⟩ := walk_moves h
  refine ⟨herror, ?_⟩
  generalize ev.event = arm at hguard hmoves ⊢
  cases hmoves with
  | error e => exact ⟨⟨rfl, rfl, rfl⟩, rfl⟩
  | usage u => exact ⟨⟨rfl, rfl, rfl⟩, herror, rfl⟩
  | messageStop m hnone htools =>
    exact ⟨⟨rfl, rfl, rfl⟩, hguard rfl, herror, rfl, hnone, htools⟩
  | absent | messageStart _ | current _ _ | trailing _ _ _ _ _ =>
    exact ⟨hguard rfl, herror, hguard rfl, rfl, rfl, rfl⟩
  | @block start block kind hnew hblock hkind hnone htools =>
    refine ⟨hguard rfl, herror, hguard rfl, hnew, rfl, ?_⟩
    rw [hblock]
    cases block with
    | toolCall _ => cases hkind
    | text _ | thinking _ | provider _ => exact ⟨hnone, htools, htools, kind, hkind, rfl⟩
  | toolCall hnew hblock hnone =>
    refine ⟨hguard rfl, herror, hguard rfl, hnew, rfl, ?_⟩
    rw [hblock]
    exact ⟨hnone, hnone, rfl⟩
  | armless hnew hblock =>
    refine ⟨hguard rfl, herror, hguard rfl, hnew, rfl, ?_⟩
    rw [hblock]
    exact ⟨rfl, rfl⟩
  | toolStop hopen =>
    exact ⟨hguard rfl, herror, hguard rfl, rfl, .inl ⟨hopen, rfl, rfl⟩⟩
  | blockStop hno hopen =>
    exact ⟨hguard rfl, herror, hguard rfl, rfl, .inr ⟨hno, rfl, rfl, _, hopen⟩⟩
  | textDelta _ hwhere | thinkingDelta _ hwhere =>
    exact ⟨hguard rfl, herror, hguard rfl, ⟨rfl, rfl, rfl⟩, hwhere⟩
  | fragment hopen hfamily =>
    exact ⟨hguard rfl, herror, hguard rfl, ⟨rfl, rfl, rfl⟩, _, hopen, hfamily⟩

end StreamDisciplineWalker

end ToranaEdge
