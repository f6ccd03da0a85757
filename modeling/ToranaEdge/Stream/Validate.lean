import ToranaEdge.Stream.Event

/-! # Validation of the accepted stream

`validateAcceptedStream` is the host's own discipline: it walks the events
the host hands a plugin once and reports the first one that breaks the
block topology.  Its verdict is the precondition of every judgement about
a plugin's output.

The loop state is a record; one iteration is `AcceptedState.step`. -/

namespace ToranaEdge

/-- The kind of the single open non-tool block. -/
inductive OpenBlockKind where
  | text
  | thinking
  | provider
  deriving DecidableEq, Repr

instance : ToString OpenBlockKind where
  toString
    | .text => "text"
    | .thinking => "thinking"
    | .provider => "provider"

/-- The open non-tool block: its stop must name it by index. -/
structure OpenNonTool where
  index : Int32
  kind : OpenBlockKind
  deriving DecidableEq, Repr

/-- The payload family of a tool fragment must fit the kind of its block. -/
def validateStreamToolDeltaFamily (kind : ToolInvocationKind) (delta : ToolCallDelta) :
    Except String Unit :=
  match kind with
  | .function =>
    if delta.inputTextDelta.isSome then .error "function tool call carries free-form input"
    else .ok ()
  | .freeform =>
    if delta.inputTextDelta.isNone || delta.argumentsDelta != "" then
      .error "free-form tool call carries the wrong payload family"
    else .ok ()
  | .unrecognized n _ => .error s!"tool call has unknown invocation kind {n}"

/-- The variables of the validation loop. -/
structure AcceptedState where
  nonTool : Option OpenNonTool := none
  /-- Open tool blocks with their invocation kinds. -/
  openTools : List (Int32 × ToolInvocationKind) := []
  /-- Every started index, tool or not. -/
  seen : List Int32 := []
  sawError : Bool := false
  messageStopped : Bool := false
  /-- A text/thinking span is in flight, explicit or implicit. -/
  spanOpen : Bool := false
  /-- Any text/thinking delta was seen at all. -/
  sawText : Bool := false
  deriving DecidableEq, Repr

namespace AcceptedState

/-- Usage may trail the message stop, and an error is terminal at any point. -/
def allowedAfterStop : Option EventArm → Bool
  | some (.usage _) => true
  | some (.error _) => true
  | _ => false

variable (s : AcceptedState) (i : Nat)

/-- A text, thinking or provider block starts; `index` is already recorded. -/
def startNonTool (index : Int32) (kind : OpenBlockKind) :
    Except String AcceptedState :=
  match s.nonTool with
  | some nt =>
    .error s!"non-tool content block start at position {i} while a {nt.kind} block is open"
  | none =>
    if !s.openTools.isEmpty then
      .error s!"non-tool content block start at position {i} while a tool block is open"
    else .ok { s with nonTool := some { index, kind } }

def contentBlockStart (start : ContentBlockStart) :
    Except String AcceptedState :=
  if s.seen.contains start.index then
    .error s!"content block index {start.index} reused at position {i}"
  else
    -- any start closes an implicit run of bare deltas
    let s := { s with spanOpen := false, seen := start.index :: s.seen }
    match start.block with
    | some (.text _) => s.startNonTool i start.index .text
    | some (.thinking _) => s.startNonTool i start.index .thinking
    | some (.provider _) => s.startNonTool i start.index .provider
    | some (.toolCall call) =>
      if s.nonTool.isSome then
        .error s!"tool call block start at position {i} while a non-tool block is open"
      else .ok { s with openTools := (start.index, call.invocationKind) :: s.openTools }
    | none => .ok s

def contentBlockStop (index : Int32) :
    Except String AcceptedState :=
  if (s.openTools.lookup index).isSome then
    .ok { s with openTools := s.openTools.filter fun t => t.1 != index }
  else if (s.nonTool.map (·.index)) == some index then
    .ok { s with nonTool := none, spanOpen := false }
  else .error s!"content block stop at position {i} names no open block"

/-- A text or thinking delta; `kind` is the kind of block it may stand in. -/
def contentDelta (kind : OpenBlockKind) :
    Except String AcceptedState :=
  match s.nonTool with
  | some nt =>
    if nt.kind != kind then .error s!"{kind} delta at position {i} inside a {nt.kind} block"
    else .ok { s with spanOpen := true, sawText := true }
  | none =>
    if !s.openTools.isEmpty then
      .error s!"{kind} delta at position {i} while a tool block is open"
    else .ok { s with spanOpen := true, sawText := true }

/-- A text or thinking block is open. -/
def inTextBlock : Bool :=
  match s.nonTool with
  | some nt => nt.kind == .text || nt.kind == .thinking
  | none => false

def inProviderBlock : Bool :=
  match s.nonTool with
  | some nt => nt.kind == .provider
  | none => false

/-- An open span or an open text/thinking block makes the signature current; in
a tool or provider block, or with no content at all, it binds nothing. -/
def signatureDelta : Except String AcceptedState :=
  if s.spanOpen || s.inTextBlock then .ok { s with spanOpen := false }
  else if s.inProviderBlock || !s.openTools.isEmpty || !s.sawText then
    .error "signature_delta has no covered content (does not bind tool-call blocks)"
  else .ok s

def toolCallDelta (delta : ToolCallDelta) :
    Except String AcceptedState :=
  match s.openTools.lookup delta.index with
  | none => .error s!"tool call delta at position {i} names no open tool block ({delta.index})"
  | some kind =>
    match validateStreamToolDeltaFamily kind delta with
    | .error msg => .error s!"tool call delta at position {i}: {msg}"
    | .ok () => .ok s

/-- One iteration of the validation loop, for the event at position `i`. -/
def step (ev : StreamEvent) : Except String AcceptedState :=
  if s.sawError then .error s!"event after StreamError at position {i}"
  else if s.messageStopped && !allowedAfterStop ev.event then
    .error s!"event at position {i} after MessageStop"
  else
    match ev.event with
    | some (.error _) => .ok { s with sawError := true }
    | some (.usage _) => .ok s
    | some (.messageStart _) => .ok s
    | some (.messageStop _) =>
      if s.nonTool.isSome || !s.openTools.isEmpty then
        .error s!"MessageStop at position {i} while a content block is still open"
      else .ok { s with messageStopped := true }
    | some (.contentBlockStart start) => s.contentBlockStart i start
    | some (.contentBlockStop stop) => s.contentBlockStop i stop.index
    | some (.textDelta _) => s.contentDelta i .text
    | some (.thinkingDelta _) => s.contentDelta i .thinking
    | some (.signatureDelta _) => s.signatureDelta
    | some (.toolCallDelta delta) => s.toolCallDelta i delta
    | none => .ok s

/-- The loop over the events from position `i` on. -/
def run : AcceptedState → Nat → List StreamEvent → Except String AcceptedState
  | s, _, [] => .ok s
  | s, i, ev :: rest =>
    match s.step i ev with
    | .error msg => .error msg
    | .ok s' => s'.run (i + 1) rest

/-- The end-of-stream rule: only a `StreamError` abandons open blocks. -/
def finish : Except String Unit :=
  if !s.sawError && (s.nonTool.isSome || !s.openTools.isEmpty) then
    .error "stream ends with an open content block; missing ContentBlockStop (or StreamError)"
  else .ok ()

end AcceptedState

/-- Validate the event sequence the host hands a plugin.  The error is the
message of an `acceptedStreamError`. -/
def validateAcceptedStream (events : List StreamEvent) : Except String Unit :=
  match AcceptedState.run {} 0 events with
  | .error msg => .error msg
  | .ok s => s.finish

/-! ## What an accepted event does -/

/-- The kind of a non-tool block. -/
def ContentBlock.nonToolKind : ContentBlock → Option OpenBlockKind
  | .text _ => some .text
  | .thinking _ => some .thinking
  | .provider _ => some .provider
  | .toolCall _ => none

namespace AcceptedState

/-- A text or thinking delta is inside the block of its kind, or outside every block. -/
def InContent (v : AcceptedState) (kind : OpenBlockKind) : Prop :=
  (∃ index, v.nonTool = some { index, kind }) ∨ v.nonTool = none ∧ v.openTools = []

/-- What an accepted event found and left, arm by arm. -/
inductive Moves (v : AcceptedState) : Option EventArm → AcceptedState → Prop
  | absent : Moves v none v
  | error (e : StreamError) : Moves v (some (.error e)) { v with sawError := true }
  | usage (u : Usage) : Moves v (some (.usage u)) v
  | messageStart (m : MessageStart) : Moves v (some (.messageStart m)) v
  | messageStop (m : MessageStop) (hnone : v.nonTool = none) (htools : v.openTools = []) :
    Moves v (some (.messageStop m)) { v with messageStopped := true }
  | block {start : ContentBlockStart} {block : ContentBlock} {kind : OpenBlockKind}
    (hnew : start.index ∉ v.seen) (hblock : start.block = some block)
    (hkind : block.nonToolKind = some kind) (hnone : v.nonTool = none) (htools : v.openTools = []) :
    Moves v (some (.contentBlockStart start))
      { v with nonTool := some { index := start.index, kind }, spanOpen := false
               seen := start.index :: v.seen }
  | toolCall {start : ContentBlockStart} {call : ToolCallRef} (hnew : start.index ∉ v.seen)
    (hblock : start.block = some (.toolCall call)) (hnone : v.nonTool = none) :
    Moves v (some (.contentBlockStart start))
      { v with openTools := (start.index, call.invocationKind) :: v.openTools, spanOpen := false
               seen := start.index :: v.seen }
  | armless {start : ContentBlockStart} (hnew : start.index ∉ v.seen) (hblock : start.block = none) :
    Moves v (some (.contentBlockStart start))
      { v with spanOpen := false, seen := start.index :: v.seen }
  | toolStop {stop : ContentBlockStop} (hopen : (v.openTools.lookup stop.index).isSome = true) :
    Moves v (some (.contentBlockStop stop))
      { v with openTools := v.openTools.filter fun u => u.1 != stop.index }
  | blockStop {stop : ContentBlockStop} {kind : OpenBlockKind}
    (hno : v.openTools.lookup stop.index = none)
    (hopen : v.nonTool = some { index := stop.index, kind }) :
    Moves v (some (.contentBlockStop stop)) { v with nonTool := none, spanOpen := false }
  | textDelta (text : String) (hwhere : v.InContent .text) :
    Moves v (some (.textDelta text)) { v with spanOpen := true, sawText := true }
  | thinkingDelta (text : String) (hwhere : v.InContent .thinking) :
    Moves v (some (.thinkingDelta text)) { v with spanOpen := true, sawText := true }
  | current (token : String) (hcurrent : (v.spanOpen || v.inTextBlock) = true) :
    Moves v (some (.signatureDelta token)) { v with spanOpen := false }
  /-- The signature follows closed content. -/
  | trailing (token : String) (hspan : v.spanOpen = false) (hnone : v.nonTool = none)
    (htools : v.openTools = []) (hsaw : v.sawText = true) : Moves v (some (.signatureDelta token)) v
  | fragment {delta : ToolCallDelta} {kind : ToolInvocationKind}
    (hopen : v.openTools.lookup delta.index = some kind)
    (hfamily : validateStreamToolDeltaFamily kind delta = .ok ()) :
    Moves v (some (.toolCallDelta delta)) v

variable {v v' : AcceptedState} {i : Nat} {kind : OpenBlockKind} {index : Int32} {ev : StreamEvent}

lemma startNonTool_ok (h : v.startNonTool i index kind = .ok v') :
    v.nonTool = none ∧ v.openTools = [] ∧ v' = { v with nonTool := some { index, kind } } := by
  unfold startNonTool at h
  split at h
  · cases h
  next hnone =>
  split at h
  · cases h
  next htools =>
  cases h
  exact ⟨hnone, by simpa using htools, rfl⟩

lemma moves_of_contentBlockStart {start : ContentBlockStart}
    (h : v.contentBlockStart i start = .ok v') : Moves v (some (.contentBlockStart start)) v' := by
  unfold contentBlockStart at h
  split at h
  · cases h
  next hseen =>
  have hnew : start.index ∉ v.seen := by simpa using hseen
  match hblock : start.block with
  | none =>
    rw [hblock] at h
    cases h
    exact .armless hnew hblock
  | some (.toolCall call) =>
    rw [hblock] at h
    dsimp only at h
    split at h <;> cases h
    next hopen => exact .toolCall hnew hblock (by simpa using hopen)
  | some (.text _) | some (.thinking _) | some (.provider _) =>
    rw [hblock] at h
    obtain ⟨hnone, htools, rfl⟩ := startNonTool_ok h
    exact .block hnew hblock rfl hnone htools

lemma lookup_isSome_iff {tools : List (Int32 × ToolInvocationKind)} :
    (tools.lookup index).isSome = true ↔ ∃ u ∈ tools, u.1 = index := by
  induction tools with
  | nil => simp
  | cons u tools ih =>
  obtain ⟨j, kind⟩ := u
  rw [List.lookup_cons]
  by_cases hj : index = j
  · simp [hj]
  have hne : (index == j) = false := by simp [hj]
  rw [hne]
  simp [Ne.symm hj]

lemma moves_of_contentBlockStop {stop : ContentBlockStop}
    (h : v.contentBlockStop i stop.index = .ok v') :
    Moves v (some (.contentBlockStop stop)) v' := by
  unfold contentBlockStop at h
  split at h
  · next hopen =>
    cases h
    exact .toolStop hopen
  next hno =>
  split at h <;> cases h
  next hindex =>
  rw [beq_iff_eq, Option.map_eq_some_iff] at hindex
  obtain ⟨⟨index, kind⟩, hopen, rfl⟩ := hindex
  exact .blockStop (Option.not_isSome_iff_eq_none.mp hno) hopen

lemma contentDelta_ok (h : v.contentDelta i kind = .ok v') :
    v.InContent kind ∧ v' = { v with spanOpen := true, sawText := true } := by
  unfold contentDelta at h
  split at h
  · next nt hnt =>
    split at h <;> cases h
    next hkind =>
    obtain ⟨index, kind'⟩ := nt
    have hkind : kind' = kind := by simpa using hkind
    exact ⟨.inl ⟨index, hkind ▸ hnt⟩, rfl⟩
  next hnt =>
  split at h <;> cases h
  next htools => exact ⟨.inr ⟨hnt, by simpa using htools⟩, rfl⟩

lemma moves_of_signatureDelta (h : v.signatureDelta = .ok v') (token : String) :
    Moves v (some (.signatureDelta token)) v' := by
  unfold signatureDelta at h
  split at h
  · next hcurrent =>
    cases h
    exact .current token hcurrent
  next hcurrent =>
  split at h <;> cases h
  next hbound =>
  simp only [Bool.or_eq_true, not_or, Bool.not_eq_true, Bool.not_eq_false',
    List.isEmpty_iff] at hcurrent hbound
  refine .trailing token hcurrent.1 ?_ hbound.1.2 hbound.2
  -- an open block is of one of the three kinds
  cases hnt : v.nonTool with
  | none => rfl
  | some nt =>
  have htext := hcurrent.2
  have hprovider := hbound.1.1
  unfold inTextBlock at htext
  unfold inProviderBlock at hprovider
  rw [hnt] at htext hprovider
  cases hk : nt.kind <;> simp [hk] at htext hprovider

lemma moves_of_toolCallDelta {delta : ToolCallDelta} (h : v.toolCallDelta i delta = .ok v') :
    Moves v (some (.toolCallDelta delta)) v' := by
  unfold toolCallDelta at h
  split at h
  · cases h
  next hopen =>
  split at h <;> cases h
  next hfamily => exact .fragment hopen hfamily

/-- **One event**: it comes before any error, before the stop unless it may follow
it, and moves the walk by its own rule. -/
theorem step_moves (h : v.step i ev = .ok v') :
    v.sawError = false ∧ (allowedAfterStop ev.event = false → v.messageStopped = false) ∧
      Moves v ev.event v' := by
  unfold step at h
  split at h
  · cases h
  next herror =>
  split at h
  · cases h
  next hstop =>
  refine ⟨by simpa using herror, fun hallowed => by simpa [hallowed] using hstop, ?_⟩
  generalize ev.event = arm at h ⊢
  match arm, h with
  | none, h => cases h; exact .absent
  | some (.error _), h => cases h; exact .error _
  | some (.usage _), h => cases h; exact .usage _
  | some (.messageStart _), h => cases h; exact .messageStart _
  | some (.messageStop _), h =>
    dsimp only at h
    split at h <;> cases h
    next hopen =>
    have hclosed : v.nonTool = none ∧ v.openTools = [] := by simpa using hopen
    exact .messageStop _ hclosed.1 hclosed.2
  | some (.contentBlockStart _), h => exact moves_of_contentBlockStart h
  | some (.contentBlockStop _), h => exact moves_of_contentBlockStop h
  | some (.textDelta _), h =>
    obtain ⟨hwhere, rfl⟩ := contentDelta_ok h
    exact .textDelta _ hwhere
  | some (.thinkingDelta _), h =>
    obtain ⟨hwhere, rfl⟩ := contentDelta_ok h
    exact .thinkingDelta _ hwhere
  | some (.signatureDelta token), h => exact moves_of_signatureDelta h token
  | some (.toolCallDelta _), h => exact moves_of_toolCallDelta h

lemma run_cons_ok {events : List StreamEvent} : v.run i (ev :: events) = .ok v' ↔
      ∃ v₁, v.step i ev = .ok v₁ ∧ v₁.run (i + 1) events = .ok v' := by
  rw [run]
  cases v.step i ev <;> simp

lemma run_append (v : AcceptedState) (i : Nat) (xs ys : List StreamEvent) :
    v.run i (xs ++ ys) = (v.run i xs).bind fun u => u.run (i + xs.length) ys := by
  induction xs generalizing v i with
  | nil => rfl
  | cons ev xs ih =>
  simp only [List.cons_append, run]
  cases v.step i ev with
  | error msg => rfl
  | ok v' => dsimp only; rw [ih, List.length_cons, Nat.add_assoc, Nat.add_comm 1]

end AcceptedState

/-- The loop of `validateAcceptedStream` stops at the event at position `p`. -/
def ReportsAt (events : List StreamEvent) (p : Nat) (msg : String) : Prop :=
  validateAcceptedStream events = .error msg ∧
    ∃ before ev after v, events = before ++ ev :: after ∧ before.length = p ∧
      AcceptedState.run {} 0 before = .ok v ∧ v.step p ev = .error msg

/-- A stream the host may send is walked, and so is each of its prefixes. -/
lemma run_of_validateAcceptedStream {pre post : List StreamEvent}
    (h : validateAcceptedStream (pre ++ post) = .ok ()) :
    ∃ v, AcceptedState.run {} 0 pre = .ok v := by
  unfold validateAcceptedStream at h
  split at h
  · cases h
  next hrun =>
  rw [AcceptedState.run_append] at hrun
  cases hpre : AcceptedState.run {} 0 pre with
  | error msg => rw [hpre] at hrun; cases hrun
  | ok v => exact ⟨v, rfl⟩

end ToranaEdge
