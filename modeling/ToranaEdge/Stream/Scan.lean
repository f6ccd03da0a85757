import ToranaEdge.Stream.Validate

/-! # The signature scan

`scanStreamSignatures` walks a stream once and computes what the signature
verifier compares: the tool-call scopes, assembled per open index and
recorded at their stop, and one binding per `signature_delta`, with the
typed content it covers.

The four span builders of the source (text, thinking and the two presence
flags) are one `TypedContent`, and so are the four `closed` builders. -/

namespace ToranaEdge

open List Option

/-! ## Typed content, tool scopes and bindings -/

/-- The content of a text/thinking span.  Presence is independent of bytes: an
explicit block or an empty delta marks its arm. -/
structure TypedContent where
  text : String := ""
  thinking : String := ""
  textSeen : Bool := false
  thinkingSeen : Bool := false
  deriving DecidableEq, Repr

namespace TypedContent

def isEmpty (t : TypedContent) : Bool := t.text == "" && t.thinking == ""

/-- Same arm presence, ignoring bytes. -/
def sameKind (t o : TypedContent) : Bool :=
  t.textSeen == o.textSeen && t.thinkingSeen == o.thinkingSeen

/-- Append a span to the content closed so far; presence is OR'd. -/
def append (closed span : TypedContent) : TypedContent where
  text := closed.text ++ span.text
  thinking := closed.thinking ++ span.thinking
  textSeen := closed.textSeen || span.textSeen
  thinkingSeen := closed.thinkingSeen || span.thinkingSeen

end TypedContent

/-- One tool-call block's signed scope; also the builder of an open block. -/
structure ToolCallScope where
  index : Int32
  signature : String
  id : String
  name : String
  kind : ToolInvocationKind
  arguments : String := ""
  input : String := ""
  inputSeen : Bool := false
  deriving DecidableEq, Repr

/-- What the tool-call signature covers: everything but index and token. -/
structure CoveredCall where
  id : String
  name : String
  kind : ToolInvocationKind
  arguments : String
  inputSeen : Bool
  input : String
  deriving DecidableEq, Repr

def ToolCallScope.covered (s : ToolCallScope) : CoveredCall where
  id := s.id
  name := s.name
  kind := s.kind
  arguments := s.arguments
  inputSeen := s.inputSeen
  input := s.input

def toolCallContentChanged (a b : ToolCallScope) : Bool :=
  a.id != b.id || a.name != b.name || a.kind != b.kind ||
    a.arguments != b.arguments || a.inputSeen != b.inputSeen || a.input != b.input

def toolCallCoveredContentEqual (a b : ToolCallScope) : Bool :=
  a.id == b.id && a.name == b.name && a.kind == b.kind &&
    a.arguments == b.arguments && a.inputSeen == b.inputSeen && a.input == b.input

lemma toolCallCoveredContentEqual_iff {a b : ToolCallScope} :
    toolCallCoveredContentEqual a b = true ↔ a.covered = b.covered := by
  simp [toolCallCoveredContentEqual, ToolCallScope.covered, and_assoc]

lemma toolCallContentChanged_iff {a b : ToolCallScope} :
    toolCallContentChanged a b = true ↔ a.covered ≠ b.covered := by
  rw [← not_iff_not, not_not, ← toolCallCoveredContentEqual_iff]
  simp [toolCallContentChanged, toolCallCoveredContentEqual]

/-- The scope a `signature_delta` was emitted in. -/
inductive SigBindingKind where
  /-- Inside an open text/thinking span or block. -/
  | current
  /-- After closed text/thinking content, with no span open. -/
  | trailing
  /-- Neither: it binds nothing. -/
  | unbound
  deriving DecidableEq, Repr

instance : ToString SigBindingKind where
  toString
    | .current => "current-block"
    | .trailing => "trailing"
    | .unbound => "unbound"

/-- One `signature_delta` with the content it covers; `span` is the ordinal of
the covered span (`none` for the source's `-1`). -/
structure SigBinding where
  kind : SigBindingKind
  signature : String
  content : TypedContent := {}
  span : Option Nat := none
  deriving DecidableEq, Repr

/-- The signature-relevant structure of one stream. -/
structure StreamSignatureView where
  toolScopes : List ToolCallScope := []
  bindings : List SigBinding := []
  spans : List TypedContent := []
  closed : TypedContent := {}
  sawContent : Bool := false
  deriving DecidableEq, Repr

/-! ## The scan -/

/-- The variables of the scan loop.  `closed` and `sawText` stand in the view
at the end. -/
structure ScanState where
  blockOpen : Bool := false
  blockText : Bool := false
  /-- The open explicit text/thinking block already closed a span. -/
  blockSawSpan : Bool := false
  spanOpen : Bool := false
  /-- The open span: builders and arm presence. -/
  span : TypedContent := {}
  closed : TypedContent := {}
  sawText : Bool := false
  openTools : List ToolCallScope := []
  toolScopes : List ToolCallScope := []
  bindings : List SigBinding := []
  spans : List TypedContent := []
  deriving DecidableEq, Repr

namespace ScanState

variable (s : ScanState)

/-- Clear the span builders, both presence flags and `spanOpen`. -/
def resetSpanState : ScanState :=
  { s with span := {}, spanOpen := false }

/-- Record the current span and consume it. -/
def materializeSpan : ScanState :=
  { s.resetSpanState with
    closed := s.closed.append s.span
    spans := s.spans ++ [s.span]
    blockSawSpan := (s.blockOpen && s.blockText) || s.blockSawSpan }

/-- Close an in-flight span; the reset is unconditional. -/
def closeSpan : ScanState :=
  if s.spanOpen then s.materializeSpan else s.resetSpanState

def contentBlockStart (start : ContentBlockStart) : ScanState :=
  let s := s.closeSpan
  match start.block with
  | some (.text _) =>
    { s with blockOpen := true, blockText := true, blockSawSpan := false,
             span := { s.span with textSeen := true } }
  | some (.thinking _) =>
    { s with blockOpen := true, blockText := true, blockSawSpan := false,
             span := { s.span with thinkingSeen := true } }
  | some (.toolCall call) =>
    if s.openTools.any fun b => b.index == start.index then s
    else
      { s with openTools := s.openTools ++ [{
          index := start.index, signature := call.signature, id := call.id,
          name := call.name, kind := call.invocationKind }] }
  | some (.provider _) => { s with blockOpen := true, blockText := false }
  | none => s

def contentBlockStop (index : Int32) : ScanState :=
  match s.openTools.find? fun b => b.index == index with
  | some b =>
    { s with openTools := s.openTools.filter fun b => b.index != index
             toolScopes := s.toolScopes ++ [b] }
  | none =>
    -- an explicit block closed with zero deltas is a span with empty content
    let s := if s.blockOpen && s.blockText && !s.blockSawSpan && !s.spanOpen then
        s.materializeSpan else s
    let s := s.closeSpan
    { s with blockOpen := false, blockText := false, blockSawSpan := false }

def toolCallDelta (delta : ToolCallDelta) : ScanState :=
  { s with openTools := s.openTools.map fun b =>
      if b.index == delta.index then
        { b with arguments := b.arguments ++ delta.argumentsDelta
                 inputSeen := b.inputSeen || delta.inputTextDelta.isSome
                 input := b.input ++ delta.inputTextDelta.getD "" }
      else b }

/-- A delta inside a tool or provider block violates the ABI and is ignored. -/
def ignoresContent : Bool :=
  (s.blockOpen && !s.blockText) || !s.openTools.isEmpty

def textDelta (text : String) : ScanState :=
  if s.ignoresContent then s
  else
    { s with sawText := true, spanOpen := true
             span := { s.span with textSeen := true, text := s.span.text ++ text } }

def thinkingDelta (text : String) : ScanState :=
  if s.ignoresContent then s
  else
    { s with sawText := true, spanOpen := true
             span := { s.span with thinkingSeen := true, thinking := s.span.thinking ++ text } }

/-- The binding a `signature_delta` gets in this state. -/
def bindingOf (token : String) : SigBinding :=
  if s.spanOpen || (s.blockOpen && s.blockText) then
    { kind := .current, signature := token, content := s.span, span := some s.spans.length }
  else if s.blockOpen || !s.openTools.isEmpty then
    { kind := .unbound, signature := token }
  else
    { kind := if s.closed.isEmpty && !s.sawText then .unbound else .trailing
      signature := token
      content := s.closed }

def signatureDelta (token : String) : ScanState :=
  let binding := s.bindingOf token
  let s := if s.spanOpen || (s.blockOpen && s.blockText) then
      -- a current signature ends the span it covers, materializing an empty one
      if !s.spanOpen && s.blockOpen && s.blockText then s.materializeSpan else s.closeSpan
    else s
  { s with bindings := s.bindings ++ [binding] }

/-- One iteration of the scan. -/
def step (ev : StreamEvent) : ScanState :=
  match ev.event with
  | some (.contentBlockStart start) => s.contentBlockStart start
  | some (.contentBlockStop stop) => s.contentBlockStop stop.index
  | some (.toolCallDelta delta) => s.toolCallDelta delta
  | some (.textDelta text) => s.textDelta text
  | some (.thinkingDelta text) => s.thinkingDelta text
  | some (.signatureDelta token) => s.signatureDelta token
  | _ => s

/-- The scan of a list of events. -/
def run (events : List StreamEvent) : ScanState :=
  events.foldl step s

/-- An implicit span still in flight closes at end of stream. -/
def view : StreamSignatureView :=
  let s := s.closeSpan
  { toolScopes := s.toolScopes, bindings := s.bindings, spans := s.spans,
    closed := s.closed, sawContent := s.sawText }

end ScanState

def scanStreamSignatures (events : List StreamEvent) : StreamSignatureView :=
  (ScanState.run {} events).view

/-! ## Every current binding owns its span

Spans are only ever appended, and a current-block signature appends the
span it covers.  So its ordinal names that span in the final view. -/

namespace ScanState

variable {s : ScanState}

/-- Closing a span leaves the blocks, the scopes and the bindings. -/
@[simp] lemma closeSpan_frame (s : ScanState) :
    s.closeSpan.span = {} ∧ s.closeSpan.spanOpen = false ∧ s.closeSpan.sawText = s.sawText ∧
      s.closeSpan.blockOpen = s.blockOpen ∧ s.closeSpan.blockText = s.blockText ∧
      s.closeSpan.openTools = s.openTools ∧ s.closeSpan.toolScopes = s.toolScopes ∧
      s.closeSpan.bindings = s.bindings := by
  unfold closeSpan
  split <;> exact ⟨rfl, rfl, rfl, rfl, rfl, rfl, rfl, rfl⟩

lemma spans_prefix_closeSpan (s : ScanState) : s.spans <+: s.closeSpan.spans := by
  unfold closeSpan
  split
  · exact prefix_append _ _
  · exact prefix_rfl

/-- Every event but a `signature_delta` keeps the bindings and extends the spans. -/
structure Extends (s s' : ScanState) : Prop where
  bindings : s'.bindings = s.bindings
  spans : s.spans <+: s'.spans

lemma Extends.refl (s : ScanState) : Extends s s := ⟨rfl, prefix_rfl⟩

lemma extends_contentBlockStart (s : ScanState) (start : ContentBlockStart) :
    Extends s (s.contentBlockStart start) := by
  have hclose : Extends s s.closeSpan := ⟨by simp, spans_prefix_closeSpan s⟩
  unfold contentBlockStart
  dsimp only
  (repeat' split) <;> exact ⟨hclose.bindings, hclose.spans⟩

lemma extends_contentBlockStop (s : ScanState) (index : Int32) :
    Extends s (s.contentBlockStop index) := by
  unfold contentBlockStop
  split
  · exact ⟨rfl, prefix_rfl⟩
  split
  · have hprefix : s.spans <+: s.materializeSpan.spans := prefix_append _ _
    exact ⟨by simp [materializeSpan, resetSpanState], hprefix.trans (spans_prefix_closeSpan _)⟩
  · exact ⟨by simp, spans_prefix_closeSpan _⟩

lemma extends_step {ev : StreamEvent}
    (h : ∀ token, ev.event ≠ some (.signatureDelta token)) : Extends s (s.step ev) := by
  unfold step
  split
  · exact extends_contentBlockStart s _
  · exact extends_contentBlockStop s _
  · exact ⟨rfl, prefix_rfl⟩
  · unfold textDelta
    split <;> exact ⟨rfl, prefix_rfl⟩
  · unfold thinkingDelta
    split <;> exact ⟨rfl, prefix_rfl⟩
  · next token heq => exact absurd heq (h token)
  · exact Extends.refl s

/-- A signature adds its binding, and leaves no span in flight. -/
lemma signatureDelta_frame (s : ScanState) (token : String) :
    (s.signatureDelta token).bindings = s.bindings ++ [s.bindingOf token] ∧
      (s.signatureDelta token).spanOpen = false ∧ (s.signatureDelta token).sawText = s.sawText ∧
      (s.signatureDelta token).blockOpen = s.blockOpen ∧
      (s.signatureDelta token).blockText = s.blockText ∧
      (s.signatureDelta token).openTools = s.openTools := by
  unfold signatureDelta
  split
  · split
    · exact ⟨rfl, rfl, rfl, rfl, rfl, rfl⟩
    · simp
  next hcurrent =>
  simp only [Bool.or_eq_true, not_or, Bool.not_eq_true] at hcurrent
  exact ⟨rfl, hcurrent.1, rfl, rfl, rfl, rfl⟩

lemma signatureDelta_bindings (s : ScanState) (token : String) :
    (s.signatureDelta token).bindings = s.bindings ++ [s.bindingOf token] :=
  (signatureDelta_frame s token).1

/-- In a span or an explicit text/thinking block the signature records the span
it covers; elsewhere it records none. -/
lemma signatureDelta_spans (s : ScanState) (token : String) : (s.signatureDelta token).spans =
      if s.spanOpen || (s.blockOpen && s.blockText) then s.spans ++ [s.span] else s.spans := by
  unfold signatureDelta
  split
  · split
    · rfl
    · next hcur hopen =>
      have hspan : s.spanOpen = true := by
        by_contra hno
        simp_all
      rw [closeSpan, if_pos hspan]
      rfl
  · rfl

/-- A current binding names, by its ordinal, the span it covers. -/
def SpansOwned (s : ScanState) : Prop :=
  ∀ b ∈ s.bindings, b.kind = .current → (b.span.bind fun o => s.spans[o]?) = some b.content

lemma getElem?_of_isPrefix {α : Type} {xs ys : List α} (h : xs <+: ys) {i : Nat} {x : α}
    (hx : xs[i]? = some x) : ys[i]? = some x := by
  obtain ⟨zs, rfl⟩ := h
  obtain ⟨hi, -⟩ := List.getElem?_eq_some_iff.mp hx
  rw [getElem?_append_left hi, hx]

lemma SpansOwned.extends {s s' : ScanState} (h : SpansOwned s) (hext : Extends s s') :
    SpansOwned s' := by
  intro b hb hkind
  rw [hext.bindings] at hb
  obtain ⟨o, ho, hspan⟩ := bind_eq_some_iff.mp (h b hb hkind)
  rw [bind_eq_some_iff]
  exact ⟨o, ho, getElem?_of_isPrefix hext.spans hspan⟩

lemma SpansOwned.signatureDelta (h : SpansOwned s) (token : String) :
    SpansOwned (s.signatureDelta token) := by
  intro b hb hkind
  rw [signatureDelta_bindings, mem_append, mem_singleton] at hb
  rw [signatureDelta_spans]
  by_cases hcur : (s.spanOpen || (s.blockOpen && s.blockText)) = true
  · rw [if_pos hcur]
    rcases hb with hb | rfl
    · obtain ⟨o, ho, hspan⟩ := bind_eq_some_iff.mp (h b hb hkind)
      rw [bind_eq_some_iff]
      exact ⟨o, ho, getElem?_of_isPrefix (prefix_append s.spans [s.span]) hspan⟩
    · simp [bindingOf, hcur]
  rw [if_neg hcur]
  rcases hb with hb | rfl
  · exact h b hb hkind
  -- outside a span the binding is trailing or unbound
  unfold bindingOf at hkind
  rw [if_neg hcur] at hkind
  split at hkind
  · cases hkind
  · split at hkind <;> cases hkind

lemma SpansOwned.step (h : SpansOwned s) (ev : StreamEvent) : SpansOwned (s.step ev) := by
  by_cases hsig : ∃ token, ev.event = some (.signatureDelta token)
  · obtain ⟨token, hev⟩ := hsig
    have hstep : s.step ev = s.signatureDelta token := by
      unfold ScanState.step
      rw [hev]
    rw [hstep]
    exact h.signatureDelta token
  · exact h.extends (extends_step fun token hev => hsig ⟨token, hev⟩)

lemma SpansOwned.run (h : SpansOwned s) (events : List StreamEvent) :
    SpansOwned (s.run events) := by
  induction events generalizing s with
  | nil => exact h
  | cons ev events ih => exact ih (h.step ev)

end ScanState

/-- Every current-block binding of a scanned stream covers the span at its
ordinal. -/
lemma scanStreamSignatures_span_owned (events : List StreamEvent) :
    ∀ b ∈ (scanStreamSignatures events).bindings, b.kind = .current →
      (b.span.bind fun o => (scanStreamSignatures events).spans[o]?) = some b.content := by
  have hinit : ScanState.SpansOwned {} := by
    intro b hb
    cases hb
  exact (hinit.run events).extends ⟨by simp, ScanState.spans_prefix_closeSpan _⟩

end ToranaEdge
