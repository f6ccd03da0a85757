import ToranaEdge.Engine.PBConv
import ToranaEdge.Stream.Walker

/-! # The engine's stream events

The events a provider's stream is parsed into and written from, and how an
event of the plugin ABI becomes one.  A stop of the ABI carries an index only,
so the conversion keeps a `BlockKindTracker` of the blocks that are open.

The walker is at least as strict as the tracker: a stream it accepts is
converted without an error, into events the walker's state determines. -/

namespace ToranaEdge

open List Int32

namespace Engine

/-! ## Events -/

inductive BlockKind where
  | text
  | thinking
  | provider
  deriving DecidableEq, Repr

instance : ToString BlockKind where
  toString
    | .text => "text"
    | .thinking => "thinking"
    | .provider => "provider"

structure StreamMessageStart where
  role : String
  id : String
  model : String
  deriving DecidableEq, Repr

structure ToolCallStart where
  index : Int
  id : String
  name : String
  signature : String := ""
  invocationKind : ToolInvocationKind := .function
  deriving DecidableEq, Repr

structure ToolCallDelta where
  index : Int
  argumentsDelta : String := ""
  inputTextDelta : Option String := none
  deriving DecidableEq, Repr

/-- `engine.StreamEvent`.  At most one of its fields is set; a finish reason is
set when it is not empty. -/
inductive StreamEvent where
  | empty
  | textDelta (text : String)
  | thinkingDelta (text : String)
  | signatureDelta (token : String)
  | blockStart (index : Int) (kind : BlockKind) (providerKind : String)
  | blockStop (index : Int)
  | messageStart (start : StreamMessageStart)
  | toolCallStart (start : ToolCallStart)
  | toolCallDelta (delta : ToolCallDelta)
  | toolCallEnd (index : Int)
  | finishReason (reason : String)
  | usage (usage : StreamUsage)
  | error (code : Int) (message : String)
  deriving DecidableEq, Repr

end Engine

namespace PBConv

/-! ## The tracker -/

structure BlockKindTracker where
  openNonTool : Option (Int × Engine.BlockKind) := none
  openTools : List (Int × Engine.ToolInvocationKind) := []
  seen : List Int := []

namespace BlockKindTracker

variable (t : BlockKindTracker)

def startNonTool (index : Int) (kind : Engine.BlockKind) :
    Except String BlockKindTracker :=
  match t.openNonTool with
  | some (other, otherKind) =>
    .error (s!"pbconv: content block start at index {index} while a {otherKind} block " ++
      s!"at index {other} is still open")
  | none =>
    if !t.openTools.isEmpty then
      .error (s!"pbconv: content block start at index {index} while {t.openTools.length} " ++
        "tool block(s) are still open")
    else .ok { t with openNonTool := some (index, kind), seen := index :: t.seen }

def startBlock (index : Int) :
    Option ContentBlock → Except String (BlockKindTracker × Engine.StreamEvent)
  | none => .ok (t, .empty)
  | some (.text _) => do return (← t.startNonTool index .text, .blockStart index .text "")
  | some (.thinking _) => do return (← t.startNonTool index .thinking, .blockStart index .thinking "")
  | some (.provider p) => do
    return (← t.startNonTool index .provider, .blockStart index .provider p.kind)
  | some (.toolCall call) =>
    match t.openNonTool with
    | some (other, otherKind) =>
      .error (s!"pbconv: content block start at index {index} while a {otherKind} block " ++
        s!"at index {other} is still open")
    | none =>
      let kind := fromPBKind call.invocationKind
      .ok ({ t with openTools := (index, kind) :: t.openTools, seen := index :: t.seen },
        .toolCallStart { index, id := call.id, name := call.name, signature := call.signature
                         invocationKind := kind })

def stopBlock (index : Int) :
    Except String (BlockKindTracker × Engine.StreamEvent) :=
  match t.openNonTool with
  | some (other, otherKind) =>
    if index ≠ other then
      .error (s!"pbconv: content block stop at index {index} does not match the open {otherKind} " ++
        s!"block at index {other}")
    else .ok ({ t with openNonTool := none }, .blockStop index)
  | none =>
    if (t.openTools.lookup index).isSome then
      .ok ({ t with openTools := t.openTools.filter fun tool => tool.1 != index },
        .toolCallEnd index)
    else
      .error (s!"pbconv: content block stop at index {index} has no open block " ++
        "(unknown, mismatched, or already-closed topology)")

def toolDelta (delta : ToolCallDelta) :
    Except String (BlockKindTracker × Engine.StreamEvent) :=
  let index := delta.index.toInt
  match t.openTools.lookup index with
  | none => .error s!"pbconv: tool call delta at index {index} has no open tool block"
  | some kind =>
    if kind = .freeform ∧ (delta.inputTextDelta.isNone ∨ delta.argumentsDelta ≠ "") then
      .error (s!"pbconv: free-form tool call delta at index {index} carries the wrong " ++
        "payload family")
    else if kind ≠ .freeform ∧ delta.inputTextDelta.isSome then
      .error s!"pbconv: function tool call delta at index {index} carries free-form input"
    else
      .ok (t, .toolCallDelta { index, argumentsDelta := delta.argumentsDelta
                               inputTextDelta := delta.inputTextDelta })

def fromPBStreamEvent (e : StreamEvent) :
    Except String (BlockKindTracker × Engine.StreamEvent) :=
  match e.event with
  | none => .ok (t, .empty)
  | some (.messageStart m) => .ok (t, .messageStart { role := m.role, id := m.id, model := m.model })
  | some (.textDelta text) => .ok (t, .textDelta text)
  | some (.thinkingDelta text) => .ok (t, .thinkingDelta text)
  | some (.signatureDelta token) => .ok (t, .signatureDelta token)
  | some (.contentBlockStart start) =>
    if start.index.toInt ∈ t.seen then
      let index := start.index.toInt
      .error s!"pbconv: content block index {index} reused within one streamed message"
    else t.startBlock start.index.toInt start.block
  | some (.toolCallDelta delta) => t.toolDelta delta
  | some (.contentBlockStop stop) => t.stopBlock stop.index.toInt
  | some (.messageStop stop) => .ok (t, .finishReason stop.finishReason)
  | some (.usage u) =>
    .ok (t, .usage { inputTokens := u.inputTokens.toInt, outputTokens := u.outputTokens.toInt
                     cacheReadTokens := u.cacheReadTokens.toInt
                     cacheWriteTokens := u.cacheWriteTokens.toInt })
  | some (.error err) => .ok (t, .error err.code.toInt err.message)

/-- The events of a stream, one after another. -/
def fromPBStream : BlockKindTracker → List StreamEvent → Except String (List Engine.StreamEvent)
  | _, [] => .ok []
  | t, e :: rest => do
    let (t', e') ← t.fromPBStreamEvent e
    return e' :: (← t'.fromPBStream rest)

/-! ## What the walker accepts is converted -/

def fromOpenKind : OpenBlockKind → Engine.BlockKind
  | .text => .text
  | .thinking => .thinking
  | .provider => .provider

/-- The tracker knows the blocks the walker knows. -/
structure Mirrors (w : StreamDisciplineWalker) (t : BlockKindTracker) : Prop where
  nonTool : t.openNonTool = w.nonTool.map fun b => (b.index.toInt, fromOpenKind b.kind)
  tools : t.openTools = w.openTools.map fun tool => (tool.1.toInt, fromPBKind tool.2)
  seen : ∀ i ∈ t.seen, ∃ j ∈ w.seen, j.toInt = i
  alone : w.nonTool ≠ none → w.openTools = []

lemma mirrors_empty : Mirrors {} {} := ⟨rfl, rfl, by simp, fun h => (h rfl).elim⟩

/-- The event the conversion makes of `arm` when the walker has come to `w`. -/
def engineEvent (w : StreamDisciplineWalker) : Option EventArm → Engine.StreamEvent
  | none => .empty
  | some (.messageStart m) => .messageStart { role := m.role, id := m.id, model := m.model }
  | some (.textDelta text) => .textDelta text
  | some (.thinkingDelta text) => .thinkingDelta text
  | some (.signatureDelta token) => .signatureDelta token
  | some (.contentBlockStart start) =>
    match start.block with
    | none => .empty
    | some (.text _) => .blockStart start.index.toInt .text ""
    | some (.thinking _) => .blockStart start.index.toInt .thinking ""
    | some (.provider p) => .blockStart start.index.toInt .provider p.kind
    | some (.toolCall call) =>
      .toolCallStart { index := start.index.toInt, id := call.id, name := call.name
                       signature := call.signature
                       invocationKind := fromPBKind call.invocationKind }
  | some (.toolCallDelta delta) =>
    .toolCallDelta { index := delta.index.toInt, argumentsDelta := delta.argumentsDelta
                     inputTextDelta := delta.inputTextDelta }
  | some (.contentBlockStop stop) =>
    if (w.openTools.lookup stop.index).isSome then .toolCallEnd stop.index.toInt
    else .blockStop stop.index.toInt
  | some (.messageStop stop) => .finishReason stop.finishReason
  | some (.usage u) =>
    .usage { inputTokens := u.inputTokens.toInt, outputTokens := u.outputTokens.toInt
             cacheReadTokens := u.cacheReadTokens.toInt
             cacheWriteTokens := u.cacheWriteTokens.toInt }
  | some (.error err) => .error err.code.toInt err.message

lemma lookup_map_toInt (tools : List (Int32 × ToolInvocationKind)) (index : Int32) :
    (tools.map fun tool => (tool.1.toInt, fromPBKind tool.2)).lookup index.toInt =
      (tools.lookup index).map fromPBKind := by
  induction tools with
  | nil => rfl
  | cons tool tools ih =>
  rw [map_cons, lookup_cons, lookup_cons, ih]
  by_cases h : index = tool.1
  · rw [h, beq_self_eq_true, beq_self_eq_true]
    rfl
  · have hint : index.toInt ≠ tool.1.toInt := fun heq => h (toInt_inj.mp heq)
    rw [beq_eq_false_iff_ne.mpr h, beq_eq_false_iff_ne.mpr hint]

lemma fromPBKind_eq_freeform {k : ToolInvocationKind} :
    fromPBKind k = .freeform ↔ k = .freeform := by
  cases k with
  | function | freeform => decide
  | unrecognized n hn =>
  have hne : n.toInt ≠ 1 := fun h => hn.2 (toInt_inj.mp h)
  have hzero : n.toInt ≠ 0 := fun h => hn.1 (toInt_inj.mp h)
  have hother : fromPBKind (.unrecognized n hn) = .other n.toInt ⟨hzero, hne⟩ :=
    (dif_neg hzero).trans (dif_neg hne)
  simp [hother]

variable {w w' : StreamDisciplineWalker} {t : BlockKindTracker}

section

variable (h : Mirrors w t)
include h

lemma Mirrors.seen_cons {index : Int32} (hseen : w'.seen = index :: w.seen) :
    ∀ i ∈ index.toInt :: t.seen, ∃ j ∈ w'.seen, j.toInt = i := by
  intro i hi
  rw [hseen]
  rcases mem_cons.mp hi with rfl | hi
  · exact ⟨index, mem_cons_self, rfl⟩
  · obtain ⟨j, hj, hji⟩ := h.seen i hi
    exact ⟨j, mem_cons_of_mem _ hj, hji⟩

lemma Mirrors.same (hsame : w.SameBlocks w') : Mirrors w' t := by
  obtain ⟨hnonTool, htools, hseen⟩ := hsame
  refine ⟨?_, ?_, ?_, ?_⟩
  · rw [hnonTool]; exact h.nonTool
  · rw [htools]; exact h.tools
  · rw [hseen]; exact h.seen
  · rw [hnonTool, htools]; exact h.alone

/-- A start of a text, thinking or provider block. -/
lemma Mirrors.startNonTool {index : Int32} {kind : OpenBlockKind}
    (hnone : w.nonTool = none) (hempty : w.openTools = []) (hempty' : w'.openTools = [])
    (hopen : w'.nonTool = some ⟨index, kind⟩) (hseen : w'.seen = index :: w.seen) :
    ∃ t', t.startNonTool index.toInt (fromOpenKind kind) = .ok t' ∧ Mirrors w' t' := by
  have hclosed : t.openNonTool = none := by rw [h.nonTool, hnone]; rfl
  have hnoTools : t.openTools = [] := by rw [h.tools, hempty]; rfl
  refine ⟨{ t with openNonTool := some (index.toInt, fromOpenKind kind)
                   seen := index.toInt :: t.seen }, ?_, ?_, ?_, h.seen_cons hseen, fun _ => hempty'⟩
  · simp [BlockKindTracker.startNonTool, hclosed, hnoTools]
  · rw [hopen]; rfl
  · rw [hnoTools, hempty']; rfl

lemma Mirrors.start {start : ContentBlockStart} (hspec : w.StartSpec w' start) :
    start.index.toInt ∉ t.seen ∧ ∃ t', t.startBlock start.index.toInt start.block =
      .ok (t', engineEvent w (some (.contentBlockStart start))) ∧ Mirrors w' t' := by
  obtain ⟨index, block, unknown⟩ := start
  obtain ⟨hnew, hseen, hblock⟩ := hspec
  refine ⟨?_, ?_⟩
  · intro hmem
    obtain ⟨j, hj, hji⟩ := h.seen _ hmem
    exact hnew (toInt_inj.mp hji ▸ hj)
  match block with
  | none =>
    obtain ⟨hnonTool, htools⟩ := hblock
    refine ⟨t, rfl, ?_, ?_, ?_, ?_⟩
    · rw [hnonTool]; exact h.nonTool
    · rw [htools]; exact h.tools
    · intro i hi
      exact h.seen_cons hseen i (mem_cons_of_mem _ hi)
    · rw [hnonTool, htools]; exact h.alone
  | some (.text _) | some (.thinking _) | some (.provider _) =>
    obtain ⟨hnone, hempty, hempty', kind, hkind, hopen⟩ := hblock
    cases hkind
    obtain ⟨t', ht', hmirrors⟩ := h.startNonTool hnone hempty hempty' hopen hseen
    refine ⟨t', ?_, hmirrors⟩
    simp only [fromOpenKind] at ht'
    simp only [startBlock, ht']
    rfl
  | some (.toolCall call) =>
    obtain ⟨hnone, hnone', htools⟩ := hblock
    have hclosed : t.openNonTool = none := by rw [h.nonTool, hnone]; rfl
    refine ⟨{ t with openTools := (index.toInt, fromPBKind call.invocationKind) :: t.openTools
                     seen := index.toInt :: t.seen }, ?_, ?_, ?_, h.seen_cons hseen, ?_⟩
    · unfold startBlock
      rw [hclosed]
      rfl
    · rw [hclosed, hnone']; rfl
    · rw [htools, h.tools]; rfl
    · exact fun hne => (hne hnone').elim

lemma Mirrors.stop {stop : ContentBlockStop}
    (hspec : w.StopSpec w' stop.index) : ∃ t', t.stopBlock stop.index.toInt =
      .ok (t', engineEvent w (some (.contentBlockStop stop))) ∧ Mirrors w' t' := by
  obtain ⟨hseen, ⟨htool, hsame, htools⟩ | ⟨htool, htools, hclosed, kind, hopen⟩⟩ := hspec
  · -- a tool is open, so no other block is
    have hnone : w.nonTool = none := by
      by_contra hne
      rw [h.alone hne] at htool
      cases htool
    have hclosed : t.openNonTool = none := by rw [h.nonTool, hnone]; rfl
    refine ⟨{ t with openTools := t.openTools.filter fun tool => tool.1 != stop.index.toInt },
      ?_, ?_, ?_, ?_, ?_⟩
    · unfold stopBlock engineEvent
      rw [hclosed, h.tools, lookup_map_toInt]
      simp [htool]
    · rw [hclosed, hsame, hnone]; rfl
    · rw [h.tools, htools, filter_map]
      refine congrArg (map _) (filter_congr fun tool _ => ?_)
      simp [bne, toInt_inj]
    · rw [hseen]; exact h.seen
    · rw [hsame]; exact fun hne => (hne hnone).elim
  · refine ⟨{ t with openNonTool := none }, ?_, ?_, ?_, ?_, ?_⟩
    · unfold stopBlock engineEvent
      rw [h.nonTool, hopen]
      simp [htool]
    · rw [hclosed]; rfl
    · rw [h.tools, htools]
    · rw [hseen]; exact h.seen
    · exact fun hne => (hne hclosed).elim

lemma Mirrors.delta {delta : ToolCallDelta} {kind : ToolInvocationKind}
    (hopen : w.openTools.lookup delta.index = some kind)
    (hfamily : validateStreamToolDeltaFamily kind delta = .ok ()) :
    t.toolDelta delta = .ok (t, engineEvent w (some (.toolCallDelta delta))) := by
  have hlookup : t.openTools.lookup delta.index.toInt = some (fromPBKind kind) := by
    rw [h.tools, lookup_map_toInt, hopen]
    rfl
  simp only [toolDelta, hlookup]
  cases kind with
  | function =>
    have hnone : delta.inputTextDelta.isSome = false := by
      by_contra hsome
      simp [validateStreamToolDeltaFamily, hsome] at hfamily
    rw [if_neg (by simp [fromPBKind_eq_freeform]), if_neg (by simp [hnone])]
    rfl
  | freeform =>
    have hpayload : ¬(delta.inputTextDelta.isNone ∨ delta.argumentsDelta ≠ "") := by
      simp [validateStreamToolDeltaFamily] at hfamily
      simp_all
    rw [if_neg (fun hand => hpayload hand.2)]
    rfl
  | unrecognized n hn => cases hfamily

/-- **One event**: an event the walker accepts is converted. -/
theorem Mirrors.step {ev : StreamEvent} (hwalk : w.walk ev = .ok w') :
    ∃ t', t.fromPBStreamEvent ev = .ok (t', engineEvent w ev.event) ∧ Mirrors w' t' := by
  obtain ⟨-, hspec⟩ := StreamDisciplineWalker.walk_spec hwalk
  obtain ⟨arm, unknown⟩ := ev
  match arm with
  | none | some (.messageStart _) | some (.signatureDelta _) =>
    exact ⟨t, rfl, h.same hspec.2.2.2⟩
  | some (.textDelta _) | some (.thinkingDelta _) => exact ⟨t, rfl, h.same hspec.2.2.2.1⟩
  | some (.usage _) | some (.error _) | some (.messageStop _) => exact ⟨t, rfl, h.same hspec.1⟩
  | some (.contentBlockStart start) =>
    obtain ⟨hnew, t', ht', hmirrors⟩ := h.start hspec.2.2.2
    refine ⟨t', ?_, hmirrors⟩
    unfold fromPBStreamEvent
    dsimp only
    rw [if_neg hnew, ht']
  | some (.contentBlockStop stop) => exact h.stop hspec.2.2.2
  | some (.toolCallDelta delta) =>
    obtain ⟨-, -, -, hsame, kind, hopen, hfamily⟩ := hspec
    exact ⟨t, h.delta hopen hfamily, h.same hsame⟩

end

/-- The events the conversion makes of a stream the walker accepts. -/
def engineEvents : StreamDisciplineWalker → List StreamEvent → List Engine.StreamEvent
  | _, [] => []
  | w, ev :: rest =>
    engineEvent w ev.event :: match w.walk ev with
      | .ok w' => engineEvents w' rest
      | .error _ => []

/-- **A whole stream**: what the walker accepts is converted without an error. -/
theorem Mirrors.run
    {events : List StreamEvent} (h : Mirrors w t) (hwalk : w.walkAll events = .ok w') :
    t.fromPBStream events = .ok (engineEvents w events) := by
  induction events generalizing w t with
  | nil => rfl
  | cons ev rest ih =>
  obtain ⟨v, hstep, hwalk⟩ := StreamDisciplineWalker.walkAll_cons.mp hwalk
  obtain ⟨t', ht', hmirrors⟩ := h.step hstep
  have hrest := ih hmirrors hwalk
  simp only [fromPBStream, engineEvents, ht', hstep]
  show (t'.fromPBStream rest).bind _ = _
  rw [hrest]
  rfl

end BlockKindTracker

end PBConv

end ToranaEdge
