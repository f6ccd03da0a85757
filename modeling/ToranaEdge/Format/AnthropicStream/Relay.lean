import ToranaEdge.Lib.Splits
import ToranaEdge.Format.AnthropicStream.Parse
import ToranaEdge.Format.AnthropicStream.Rendered

/-! # Relaying an Anthropic stream

A native stream is parsed and written again.  The events between the two carry
no boundaries of text and thinking blocks, so the serializer regroups: `step`
says what becomes of the blocks, frame by frame, and the parser, the serializer
and a client of the relayed stream follow it. -/

namespace ToranaEdge.Format.Anthropic

open Client List Option Serializer ToranaEdge.Format.Anthropic.Parser
open Function (update)

/-! ## What the serializer emits in the content of a message -/

/-- A delta goes to the last block. -/
def addLast (delta : BlockDelta) (bodies : List BlockBody) : List BlockBody :=
  addAt (bodies.length - 1) delta bodies

/-- The serializer writes `events` and goes on as `s'`; the client takes the frames
and goes on as `c'`, with nothing but its blocks changed. -/
structure Emits (s : Serializer) (c : Client) (events : List Engine.StreamEvent)
    (run' : Option BodyKind) (s' : Serializer) (c' : Client) : Prop where
  writes : ∃ frames, c.takeAll frames = some c' ∧
    ∀ rest, (s.serializeFrom (events ++ rest)).1 = frames ++ (s'.serializeFrom rest).1
  writing : Writing run' s' c'
  usage : c'.usage = c.usage
  reason : c'.stopReason = c.stopReason
  pending : s'.pendingUsage = s.pendingUsage

variable {run run' : Option BodyKind} {s : Serializer} {c : Client} {b : List BlockBody}
  {wrote : Wrote}

lemma Writing.emits_nil (h : Writing run s c) : Emits s c [] run s c :=
  ⟨⟨[], rfl, fun _ => rfl⟩, h, rfl, rfl, rfl⟩

/-- What the pieces of the serializer do to the contents of the client's blocks, and
that they write frames of blocks only. -/
structure Piece (wrote : Wrote) (bodies bodies' : List BlockBody) : Prop where
  bodies : wrote.1.foldl bodiesAfter bodies = bodies'
  block : ∀ frame ∈ wrote.1, frame.isBlock = true

lemma Piece.andThen {next : Serializer → Wrote} {b' b'' : List BlockBody} (h : Piece wrote b b')
    (h' : Piece (next wrote.2) b' b'') : Piece (wrote.andThen next) b b'' where
  bodies := by
    show foldl bodiesAfter b (_ ++ _) = b''
    rw [foldl_append, h.bodies, h'.bodies]
  block := by
    intro frame hframe
    rcases mem_append.mp hframe with hframe | hframe
    · exact h.block frame hframe
    · exact h'.block frame hframe

section

variable (s : Serializer) (b : List BlockBody)

lemma piece_closeThinking : Piece s.closeThinking b b := by
  unfold closeThinking
  split <;> exact ⟨rfl, by simp [Frame.isBlock]⟩

lemma piece_closeText : Piece s.closeText b b := by
  unfold closeText
  split <;> exact ⟨rfl, by simp [Frame.isBlock]⟩

lemma piece_openText : Piece s.openText b (if s.inText then b else b ++ [.text ""]) := by
  unfold openText
  split <;> exact ⟨rfl, by simp [Frame.isBlock]⟩

lemma piece_openThinking :
    Piece s.openThinking b (if s.inThinking then b else b ++ [.thinking "" ""]) := by
  unfold openThinking
  split <;> exact ⟨rfl, by simp [Frame.isBlock]⟩

lemma piece_writeDelta (delta : BlockDelta) (b : List BlockBody) :
    Piece (s.writeDelta delta) b (addAt s.blockIndex delta b) :=
  ⟨rfl, by simp [writeDelta, Frame.isBlock]⟩

end

@[simp] lemma length_addAt (n : Nat) (delta : BlockDelta) (b : List BlockBody) :
    (addAt n delta b).length = b.length := length_modify ..

namespace Writing

lemma emits (event : Engine.StreamEvent) (h : Writing run s c)
    (hplain : IsPlain event) (hrender : s.render event = .ok wrote) (htakes : Takes c wrote run')
    (hpiece : Piece wrote c.bodies b) (hpending : wrote.2.pendingUsage = s.pendingUsage) :
    ∃ c', Emits s c [event] run' wrote.2 c' ∧ c'.bodies = b := by
  obtain ⟨c', htake, hwriting⟩ := htakes
  obtain ⟨-, husage, hreason⟩ := envelope_of_takeAll hpiece.block htake
  have hstarted : s.ensureStarted = ([], s) := if_pos h.started
  have hevent : s.serializeEvent event = (wrote.1, .ok wrote.2) := by
    rw [serializeEvent_eq (by rw [hstarted]; exact hrender) hplain, hstarted, nil_append]
  refine ⟨c', ⟨⟨wrote.1, htake, fun rest => ?_⟩, hwriting, husage, hreason, hpending⟩,
    (bodies_of_takeAll htake).trans hpiece.bodies⟩
  show (s.serializeFrom (event :: rest)).1 = _
  rw [serializeFrom, hevent]

/-- The last block of a client that reads a run is the one at the running index. -/
lemma addAt_eq_addLast {kind : BodyKind} {delta : BlockDelta} (h : Writing (some kind) s c)
    (hbodies : c.bodies = addAt s.blockIndex delta b) : c.bodies = addLast delta b := by
  have hlength : c.bodies.length = s.blockIndex + 1 := by
    rw [length_bodies]
    exact h.length
  rw [hbodies, length_addAt] at hlength
  rw [hbodies, addLast, hlength]
  rfl

lemma emits_text (h : Writing run s c) (hkind : run ≠ some .toolUse) (text : String) :
    ∃ s' c', Emits s c [.textDelta text] (some .text) s' c' ∧ s'.toolBlock = s.toolBlock ∧
      c'.bodies = addLast (.text text)
        (if run = some .text then c.bodies else c.bodies ++ [.text ""]) := by
  have htakes := (h.toText hkind).andThen fun _ h' => Writing.writeDelta (.text text) h'
  have hpiece := ((piece_closeThinking s c.bodies).andThen (piece_openText _ _)).andThen
    (piece_writeDelta _ (.text text) _)
  obtain ⟨c', hemits, hbodies⟩ := h.emits (.textDelta text) rfl rfl htakes hpiece
    (by simp [Serializer.writeDelta])
  refine ⟨_, c', hemits, by simp [Serializer.writeDelta], ?_⟩
  have htext : s.closeThinking.2.inText = decide (run = some .text) := by
    rw [← h.inText, Serializer.closeThinking]
    split <;> rfl
  rw [htext] at hbodies
  simpa using hemits.writing.addAt_eq_addLast hbodies

lemma emits_thinking (h : Writing run s c) (hrun : run = none ∨ run = some .thinking)
    (text : String) : ∃ s' c', Emits s c [.thinkingDelta text] (some .thinking) s' c' ∧
      s'.toolBlock = s.toolBlock ∧ c'.bodies = addLast (.thinking text)
        (if run = some .thinking then c.bodies else c.bodies ++ [.thinking "" ""]) := by
  have htakes := (h.openThinking hrun).andThen fun _ h' => Writing.writeDelta (.thinking text) h'
  have hpiece := (piece_openThinking s c.bodies).andThen (piece_writeDelta _ (.thinking text) _)
  obtain ⟨c', hemits, hbodies⟩ := h.emits (.thinkingDelta text) rfl rfl htakes
    hpiece (by simp [Serializer.writeDelta])
  refine ⟨_, c', hemits, by simp [Serializer.writeDelta], ?_⟩
  rw [h.inThinking] at hbodies
  simpa using hemits.writing.addAt_eq_addLast hbodies

lemma emits_signature (h : Writing (some .thinking) s c) (token : String) :
    ∃ s' c', Emits s c [.signatureDelta token] (some .thinking) s' c' ∧
      s'.toolBlock = s.toolBlock ∧ c'.bodies = addLast (.signature token) c.bodies := by
  have hin : s.inThinking = true := h.inThinking
  obtain ⟨c', hemits, hbodies⟩ := h.emits (.signatureDelta token) rfl (if_pos hin)
    (Writing.writeDelta (.signature token) h) (piece_writeDelta _ (.signature token) _)
    (by simp [Serializer.writeDelta])
  exact ⟨_, c', hemits, rfl, hemits.writing.addAt_eq_addLast hbodies⟩

lemma emits_toolStart (h : Writing run s c) (hkind : run ≠ some .toolUse)
    (start : Engine.ToolCallStart) (hfunction : start.invocationKind ≠ .freeform)
    (hnew : s.toolBlock start.index = none) : ∃ s' c', Emits s c [.toolCallStart start] none s' c' ∧
      s'.toolBlock = update s.toolBlock start.index (some c.bodies.length) ∧
      c'.bodies = c.bodies ++ [.toolUse start.id start.name ""] := by
  have htakes := (h.closeBoth hkind).andThen fun _ h' => h'.startToolCall (by simpa using hnew)
  have hpiece : Piece ((s.closeThinking.andThen Serializer.closeText).andThen
      (startTool start)) c.bodies (c.bodies ++ [.toolUse start.id start.name ""]) :=
    ((piece_closeThinking s c.bodies).andThen (piece_closeText _ _)).andThen
      ⟨rfl, by simp [startTool, Frame.isBlock]⟩
  obtain ⟨c', hemits, hbodies⟩ := h.emits (.toolCallStart start)
    (if_neg hfunction) rfl htakes hpiece (by simp [startTool])
  refine ⟨_, c', hemits, ?_, hbodies⟩
  -- the new block is the last one the client has
  have hlength := hemits.writing.length
  rw [← length_bodies, hbodies] at hlength
  simp [startTool] at hlength
  simp [startTool, hlength]

lemma emits_toolDelta (h : Writing run s c) (delta : Engine.ToolCallDelta) {n : Nat}
    (hinput : delta.inputTextDelta = none) (hn : s.toolBlock delta.index = some n) :
    ∃ c', Emits s c [.toolCallDelta delta] run s c' ∧
      c'.bodies = addAt n (.inputJson delta.argumentsDelta) c.bodies := by
  obtain ⟨_, hrender, rfl, htakes⟩ := h.toolDelta hn
  exact h.emits (.toolCallDelta delta) (if_neg (by simp [hinput])) hrender htakes
    ⟨rfl, by simp [Frame.isBlock]⟩ rfl

lemma emits_toolEnd (h : Writing run s c) {index : Int} {n : Nat}
    (hn : s.toolBlock index = some n) : ∃ s' c', Emits s c [.toolCallEnd index] run s' c' ∧
      s'.toolBlock = update s.toolBlock index none ∧ c'.bodies = c.bodies := by
  obtain ⟨_, hrender, rfl, htakes⟩ := h.toolEnd hn
  obtain ⟨c', hemits, hbodies⟩ := h.emits (.toolCallEnd index) rfl hrender htakes
    ⟨rfl, by simp [Frame.isBlock]⟩ rfl
  exact ⟨_, c', hemits, rfl, hbodies⟩

end Writing

/-! ## Regrouping -/

/-- What the serializer has made of the frames relayed so far. -/
structure Regrouped where
  /-- The kind of the text or thinking block that is still open. -/
  run : Option BodyKind := none
  bodies : List BlockBody := []
  /-- The block that an open tool call of the native stream became. -/
  tools : Int → Option Nat := fun _ => none

namespace Regrouped

/-- One frame of the content; `none` when the relayed stream cannot be well formed
any more. -/
def step (g : Regrouped) : Frame → Option Regrouped
  | .contentBlockStart index (.toolUse id name) =>
    some { run := none, bodies := g.bodies ++ [.toolUse id name ""]
           tools := update g.tools index (some g.bodies.length) }
  | .contentBlockDelta _ (.text text) =>
    some { g with run := some .text
                  bodies := addLast (.text text)
                    (if g.run = some .text then g.bodies else g.bodies ++ [.text ""]) }
  | .contentBlockDelta _ (.thinking text) =>
    if g.run = some .text then none
    else
      some { g with run := some .thinking
                    bodies := addLast (.thinking text)
                      (if g.run = some .thinking then g.bodies else g.bodies ++ [.thinking "" ""]) }
  | .contentBlockDelta _ (.signature token) =>
    if g.run = some .thinking then some { g with bodies := addLast (.signature token) g.bodies }
    else none
  | .contentBlockDelta index (.inputJson text) =>
    (g.tools index).map fun n => { g with bodies := addAt n (.inputJson text) g.bodies }
  | .contentBlockStop index => some { g with tools := update g.tools index none }
  | _ => some g

lemma tools_of_delta {g g' : Regrouped} {index : Int} {delta : BlockDelta}
    (h : g.step (.contentBlockDelta index delta) = some g') : g'.tools = g.tools := by
  match delta with
  | .text _ =>
    cases h
    rfl
  | .thinking _ =>
    obtain ⟨-, hg⟩ := ite_none_left_eq_some.mp h
    cases hg
    rfl
  | .signature _ =>
    obtain ⟨-, hg⟩ := ite_none_right_eq_some.mp h
    cases hg
    rfl
  | .inputJson _ =>
    obtain ⟨n, -, rfl⟩ := map_eq_some_iff.mp h
    rfl

/-- The frame belongs to the content, starts no tool call that is open, and sends
input to an open one only. -/
def Fits (g : Regrouped) : Frame → Prop
  | .contentBlockStart index _ => g.tools index = none
  | .contentBlockDelta index (.inputJson _) => (g.tools index).isSome
  | .contentBlockDelta _ _ | .contentBlockStop _ | .ping => True
  | _ => False

end Regrouped

/-! ## The parser, the serializer and a client follow -/

namespace Parser

/-- The events of the remaining frames, as the native adapter reads them. -/
def frames (p : Parser) (fs : List Frame) : List Engine.StreamEvent :=
  p.parseFrom {} none (fs.map fun f => .ok f.sseEvent)

variable (p : Parser) (fs : List Frame)

lemma frames_ping : p.frames (.ping :: fs) = p.frames fs := by
  simp [frames, parseFrom, parseEvent, Frame.sseEvent]

/-- The parser when a message has started. -/
def counting (usage : UsageEv) : Parser where
  inputTokens := usage.inputTokens
  cacheRead := usage.cacheReadInputTokens
  cacheWrite := usage.cacheCreationInputTokens

lemma frames_messageStart (id role model : String) (usage : UsageCounts) :
    frames {} (.messageStart id role model usage :: fs) = (counting usage.usageEv).frames fs := by
  simp [frames, parseFrom, parseEvent, Frame.sseEvent, counting]

lemma frames_start (index : Int) (opening : BlockOpening) :
    p.frames (.contentBlockStart index opening :: fs) =
      startEvents {} index opening.contentBlockEv ++
        frames { p with blockTypes := update p.blockTypes index
                          (some opening.contentBlockEv.type) } fs := by
  simp [frames, parseFrom, parseEvent, Frame.sseEvent]

lemma frames_delta (index : Int) (delta : BlockDelta) :
    p.frames (.contentBlockDelta index delta :: fs) =
      deltaEvents index delta.deltaEv ++ p.frames fs := by
  simp [frames, parseFrom, parseEvent, Frame.sseEvent]

lemma frames_stop (index : Int) :
    p.frames (.contentBlockStop index :: fs) = p.stopEvents {} index ++
      frames { p with blockTypes := update p.blockTypes index none } fs := by
  simp [frames, parseFrom, parseEvent, Frame.sseEvent]

lemma frames_messageDelta (reason : String) (usage : Option UsageCounts) :
    p.frames (.messageDelta (some reason) usage :: fs) =
      (p.messageDeltaEvents (Frame.messageDelta (some reason) usage).sseEvent).1 ++
        (p.messageDeltaEvents (Frame.messageDelta (some reason) usage).sseEvent).2.frames fs := by
  simp [frames, parseFrom, parseEvent, Frame.sseEvent]

/-- The counts kept from `message_start` are the same. -/
def SameCounts (p p' : Parser) : Prop :=
  p'.inputTokens = p.inputTokens ∧ p'.cacheRead = p.cacheRead ∧ p'.cacheWrite = p.cacheWrite

end Parser

/-- A client cannot bring these frames to the end of a message. -/
def Stuck (c : Client) (frames : List Frame) : Prop :=
  ∀ c', c.takeAll frames = some c' → c'.phase ≠ .stopped

/-- The three that follow the regrouping. -/
structure Carries (p : Parser) (s : Serializer) (c : Client) (g : Regrouped) : Prop
    extends Writing g.run s c where
  kind : g.run ≠ some .toolUse
  bodies : c.bodies = g.bodies
  tools : s.toolBlock = g.tools
  types : ∀ i, p.blockTypes i = some "tool_use" ↔ (g.tools i).isSome

/-- They go on with one frame. -/
def Relays (p : Parser) (s : Serializer) (c : Client) (frame : Frame) (g' : Regrouped) : Prop :=
  ∃ events p' s' c', (∀ fs, p.frames (frame :: fs) = events ++ p'.frames fs) ∧
    Emits s c events g'.run s' c' ∧ Carries p' s' c' g' ∧ p.SameCounts p'

namespace Carries

variable {p : Parser} {g g' : Regrouped}

section

variable (h : Carries p s c g) {index : Int} {frame : Frame}
include h

lemma ping : Relays p s c .ping g :=
  ⟨[], p, s, c, p.frames_ping, h.toWriting.emits_nil, h, rfl, rfl, rfl⟩

/-- The start of a text or thinking block is not passed on. -/
lemma startNonTool {opening : BlockOpening} (hfree : g.tools index = none)
    (hevents : startEvents {} index opening.contentBlockEv = [])
    (htype : opening.contentBlockEv.type ≠ "tool_use") :
    Relays p s c (.contentBlockStart index opening) g := by
  let types := update p.blockTypes index (some opening.contentBlockEv.type)
  refine ⟨[], { p with blockTypes := types }, s, c, fun fs => ?_, h.toWriting.emits_nil,
    { h with types := fun i => ?_ }, rfl, rfl, rfl⟩
  · rw [frames_start, hevents]
  · show update p.blockTypes index _ i = _ ↔ _
    rw [Function.update_apply]
    by_cases hi : i = index
    · rw [hi, hfree]
      simp [htype]
    · rw [if_neg hi]
      exact h.types i

lemma startTool (id name : String) (hfree : g.tools index = none) :
    Relays p s c (.contentBlockStart index (.toolUse id name))
      { run := none, bodies := g.bodies ++ [.toolUse id name ""]
        tools := update g.tools index (some g.bodies.length) } := by
  obtain ⟨s', c', hemits, htools, hbodies⟩ := h.emits_toolStart h.kind
    { index, id, name } (by simp) (by rw [h.tools]; exact hfree)
  refine ⟨_, { p with blockTypes := update p.blockTypes index (some "tool_use") }, s', c',
    fun fs => p.frames_start fs index _, hemits, ⟨hemits.writing, ?_, ?_, ?_, ?_⟩, rfl, rfl, rfl⟩
  · simp
  · rw [hbodies, h.bodies]
  · rw [htools, h.tools, h.bodies]
  · intro i
    show update p.blockTypes index _ i = _ ↔ (update g.tools index _ i).isSome
    rw [Function.update_apply, Function.update_apply]
    by_cases hi : i = index
    · rw [if_pos hi, if_pos hi]
      simp
    · rw [if_neg hi, if_neg hi]
      exact h.types i

lemma delta {delta : BlockDelta} (hstep : g.step (.contentBlockDelta index delta) = some g') :
    Relays p s c (.contentBlockDelta index delta) g' := by
  match delta with
  | .text text =>
    cases hstep
    obtain ⟨s', c', hemits, htools, hbodies⟩ := h.emits_text h.kind text
    refine ⟨_, p, s', c', fun fs => p.frames_delta fs index _, hemits,
      ⟨hemits.writing, by simp, ?_, htools.trans h.tools, h.types⟩, rfl, rfl, rfl⟩
    rw [hbodies, h.bodies]
  | .thinking text =>
    obtain ⟨hrun, hg⟩ := ite_none_left_eq_some.mp hstep
    cases hg
    obtain ⟨s', c', hemits, htools, hbodies⟩ := h.emits_thinking (none_or_thinking h.kind hrun) text
    refine ⟨_, p, s', c', fun fs => p.frames_delta fs index _, hemits,
      ⟨hemits.writing, by simp, ?_, htools.trans h.tools, h.types⟩, rfl, rfl, rfl⟩
    rw [hbodies, h.bodies]
  | .signature token =>
    obtain ⟨hrun, hg⟩ := ite_none_right_eq_some.mp hstep
    cases hg
    have hwriting := h.toWriting
    rw [hrun] at hwriting
    obtain ⟨s', c', hemits, htools, hbodies⟩ := hwriting.emits_signature token
    refine ⟨_, p, s', c', fun fs => p.frames_delta fs index _, ?_,
      ⟨?_, h.kind, ?_, htools.trans h.tools, h.types⟩, rfl, rfl, rfl⟩
    · rw [show g.run = some .thinking from hrun]
      exact hemits
    · rw [show g.run = some .thinking from hrun]
      exact hemits.writing
    · rw [hbodies, h.bodies]
  | .inputJson text =>
    obtain ⟨n, hn, rfl⟩ := map_eq_some_iff.mp hstep
    obtain ⟨c', hemits, hbodies⟩ := h.emits_toolDelta { index, argumentsDelta := text } rfl
      (by rw [h.tools]; exact hn)
    refine ⟨_, p, s, c', fun fs => p.frames_delta fs index _, hemits,
      ⟨hemits.writing, h.kind, ?_, h.tools, h.types⟩, rfl, rfl, rfl⟩
    rw [hbodies, h.bodies]

lemma stop (index : Int) : Relays p s c (.contentBlockStop index)
      { g with tools := update g.tools index none } := by
  have htypes : ∀ i, update p.blockTypes index none i = some "tool_use" ↔
      (update g.tools index none i).isSome := by
    intro i
    rw [Function.update_apply, Function.update_apply]
    by_cases hi : i = index
    · rw [if_pos hi, if_pos hi]
      simp
    · rw [if_neg hi, if_neg hi]
      exact h.types i
  match hn : g.tools index with
  | some n =>
    obtain ⟨s', c', hemits, htools, hbodies⟩ := h.toWriting.emits_toolEnd (by rw [h.tools]; exact hn)
    have hevents : p.stopEvents {} index = [.toolCallEnd index] :=
      if_pos ((h.types index).mpr (by rw [hn]; rfl))
    refine ⟨_, { p with blockTypes := update p.blockTypes index none }, s', c',
      fun fs => by rw [frames_stop, hevents], hemits,
      ⟨hemits.writing, h.kind, hbodies.trans h.bodies, ?_, htypes⟩, rfl, rfl, rfl⟩
    rw [htools, h.tools]
  | none =>
    have hevents : p.stopEvents {} index = [] := by
      have hother : p.blockTypes index ≠ some "tool_use" := by
        rw [Ne, h.types index, hn]
        simp
      simp [stopEvents, hother]
    refine ⟨[], { p with blockTypes := update p.blockTypes index none }, s, c,
      fun fs => by rw [frames_stop, hevents], h.toWriting.emits_nil,
      ⟨h.toWriting, h.kind, h.bodies, ?_, htypes⟩, rfl, rfl, rfl⟩
    rw [h.tools]
    exact (Function.update_eq_self_iff.mpr hn.symm).symm

/-- **One frame**: the regrouping goes on, and the three go on with it. -/
theorem step (hfits : g.Fits frame) (hstep : g.step frame = some g') : Relays p s c frame g' := by
  match frame with
  | .messageStart _ _ _ _ | .messageDelta _ _ | .messageStop | .error _ => exact hfits.elim
  | .ping =>
    cases hstep
    exact h.ping
  | .contentBlockStart index (.text _) | .contentBlockStart index (.thinking _ _) =>
    cases hstep
    exact h.startNonTool hfits rfl (by simp [BlockOpening.contentBlockEv])
  | .contentBlockStart index (.toolUse id name) =>
    cases hstep
    exact h.startTool id name hfits
  | .contentBlockDelta index delta => exact h.delta hstep
  | .contentBlockStop index =>
    cases hstep
    exact h.stop index

/-- The serializer gives up at a signature outside thinking, with nothing written. -/
lemma signature_refused (hout : s.inThinking = false) {token : String}
    {rest : List Engine.StreamEvent} :
    (s.serializeFrom (.signatureDelta token :: rest)).1 = [] := by
  simp [serializeFrom, serializeEvent, rejectFreeformStreamEvent,
    ensureStarted, h.started, render, hout]

/-- **One frame**: the regrouping fails, and the relayed stream is not completed. -/
theorem stuck (hfits : g.Fits frame) (hstep : g.step frame = none) (fs : List Frame) :
    Stuck c (s.serializeFrom (p.frames (frame :: fs))).1 := by
  match frame with
  | .messageStart _ _ _ _ | .messageDelta _ _ | .messageStop | .error _ => exact hfits.elim
  | .ping | .contentBlockStart _ (.text _) | .contentBlockStart _ (.thinking _ _)
  | .contentBlockStart _ (.toolUse _ _) | .contentBlockDelta _ (.text _)
  | .contentBlockStop _ => cases hstep
  | .contentBlockDelta index (.inputJson text) =>
    rw [Regrouped.step, map_eq_none_iff] at hstep
    rw [Regrouped.Fits, hstep] at hfits
    cases hfits
  | .contentBlockDelta index (.thinking text) =>
    have hrun : g.run = some .text := by
      by_contra hne
      rw [Regrouped.step, if_neg hne] at hstep
      cases hstep
    have hwriting := h.toWriting
    rw [hrun] at hwriting
    intro c' htake
    obtain ⟨frames, hframes⟩ := s.serializeFrom_cons (.thinkingDelta text) (p.frames fs)
    rw [frames_delta] at htake
    have hevents : deltaEvents index (BlockDelta.thinking text).deltaEv ++ p.frames fs =
      .thinkingDelta text :: p.frames fs := rfl
    rw [hevents, hframes, takeAll_append, hwriting.thinkingDelta_refused] at htake
    cases htake
  | .contentBlockDelta index (.signature token) =>
    have hrun : g.run ≠ some .thinking := by
      intro heq
      rw [Regrouped.step, if_pos heq] at hstep
      cases hstep
    have hout : s.inThinking = false := by
      rw [h.inThinking]
      simpa using hrun
    intro c' htake
    rw [frames_delta] at htake
    have hevents : deltaEvents index (BlockDelta.signature token).deltaEv ++ p.frames fs =
      .signatureDelta token :: p.frames fs := rfl
    rw [hevents, h.signature_refused hout] at htake
    cases htake
    rw [h.phase]
    simp

end

end Carries

end ToranaEdge.Format.Anthropic
