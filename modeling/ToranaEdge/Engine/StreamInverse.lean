import ToranaEdge.Lib.Splits
import ToranaEdge.Engine.StreamEvents

/-! # The tracker inverts the encoding

An engine event crosses to the plugin as `ToPBStreamEvent` writes it, where the
stop of a tool call and the stop of any other block are one event.  The tracker
tells them apart by the starts it has seen, as long as the stream stops each
block as what it was started as. -/

namespace ToranaEdge.PBConv

open StreamDisciplineWalker BlockKindTracker List Int32 StreamEvent

/-! ## The encoding -/

/-- `ToPBStreamEvent`.  The engine's block kinds are known ones only, so the arm that
drops an unknown kind has no counterpart. -/
def toPBStreamEvent : Engine.StreamEvent → StreamEvent
  | .empty => { event := none }
  | .textDelta text => .textDelta text
  | .thinkingDelta text => .thinkingDelta text
  | .toolCallStart start =>
    .startTool (Int32.ofInt start.index)
      { id := start.id, name := start.name, signature := start.signature
        invocationKind := toPBKind start.invocationKind }
  | .messageStart m =>
    { event := some (.messageStart { role := m.role, id := m.id, model := m.model }) }
  | .blockStart index .text _ => .startText (Int32.ofInt index)
  | .blockStart index .thinking _ => .startThinking (Int32.ofInt index)
  | .blockStart index .provider providerKind =>
    { event := some (.contentBlockStart { index := Int32.ofInt index
                                          block := some (.provider { kind := providerKind }) }) }
  | .signatureDelta token => .signatureDelta token
  | .toolCallDelta delta =>
    { event := some (.toolCallDelta { index := Int32.ofInt delta.index
                                      argumentsDelta := delta.argumentsDelta
                                      inputTextDelta := delta.inputTextDelta }) }
  | .blockStop index => .stop (Int32.ofInt index)
  | .toolCallEnd index => .stop (Int32.ofInt index)
  | .finishReason reason =>
    if reason = "" then { event := none }
    else { event := some (.messageStop { finishReason := reason }) }
  | .usage u =>
    { event := some (.usage { inputTokens := Int32.ofInt u.inputTokens
                              outputTokens := Int32.ofInt u.outputTokens
                              cacheReadTokens := Int32.ofInt u.cacheReadTokens
                              cacheWriteTokens := Int32.ofInt u.cacheWriteTokens }) }
  | .error code message => { event := some (.error { code := Int32.ofInt code, message }) }

def Fits (n : Int) : Prop := -2147483648 ≤ n ∧ n ≤ 2147483647

instance (n : Int) : Decidable (Fits n) := inferInstanceAs (Decidable (_ ∧ _))

lemma Fits.toInt_ofInt {n : Int} (h : Fits n) : (ofInt n).toInt = n :=
  toInt_ofInt_of_le h.1 (by have := h.2; omega)

/-- Exactly one arm is set, numbers fit into 32 bits, and only a provider block has a
provider kind. -/
def SingleArm : Engine.StreamEvent → Prop
  | .empty => False
  | .blockStart index kind providerKind => Fits index ∧ (kind ≠ .provider → providerKind = "")
  | .blockStop index | .toolCallEnd index => Fits index
  | .toolCallStart start => Fits start.index
  | .toolCallDelta delta => Fits delta.index
  | .finishReason reason => reason ≠ ""
  | .usage u => Fits u.inputTokens ∧ Fits u.outputTokens ∧ Fits u.cacheReadTokens ∧
      Fits u.cacheWriteTokens
  | .error code _ => Fits code
  | _ => True

/-- The kind of a tool call fits into 32 bits. -/
def KindCrosses : Engine.StreamEvent → Prop
  | .toolCallStart start => Fits (kindCode start.invocationKind)
  | _ => True

/-- The index of the block an event starts, and whether it is a tool block. -/
def started : Engine.StreamEvent → Option (Int × Bool)
  | .toolCallStart start => some (start.index, true)
  | .blockStart index _ _ => some (index, false)
  | _ => none

/-- A tool call end stops no other block, and a block stop stops no tool block. -/
def ClosesOwn (before : List Engine.StreamEvent) : Engine.StreamEvent → Prop
  | .toolCallEnd index => (index, false) ∉ before.filterMap started
  | .blockStop index => (index, true) ∉ before.filterMap started
  | _ => True

instance : DecidablePred SingleArm := fun ev => by
  unfold SingleArm
  split <;> infer_instance

instance : DecidablePred KindCrosses := fun ev => by
  unfold KindCrosses
  split <;> infer_instance

instance (before : List Engine.StreamEvent) : DecidablePred (ClosesOwn before) := fun ev => by
  unfold ClosesOwn
  split <;> infer_instance

/-! ## The starts behind the open blocks -/

/-- Every block the walker has open was started as what it is. -/
structure Behind (before : List Engine.StreamEvent) (w : StreamDisciplineWalker) : Prop where
  tools : ∀ tool ∈ w.openTools, (tool.1.toInt, true) ∈ before.filterMap started
  nonTool : ∀ b, w.nonTool = some b → (b.index.toInt, false) ∈ before.filterMap started

variable {before events : List Engine.StreamEvent} {ev : Engine.StreamEvent}
  {w w' : StreamDisciplineWalker}

lemma started_concat {x : Int × Bool} (h : x ∈ before.filterMap started) :
    x ∈ (before ++ [ev]).filterMap started := by
  rw [filterMap_append]
  exact mem_append_left _ h

/-- Blocks that were open before, and perhaps fewer. -/
lemma Behind.fewer (h : Behind before w) (htools : w'.openTools ⊆ w.openTools)
    (hnonTool : ∀ b, w'.nonTool = some b → w.nonTool = some b) : Behind (before ++ [ev]) w' :=
  ⟨fun tool htool => started_concat (h.tools tool (htools htool)),
    fun b hb => started_concat (h.nonTool b (hnonTool b hb))⟩

lemma Behind.same (h : Behind before w) (hsame : w.SameBlocks w') : Behind (before ++ [ev]) w' :=
  h.fewer (by simp [hsame.2.1]) (by simp [hsame.1])

/-- A text, thinking or provider block starts. -/
lemma Behind.startNonTool {index : Int} {kind : Engine.BlockKind} {providerKind : String}
    {open' : OpenBlockKind} (hfits : Fits index) (htools : w'.openTools = [])
    (hopen : w'.nonTool = some ⟨ofInt index, open'⟩) :
    Behind (before ++ [.blockStart index kind providerKind]) w' := by
  refine ⟨by simp [htools], fun b hb => ?_⟩
  cases hopen.symm.trans hb
  rw [hfits.toInt_ofInt]
  simp [started]

/-- **One event**: the walker's blocks stay those the stream started. -/
theorem Behind.step (h : Behind before w) (harm : SingleArm ev)
    (hwalk : w.walk (toPBStreamEvent ev) = .ok w') : Behind (before ++ [ev]) w' := by
  obtain ⟨-, hspec⟩ := walk_spec hwalk
  match ev with
  | .empty => exact harm.elim
  | .messageStart _ | .signatureDelta _ => exact h.same hspec.2.2.2
  | .textDelta _ | .thinkingDelta _ | .toolCallDelta _ => exact h.same hspec.2.2.2.1
  | .usage _ | .error _ _ => exact h.same hspec.1
  | .finishReason reason =>
    rw [toPBStreamEvent, if_neg harm] at hspec
    exact h.same hspec.1
  | .blockStart index .text _ | .blockStart index .thinking _ | .blockStart index .provider _ =>
    obtain ⟨-, -, -, -, -, -, -, htools, kind, -, hopen⟩ := hspec
    exact .startNonTool harm.1 htools hopen
  | .toolCallStart start =>
    obtain ⟨-, -, -, -, -, -, hnone, htools⟩ := hspec
    refine ⟨fun tool htool => ?_, by simp [hnone]⟩
    rw [htools] at htool
    rcases mem_cons.mp htool with rfl | htool
    · rw [Fits.toInt_ofInt harm]
      simp [started]
    · exact started_concat (h.tools tool htool)
  | .blockStop index | .toolCallEnd index =>
    obtain ⟨-, -, -, -, ⟨-, hsame, htools⟩ | ⟨-, htools, hclosed, -⟩⟩ := hspec
    · exact h.fewer (by simp [htools]) (by simp [hsame])
    · exact h.fewer (by simp [htools]) (by simp [hclosed])

/-- **One event** is converted back into itself. -/
theorem Behind.engineEvent_eq (h : Behind before w) (harm : SingleArm ev) (hkind : KindCrosses ev)
    (hcloses : ClosesOwn before ev) (hwalk : w.walk (toPBStreamEvent ev) = .ok w') :
    engineEvent w (toPBStreamEvent ev).event = ev := by
  obtain ⟨-, hspec⟩ := walk_spec hwalk
  match ev with
  | .empty => exact harm.elim
  | .messageStart _ | .signatureDelta _ | .textDelta _ | .thinkingDelta _ => rfl
  | .finishReason reason =>
    rw [toPBStreamEvent, if_neg harm]
    rfl
  | .usage u =>
    obtain ⟨hin, hout, hread, hwrite⟩ := harm
    simp only [toPBStreamEvent, engineEvent, hin.toInt_ofInt, hout.toInt_ofInt, hread.toInt_ofInt,
      hwrite.toInt_ofInt]
  | .error _ _ | .toolCallDelta _ =>
    simp only [toPBStreamEvent, engineEvent, Fits.toInt_ofInt harm]
  | .toolCallStart start =>
    have hback := (fromPBKind_toPBKind_iff start.invocationKind).mpr hkind
    simp only [toPBStreamEvent, engineEvent, startTool, Fits.toInt_ofInt harm, hback]
  | .blockStart _ .text _ | .blockStart _ .thinking _ =>
    obtain ⟨hfits, hempty⟩ := harm
    cases hempty (by simp)
    simp only [toPBStreamEvent, engineEvent, startText, startThinking, hfits.toInt_ofInt]
  | .blockStart _ .provider _ => simp only [toPBStreamEvent, engineEvent, harm.1.toInt_ofInt]
  | .toolCallEnd index =>
    have hback : (ofInt index).toInt = index := Fits.toInt_ofInt harm
    obtain ⟨-, -, -, -, ⟨hopen, -⟩ | ⟨-, -, -, kind, hopen⟩⟩ := hspec
    · simp only [toPBStreamEvent, stop, engineEvent, if_pos hopen, hback]
    · -- the block that stops was started as no tool block
      have hstarted := h.nonTool _ hopen
      rw [hback] at hstarted
      exact (hcloses hstarted).elim
  | .blockStop index =>
    have hback : (ofInt index).toInt = index := Fits.toInt_ofInt harm
    by_cases hopen : (w.openTools.lookup (ofInt index)).isSome
    · obtain ⟨tool, htool, heq⟩ := AcceptedState.lookup_isSome_iff.mp hopen
      have hstarted := h.tools tool htool
      rw [heq, hback] at hstarted
      exact (hcloses hstarted).elim
    · simp only [toPBStreamEvent, stop, engineEvent, if_neg hopen, hback]

/-- **A whole stream** is converted back into itself. -/
theorem Behind.engineEvents_eq (h : Behind before w) (harm : ∀ ev ∈ events, SingleArm ev)
    (hkind : ∀ ev ∈ events, KindCrosses ev) (hcloses : Splits.AtEach ClosesOwn before events)
    (hwalk : w.walkAll (events.map toPBStreamEvent) = .ok w') :
    engineEvents w (events.map toPBStreamEvent) = events := by
  induction events generalizing before w with
  | nil => rfl
  | cons ev rest ih =>
  obtain ⟨harm₁, harm⟩ := forall_mem_cons.mp harm
  obtain ⟨hkind₁, hkind⟩ := forall_mem_cons.mp hkind
  obtain ⟨hcloses₁, hcloses⟩ := Splits.atEach_cons.mp hcloses
  obtain ⟨v, hfirst, hrest⟩ := walkAll_cons.mp hwalk
  rw [map_cons, engineEvents, hfirst, h.engineEvent_eq harm₁ hkind₁ hcloses₁ hfirst]
  exact congrArg _ (ih (h.step harm₁ hfirst) harm hkind hcloses hrest)

/-- **The tracker inverts the encoding.**  A stream of one-armed events whose images the
walker accepts comes back as it was, and no stream that the walker accepts makes
the tracker fail. -/
theorem fromPBStream_toPBStreamEvent :
    (∀ events w, (∀ ev ∈ events, SingleArm ev) → (∀ ev ∈ events, KindCrosses ev) →
      Splits.AtEach ClosesOwn [] events → walkAll {} (events.map toPBStreamEvent) = .ok w →
        fromPBStream {} (events.map toPBStreamEvent) = .ok events) ∧
      ∀ stream w, walkAll {} stream = .ok w → ∃ evs, fromPBStream {} stream = .ok evs := by
  refine ⟨fun events w harm hkind hcloses hwalk => ?_, fun stream w hwalk => ?_⟩
  · have hbehind : Behind [] {} := ⟨by simp, by simp⟩
    rw [mirrors_empty.run hwalk, hbehind.engineEvents_eq harm hkind hcloses hwalk]
  · exact ⟨_, mirrors_empty.run hwalk⟩

/-- Text, then a tool call with one fragment. -/
def answeredTurn : List Engine.StreamEvent :=
  [.blockStart 0 .text "", .textDelta "a", .blockStop 0,
    .toolCallStart { index := 1, id := "c", name := "f" },
    .toolCallDelta { index := 1, argumentsDelta := "1" }, .toolCallEnd 1, .finishReason "tool_calls"]

theorem fromPBStream_toPBStreamEvent_answeredTurn :
    fromPBStream {} (answeredTurn.map toPBStreamEvent) = .ok answeredTurn :=
  fromPBStream_toPBStreamEvent.1 answeredTurn
    { seen := [1, 0], messageStopped := true, sawText := true, pos := 7 }
    (by decide) (by decide) (by decide) (by decide)

/-- A tool call whose kind is a Go `int` that 32 bits cut to the function kind. -/
def wideKind : List Engine.StreamEvent :=
  [.toolCallStart { index := 0, id := "c", name := "f"
                    invocationKind := .other 4294967296 (by decide) }, .toolCallEnd 0]

theorem wideKind_changed : (∀ ev ∈ wideKind, SingleArm ev) ∧ Splits.AtEach ClosesOwn [] wideKind ∧
      walkAll {} (wideKind.map toPBStreamEvent) = .ok { seen := [0], pos := 2 } ∧
      finish { seen := [0], pos := 2 } = .ok () ∧ fromPBStream {} (wideKind.map toPBStreamEvent) =
        .ok [.toolCallStart { index := 0, id := "c", name := "f" }, .toolCallEnd 0] ∧
      wideKind ≠ [.toolCallStart { index := 0, id := "c", name := "f" }, .toolCallEnd 0] := by
  refine ⟨by decide, by decide, by decide, by decide, by rfl, by decide⟩

end ToranaEdge.PBConv
