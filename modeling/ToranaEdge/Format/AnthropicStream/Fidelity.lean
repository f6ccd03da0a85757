import ToranaEdge.Format.AnthropicStream.Contents

/-! # Which native streams survive the relay

The relayed message has the native blocks when they are in step and start empty,
the stop reason when the serializer does not rename it, and the usage when the
`message_delta` reports it. -/

namespace ToranaEdge.Format.Anthropic

open Client Option ToranaEdge.Splits

variable {c : Client} {before : List Frame} {frame : Frame}

/-! ## The stop reason and the usage -/

/-- The reasons the serializer writes as they were read. -/
def ReasonKept (reason : String) : Prop :=
  reason ≠ "" ∧ reason ≠ "stop" ∧ reason ≠ "tool_calls" ∧ reason ≠ "length"

instance (reason : String) : Decidable (ReasonKept reason) := by
  unfold ReasonKept
  infer_instance

lemma relayedReason_iff (reason : String) :
    relayedReason reason = some reason ↔ ReasonKept reason := by
  unfold relayedReason ReasonKept
  by_cases hend : reason = "end_turn"
  · subst hend
    decide
  by_cases htool : reason = "tool_use"
  · subst htool
    decide
  by_cases hmax : reason = "max_tokens"
  · subst hmax
    decide
  have hfinish : Parser.finishReasonOf reason = reason := by
    simp [Parser.finishReasonOf, hend, htool, hmax]
  rw [hfinish]
  by_cases hempty : reason = ""
  · simp [hempty]
  unfold stopReasonOf
  split
  · next h => simp [h]
  split
  · next h => simp [h]
  split
  · next h => simp [h]
  · simp_all

variable (start total : Option Int)

/-- A cache count that was reported with the start is not taken back by a zero, and
the count in the end is not negative. -/
def CacheKept : Prop :=
  (total = some 0 → start.getD 0 ≤ 0) ∧ 0 ≤ total.getD (start.getD 0)

/-- The usage survives: the `message_delta` reports usage, with an output count, and
takes back no input or cache count by a zero; or there is none to survive. -/
def UsageKept (start : UsageCounts) : Option UsageCounts → Prop
  | none => start.inputTokens.getD 0 = 0 ∧ start.outputTokens.getD 0 = 0 ∧
      start.cacheReadInputTokens.getD 0 = 0 ∧ start.cacheCreationInputTokens.getD 0 = 0
  | some total => (total.inputTokens = some 0 → start.inputTokens.getD 0 = 0) ∧
      (total.outputTokens = none → start.outputTokens.getD 0 = 0) ∧
      CacheKept start.cacheReadInputTokens total.cacheReadInputTokens ∧
      CacheKept start.cacheCreationInputTokens total.cacheCreationInputTokens

/-- The cache count of the relayed stream, which writes positive counts only. -/
def relayedCache : Int :=
  let count := if total.getD 0 = 0 then start.getD 0 else total.getD 0
  if 0 < count then count else 0

lemma relayedCache_iff :
    relayedCache start total = total.getD (start.getD 0) ↔ CacheKept start total := by
  unfold relayedCache CacheKept
  cases total with
  | none =>
    simp only [getD_none, if_true, reduceCtorEq, false_implies, true_and]
    constructor
    · intro h
      split at h <;> omega
    · split <;> omega
  | some count =>
  simp only [getD_some, some.injEq]
  by_cases hzero : count = 0
  · constructor
    · intro h
      split at h
      · omega
      · exact ⟨fun _ => by omega, by omega⟩
    · rintro ⟨h, -⟩
      rw [if_neg (by have := h hzero; omega), hzero]
  rw [if_neg hzero]
  constructor
  · intro h
    split at h <;> omega
  · rintro ⟨-, h⟩
    rw [if_pos (by omega)]

lemma getD_ite_some (n : Int) : (if 0 < n then some n else none).getD 0 = if 0 < n then n else 0 := by
  split <;> rfl

lemma relayedCounts_some (start total : UsageCounts) : relayedCounts start (some total) =
      { inputTokens := if total.inputTokens.getD 0 ≠ 0 then total.inputTokens.getD 0
                       else start.inputTokens.getD 0
        outputTokens := total.outputTokens.getD 0
        cacheReadTokens := relayedCache start.cacheReadInputTokens total.cacheReadInputTokens
        cacheWriteTokens :=
          relayedCache start.cacheCreationInputTokens total.cacheCreationInputTokens } := by
  simp only [relayedCounts, usageWith, takeUsage, usageJSON, getD_ite_some]
  rfl

lemma relayedCounts_iff (start : UsageCounts) (total : Option UsageCounts) :
    relayedCounts start total = total.elim (takeUsage ⟨0, 0, 0, 0⟩ start)
      (takeUsage (takeUsage ⟨0, 0, 0, 0⟩ start)) ↔ UsageKept start total := by
  cases total with
  | none =>
    simp [relayedCounts, usageWith, takeUsage, UsageKept, eq_comm]
  | some total =>
  rw [relayedCounts_some]
  simp only [elim_some, takeUsage, Engine.StreamUsage.mk.injEq, relayedCache_iff]
  refine and_congr ?_ (and_congr ?_ Iff.rfl)
  · cases total.inputTokens with
    | none => simp
    | some count =>
    by_cases hzero : count = 0
    · simp [hzero]
    · simp [hzero]
  · cases total.outputTokens with
    | none => simp [eq_comm]
    | some count => simp

/-! ## Native streams -/

/-- The usage reported with the start of the message. -/
def startUsage : List Frame → UsageCounts
  | .messageStart _ _ _ usage :: _ => usage
  | _ => {}

/-- **What survives the relay.**  A text block is not preceded by a text block, nor a
thinking block by a text or thinking block; both start empty and have a delta, a
thinking block one before its signature; the stop reason is not one the
serializer renames; and the usage is reported in the `message_delta`. -/
def Relayable (before : List Frame) : Frame → Prop
  | .messageDelta (some reason) total => ReasonKept reason ∧ UsageKept (startUsage before) total
  | frame => Separate (lastBlock before) frame ∧ StartsEmpty (lastBlock before) frame

/-- Two clients have the same blocks, stop reason and usage. -/
def SameMessage (r c : Client) : Prop :=
  r.bodies = c.bodies ∧ r.stopReason = c.stopReason ∧ r.usage = c.usage

lemma relayable_content (h : IsContent frame) : Relayable before frame ↔
      Separate (lastBlock before) frame ∧ StartsEmpty (lastBlock before) frame := by
  cases h with
  | ping | start _ _ | delta _ _ | stop _ => exact Iff.rfl

lemma relayable_tail (h : IsTail frame) : Relayable before frame := by
  rcases h with rfl | rfl <;> exact ⟨trivial, trivial⟩

lemma relayable_iff {frames : List Frame} (parts : Parts frames c) : AtEach Relayable [] frames ↔
      (AtEachBlock Separate [] parts.content ∧ AtEachBlock StartsEmpty [] parts.content) ∧
        ReasonKept parts.reason ∧ UsageKept parts.usage parts.total := by
  obtain ⟨tail, id, role, model, hframes, htail⟩ := parts.events
  refine (iff_of_eq (congrArg (AtEach Relayable []) hframes)).trans ?_
  rw [atEach_cons, atEach_append, atEach_cons]
  have hfirst : Relayable [] (.messageStart id role model parts.usage) := ⟨trivial, trivial⟩
  have hcontent : AtEach Relayable ([] ++ [.messageStart id role model parts.usage])
      parts.content ↔
        AtEachBlock Separate [] parts.content ∧ AtEachBlock StartsEmpty [] parts.content :=
    (atEach_congr fun pre frame hmem =>
      relayable_content (parts.run.isContent frame hmem)).trans atEach_and
  have htail' : ∀ before, AtEach Relayable before tail := by
    intro before pre frame post htaileq
    exact relayable_tail (htail frame (by simp [htaileq]))
  exact ⟨fun h => ⟨hcontent.mp h.2.1, h.2.2.1⟩, fun h => ⟨hfirst, hcontent.mpr h.1, h.2, htail' _⟩⟩

/-- **Relaying a native stream.**  A client accumulates from the relayed stream what it
accumulates from the native one exactly when every frame is relayable. -/
theorem relay_sameMessage_iff {frames : List Frame} {c : Client}
    (h : accumulateNative frames = some c) : accumulate frames = some c ∧
      ((∃ r, accumulate (relay frames) = some r ∧ SameMessage r c) ↔
        AtEach Relayable [] frames) := by
  refine ⟨accumulate_of_native h, ?_⟩
  obtain ⟨parts⟩ := exists_parts h
  have hgroups := regrouped_iff _ parts.run parts.stopped
  have hbare : parts.content.foldl bareAfter [] = parts.last.bodies ↔
      AtEachBlock StartsEmpty [] parts.content :=
    bare_eq_iff (agrees_start _) (reads_start _) parts.run parts.stopped
  rw [relayable_iff parts, ← hbare, ← hgroups, ← relayedReason_iff, ← relayedCounts_iff]
  constructor
  · rintro ⟨r, hr, hbodies, hreason, husage⟩
    cases hsteps : parts.content.foldlM Regrouped.step {} with
    | none =>
      rw [accumulate_relay_none parts hsteps] at hr
      cases hr
    | some g =>
    obtain ⟨r', hr', hbodies', hreason', husage'⟩ := accumulate_relay parts hsteps
    cases hr.symm.trans hr'
    refine ⟨⟨g, rfl, ?_⟩, ?_, ?_⟩
    · rw [← hbodies', hbodies, parts.bodies]
    · rw [← hreason', hreason, parts.stopReason]
    · rw [← husage', husage, parts.counts]
  · rintro ⟨⟨g, hsteps, hbodies⟩, hreason, husage⟩
    obtain ⟨r, hr, hbodies', hreason', husage'⟩ := accumulate_relay parts hsteps
    refine ⟨r, hr, ?_, ?_, ?_⟩
    · rw [hbodies', hbodies, parts.bodies]
    · rw [hreason', hreason, parts.stopReason]
    · rw [husage', husage, parts.counts]

/-- A turn that thinks, signs the thought, speaks and calls a tool. -/
def nativeTurn : List Frame :=
  [.messageStart "msg_1" "assistant" "claude" { inputTokens := some 12, outputTokens := some 1 },
    .contentBlockStart 0 (.thinking "" ""), .ping,
    .contentBlockDelta 0 (.thinking "look"), .contentBlockDelta 0 (.signature "sig"),
    .contentBlockStop 0, .contentBlockStart 1 (.text ""), .contentBlockDelta 1 (.text "Reading"),
    .contentBlockStop 1, .contentBlockStart 2 (.toolUse "t1" "read"),
    .contentBlockDelta 2 (.inputJson "1"), .contentBlockStop 2,
    .messageDelta (some "tool_use") (some { outputTokens := some 9 }), .messageStop]

/-- The client at the end of that turn. -/
def nativeTurnRead : Client where
  phase := .stopped
  blocks := [{ body := .thinking "look" "sig", stopped := true },
    { body := .text "Reading", stopped := true },
    { body := .toolUse "t1" "read" "1", stopped := true }]
  stopReason := some "tool_use"
  usage := ⟨12, 9, 0, 0⟩

theorem relay_sameMessage_iff_nativeTurn : accumulateNative nativeTurn = some nativeTurnRead ∧
      (∃ r, accumulate (relay nativeTurn) = some r ∧ SameMessage r nativeTurnRead) ∧
      AtEach Relayable [] nativeTurn := by
  have hnative : accumulateNative nativeTurn = some nativeTurnRead := by decide
  have hsame : ∃ r, accumulate (relay nativeTurn) = some r ∧ SameMessage r nativeTurnRead :=
    ⟨(accumulate (relay nativeTurn)).getD {}, by decide, by decide, by decide, by decide⟩
  exact ⟨hnative, hsame, (relay_sameMessage_iff hnative).2.mp hsame⟩

/-- Two paragraphs, each in a text block of its own. -/
def twoTextBlocks : List Frame :=
  [.messageStart "msg_1" "assistant" "claude" { inputTokens := some 12, outputTokens := some 1 },
    .contentBlockStart 0 (.text ""), .contentBlockDelta 0 (.text "one"), .contentBlockStop 0,
    .contentBlockStart 1 (.text ""), .contentBlockDelta 1 (.text "two"), .contentBlockStop 1,
    .messageDelta (some "end_turn") (some { outputTokens := some 9 }), .messageStop]

/-- **Merged blocks.**  The parser drops the boundary between the two blocks, and the
serializer writes one. -/
theorem twoTextBlocks_merged :
    (accumulateNative twoTextBlocks).map bodies = some [.text "one", .text "two"] ∧
      (accumulate (relay twoTextBlocks)).map bodies = some [.text "onetwo"] := by
  decide

end ToranaEdge.Format.Anthropic
