import ToranaEdge.Format.AnthropicStream.Serialize

/-! # The client and the serializer

A client that has taken everything written so far knows the serializer's open
blocks: the one at the running index and one for each open tool call.  Each
piece of the serializer keeps it so. -/

namespace ToranaEdge.Format.Anthropic

open Client Serializer

/-! ## The client's blocks and the serializer's variables -/

/-- The blocks the client has, seen from the serializer.  `run` is the kind of the
text or thinking block at the running index, if one is open. -/
structure Rendered (run : Option BodyKind) (s : Serializer) (c : Client) : Prop where
  inText : s.inText = decide (run = some .text)
  inThinking : s.inThinking = decide (run = some .thinking)
  length : c.blocks.length = s.blockIndex + run.toList.length
  current : ∀ kind, run = some kind →
    ∃ body, c.blocks[s.blockIndex]? = some { body } ∧ body.kind = kind
  tool : ∀ i n, s.toolBlock i = some n →
    n < s.blockIndex ∧ ∃ body, c.blocks[n]? = some { body } ∧ body.kind = .toolUse
  distinct : ∀ i j n, s.toolBlock i = some n → s.toolBlock j = some n → i = j
  others : ∀ n b, c.blocks[n]? = some b → b.stopped = false →
    run ≠ none ∧ n = s.blockIndex ∨ ∃ i, s.toolBlock i = some n

variable {n : Nat}

namespace Rendered

variable {run : Option BodyKind} {s : Serializer} {c : Client}

lemma allStopped (h : Rendered none s c) (htools : ∀ i, s.toolBlock i = none) : c.AllStopped := by
  intro b hb
  obtain ⟨n, hn⟩ := List.getElem?_of_mem hb
  by_contra hopen
  rcases h.others n b hn (by simpa using hopen) with ⟨hne, -⟩ | ⟨i, hi⟩
  · exact hne rfl
  · rw [htools i] at hi
    cases hi

/-- The open block at the running index is stopped. -/
lemma stop {kind : BodyKind} (h : Rendered (some kind) s c) (hphase : c.phase = .content)
    (s' : Serializer) (htext : s'.inText = false) (hthinking : s'.inThinking = false)
    (hindex : s'.blockIndex = s.blockIndex + 1) (htool : s'.toolBlock = s.toolBlock) :
    ∃ c', c.take (.contentBlockStop s.blockIndex) = some c' ∧ c'.phase = .content ∧
      Rendered none s' c' := by
  obtain ⟨body, hbody, -⟩ := h.current kind rfl
  refine ⟨_, take_stop hphase hbody, hphase, ?_⟩
  have hlength := h.length
  constructor
  · simp [htext]
  · simp [hthinking]
  · simp [hindex, hlength]
  · simp
  · intro i n hi
    rw [htool] at hi
    obtain ⟨hlt, tool, htool, hkind⟩ := h.tool i n hi
    refine ⟨by omega, tool, ?_, hkind⟩
    rw [List.getElem?_set_ne (by omega)]
    exact htool
  · rw [htool]
    exact h.distinct
  · intro n b hb hopen
    right
    rw [htool]
    rw [List.getElem?_set] at hb
    split at hb
    · split at hb <;> cases hb
      cases hopen
    next hne =>
    rcases h.others n b hb hopen with ⟨-, heq⟩ | hex
    · exact (hne heq.symm).elim
    · exact hex

lemma getElem?_append_of_some {α : Type*} {xs ys : List α} {x : α}
    (h : xs[n]? = some x) : (xs ++ ys)[n]? = some x := by
  rw [List.getElem?_append_left (List.getElem?_eq_some_iff.mp h).1]
  exact h

/-- Of the blocks after a start, only the last is not an earlier one. -/
lemma getElem?_append_cases {α : Type*} {xs : List α} {x y : α}
    (h : (xs ++ [y])[n]? = some x) : xs[n]? = some x ∨ n = xs.length := by
  by_cases hn : n < xs.length
  · rw [List.getElem?_append_left hn] at h
    exact .inl h
  have hlt := (List.getElem?_eq_some_iff.mp h).1
  rw [List.length_append, List.length_singleton] at hlt
  exact .inr (by omega)

/-- A block starts at the running index. -/
lemma start {kind : BodyKind} (h : Rendered none s c) (hphase : c.phase = .content)
    (opening : BlockOpening) (hkind : opening.body.kind = kind) (s' : Serializer)
    (htext : s'.inText = decide (kind = .text))
    (hthinking : s'.inThinking = decide (kind = .thinking)) (hindex : s'.blockIndex = s.blockIndex)
    (htool : s'.toolBlock = s.toolBlock) :
    ∃ c', c.take (.contentBlockStart s.blockIndex opening) = some c' ∧ c'.phase = .content ∧
      Rendered (some kind) s' c' := by
  have hlength : s.blockIndex = c.blocks.length := h.length.symm
  refine ⟨_, take_start hphase opening hlength, hphase, ?_⟩
  constructor
  · simpa using htext
  · simpa using hthinking
  · simp [hindex, hlength]
  · intro k hk
    cases hk
    refine ⟨opening.body, ?_, hkind⟩
    rw [hindex, hlength]
    simp
  · intro i n hi
    rw [htool] at hi
    obtain ⟨hlt, tool, htool, hkind⟩ := h.tool i n hi
    exact ⟨hindex ▸ hlt, tool, getElem?_append_of_some htool, hkind⟩
  · rw [htool]
    exact h.distinct
  · intro n b hb hopen
    rw [htool, hindex]
    rcases getElem?_append_cases hb with hb | hn
    · rcases h.others n b hb hopen with ⟨hne, -⟩ | hex
      · exact (hne rfl).elim
      · exact .inr hex
    · exact .inl ⟨by simp, hn.trans hlength.symm⟩

/-- The block of a tool call starts at the running index. -/
lemma startTool (h : Rendered none s c) (hphase : c.phase = .content)
    (start : Engine.ToolCallStart) (hnew : s.toolBlock start.index = none) :
    ∃ c', c.takeAll (s.startTool start).1 = some c' ∧ c'.phase = .content ∧
      Rendered none (s.startTool start).2 c' := by
  have hlength : s.blockIndex = c.blocks.length := h.length.symm
  have htake : c.takeAll (s.startTool start).1 = some { c with
      blocks := c.blocks ++ [{ body := .toolUse start.id start.name "" }] } := by
    rw [Serializer.startTool, takeAll_cons, take_start hphase _ hlength]
    rfl
  refine ⟨_, htake, hphase, ?_⟩
  -- what the map holds is what it held, or the new block
  have hmap : ∀ i n, (s.startTool start).2.toolBlock i = some n →
      i = start.index ∧ n = c.blocks.length ∨ s.toolBlock i = some n := by
    intro i n hi
    by_cases heq : i = start.index
    · subst heq
      have hn : some s.blockIndex = some n := by simpa [Serializer.startTool] using hi
      cases hn
      exact .inl ⟨rfl, hlength⟩
    · exact .inr (by simpa [Serializer.startTool, heq] using hi)
  constructor
  · exact h.inText
  · exact h.inThinking
  · simp [Serializer.startTool, hlength]
  · simp
  · intro i n hi
    rcases hmap i n hi with ⟨-, rfl⟩ | hi
    · exact ⟨by simp [Serializer.startTool, hlength], .toolUse start.id start.name "", by simp, rfl⟩
    · obtain ⟨hlt, tool, htool, hkind⟩ := h.tool i n hi
      exact ⟨Nat.lt_succ_of_lt hlt, tool, getElem?_append_of_some htool, hkind⟩
  · intro i j n hi hj
    rcases hmap i n hi with ⟨hi, hn⟩ | hi <;> rcases hmap j n hj with ⟨hj, hn'⟩ | hj
    · exact hi.trans hj.symm
    · have := (h.tool j n hj).1
      omega
    · have := (h.tool i n hi).1
      omega
    · exact h.distinct i j n hi hj
  · intro n b hb hopen
    right
    rcases getElem?_append_cases hb with hb | hn
    · rcases h.others n b hb hopen with ⟨hne, -⟩ | ⟨i, hi⟩
      · exact (hne rfl).elim
      · have hne : i ≠ start.index := by
          rintro rfl
          cases hnew.symm.trans hi
        exact ⟨i, by simpa [Serializer.startTool, hne] using hi⟩
    · exact ⟨start.index, by simp [Serializer.startTool, hn, hlength]⟩

/-- An open block takes a delta of its kind. -/
lemma delta {body : BlockBody} (delta : BlockDelta) (h : Rendered run s c)
    (hphase : c.phase = .content) (hopen : c.blocks[n]? = some { body })
    (hkind : body.kind = delta.kind) :
    ∃ c', c.take (.contentBlockDelta n delta) = some c' ∧ c'.phase = .content ∧
      Rendered run s c' := by
  obtain ⟨body', hadd, hkind'⟩ := BlockBody.add_of_kind hkind
  refine ⟨_, take_delta hphase hopen hadd, hphase, ?_⟩
  have hn : n < c.blocks.length := (List.getElem?_eq_some_iff.mp hopen).1
  have hset : ∀ (m : Nat) (old : BlockBody), c.blocks[m]? = some { body := old } →
      ∃ new : BlockBody, (c.blocks.set n { body := body' })[m]? = some { body := new } ∧
        new.kind = old.kind := by
    intro m old hold
    by_cases hm : n = m
    · subst hm
      cases hopen.symm.trans hold
      exact ⟨body', by simp [hn], hkind'⟩
    · exact ⟨old, by rw [List.getElem?_set_ne hm]; exact hold, rfl⟩
  constructor
  · exact h.inText
  · exact h.inThinking
  · rw [List.length_set]
    exact h.length
  · intro kind hrun
    obtain ⟨old, hold, hk⟩ := h.current kind hrun
    obtain ⟨new, hnew, hk'⟩ := hset _ _ hold
    exact ⟨new, hnew, hk'.trans hk⟩
  · intro i m hi
    obtain ⟨hlt, old, hold, hk⟩ := h.tool i m hi
    obtain ⟨new, hnew, hk'⟩ := hset _ _ hold
    exact ⟨hlt, new, hnew, hk'.trans hk⟩
  · exact h.distinct
  · intro m b hb hstopped
    by_cases hm : n = m
    · subst hm
      exact h.others n _ hopen rfl
    · rw [List.getElem?_set_ne hm] at hb
      exact h.others m b hb hstopped

/-- The block of a tool call is stopped. -/
lemma stopTool {i : Int} (h : Rendered run s c) (hphase : c.phase = .content)
    (hi : s.toolBlock i = some n) :
    ∃ c', c.take (.contentBlockStop n) = some c' ∧ c'.phase = .content ∧
      Rendered run { s with toolBlock := Function.update s.toolBlock i none } c' := by
  obtain ⟨hlt, body, hbody, -⟩ := h.tool i n hi
  refine ⟨_, take_stop hphase hbody, hphase, ?_⟩
  have hmap : ∀ j m, Function.update s.toolBlock i none j = some m →
      j ≠ i ∧ s.toolBlock j = some m := by
    intro j m hj
    by_cases hji : j = i
    · subst hji
      simp at hj
    · exact ⟨hji, by simpa [hji] using hj⟩
  constructor
  · exact h.inText
  · exact h.inThinking
  · rw [List.length_set]
    exact h.length
  · intro kind hrun
    obtain ⟨old, hold, hk⟩ := h.current kind hrun
    exact ⟨old, by rw [List.getElem?_set_ne (Nat.ne_of_lt hlt)]; exact hold, hk⟩
  · intro j m hj
    obtain ⟨hji, hj⟩ := hmap j m hj
    obtain ⟨hlt', old, hold, hk⟩ := h.tool j m hj
    refine ⟨hlt', old, ?_, hk⟩
    have hne : n ≠ m := by
      rintro rfl
      exact hji (h.distinct j i n hj hi)
    rw [List.getElem?_set_ne hne]
    exact hold
  · intro j k m hj hk
    exact h.distinct j k m (hmap j m hj).2 (hmap k m hk).2
  · intro m b hb hopen
    by_cases hm : n = m
    · subst hm
      rw [List.getElem?_set_self (by have := h.length; omega)] at hb
      cases hb
      cases hopen
    rw [List.getElem?_set_ne hm] at hb
    rcases h.others m b hb hopen with hrun | ⟨j, hj⟩
    · exact .inl hrun
    have hji : j ≠ i := by
      rintro rfl
      rw [hi] at hj
      exact hm (Option.some.inj hj)
    exact .inr ⟨j, by simpa [hji] using hj⟩

end Rendered

/-! ## The pieces of the serializer -/

/-- The serializer is in the content of the message, and so is the client. -/
structure Writing (run : Option BodyKind) (s : Serializer) (c : Client) : Prop
    extends Rendered run s c where
  phase : c.phase = .content
  started : s.started = true
  unfinished : s.finishWritten = false

/-- The client takes what was written. -/
def Takes (c : Client) (wrote : Wrote) (run : Option BodyKind) : Prop :=
  ∃ c', c.takeAll wrote.1 = some c' ∧ Writing run wrote.2 c'

variable {run run' : Option BodyKind} {s : Serializer} {c : Client}

lemma none_or_thinking (hkind : run ≠ some .toolUse) (hrun : run ≠ some .text) :
    run = none ∨ run = some .thinking := by
  match run with
  | none => exact .inl rfl
  | some .thinking => exact .inr rfl
  | some .text => exact (hrun rfl).elim
  | some .toolUse => exact (hkind rfl).elim

lemma Takes.andThen {wrote : Wrote} {next : Serializer → Wrote} (h : Takes c wrote run)
    (hnext : ∀ c', Writing run wrote.2 c' → Takes c' (next wrote.2) run') :
    Takes c (wrote.andThen next) run' := by
  obtain ⟨c', htake, hwriting⟩ := h
  obtain ⟨c'', htake', hwriting'⟩ := hnext c' hwriting
  refine ⟨c'', ?_, hwriting'⟩
  show c.takeAll (_ ++ _) = _
  rw [takeAll_append, htake]
  exact htake'

namespace Writing

section

variable (h : Writing run s c)
include h

lemma skip : Takes c ([], s) run := ⟨c, rfl, h⟩

/-- One frame, after which the serializer is still in the content. -/
lemma takes {frame : Frame} {s' : Serializer} (hstarted : s'.started = s.started)
    (hfinish : s'.finishWritten = s.finishWritten)
    (hstep : ∃ c', c.take frame = some c' ∧ c'.phase = .content ∧ Rendered run' s' c') :
    Takes c ([frame], s') run' := by
  obtain ⟨c', htake, hphase, hrendered⟩ := hstep
  refine ⟨c', ?_, ⟨hrendered, hphase, hstarted.trans h.started, hfinish.trans h.unfinished⟩⟩
  rw [takeAll_cons, htake]
  rfl

lemma closeThinking : Takes c s.closeThinking (if run = some .thinking then none else run) := by
  by_cases hrun : run = some .thinking
  · subst hrun
    rw [Serializer.closeThinking, if_pos (by simp [h.inThinking])]
    exact h.takes rfl rfl (h.stop h.phase _ h.inText rfl rfl rfl)
  have hout : s.inThinking = false := by rw [h.inThinking]; simpa using hrun
  rw [if_neg hrun, Serializer.closeThinking, if_neg (by simp [hout])]
  exact h.skip

lemma closeText : Takes c s.closeText (if run = some .text then none else run) := by
  by_cases hrun : run = some .text
  · subst hrun
    rw [Serializer.closeText, if_pos (by simp [h.inText])]
    exact h.takes rfl rfl (h.stop h.phase _ rfl h.inThinking rfl rfl)
  have hout : s.inText = false := by rw [h.inText]; simpa using hrun
  rw [if_neg hrun, Serializer.closeText, if_neg (by simp [hout])]
  exact h.skip

/-- Both kinds are closed: nothing is left at the running index. -/
lemma closeBoth (hkind : run ≠ some .toolUse) :
    Takes c (s.closeThinking.andThen Serializer.closeText) none := by
  refine h.closeThinking.andThen fun c' h' => ?_
  have hclosed := h'.closeText
  match run with
  | none | some .text | some .thinking => exact hclosed
  | some .toolUse => exact (hkind rfl).elim

lemma openThinking (hrun : run = none ∨ run = some .thinking) :
    Takes c s.openThinking (some .thinking) := by
  rcases hrun with rfl | rfl
  · rw [openThinking, if_neg (by simp [h.inThinking])]
    exact h.takes rfl rfl (h.start h.phase (.thinking "" "") rfl _ h.inText rfl rfl rfl)
  · rw [openThinking, if_pos (by simp [h.inThinking])]
    exact h.skip

lemma openText (hrun : run = none ∨ run = some .text) : Takes c s.openText (some .text) := by
  rcases hrun with rfl | rfl
  · rw [openText, if_neg (by simp [h.inText])]
    exact h.takes rfl rfl (h.start h.phase (.text "") rfl _ rfl h.inThinking rfl rfl)
  · rw [openText, if_pos (by simp [h.inText])]
    exact h.skip

lemma toText (hkind : run ≠ some .toolUse) :
    Takes c (s.closeThinking.andThen Serializer.openText) (some .text) := by
  refine h.closeThinking.andThen fun c' h' => h'.openText ?_
  match run with
  | none => exact .inl rfl
  | some .text => exact .inr rfl
  | some .thinking => exact .inl rfl
  | some .toolUse => exact (hkind rfl).elim

lemma toThinking (hkind : run ≠ some .toolUse) :
    Takes c (s.closeText.andThen Serializer.openThinking) (some .thinking) := by
  refine h.closeText.andThen fun c' h' => h'.openThinking ?_
  match run with
  | none | some .text => exact .inl rfl
  | some .thinking => exact .inr rfl
  | some .toolUse => exact (hkind rfl).elim

/-- A fragment for an open tool call goes to its block. -/
lemma toolDelta {delta : Engine.ToolCallDelta}
    (hn : s.toolBlock delta.index = some n) : ∃ wrote, s.render (.toolCallDelta delta) = .ok wrote ∧
      wrote = ([.contentBlockDelta n (.inputJson delta.argumentsDelta)], s) ∧ Takes c wrote run := by
  obtain ⟨-, body, hbody, hkind⟩ := h.tool _ n hn
  refine ⟨_, ?_, rfl, h.takes rfl rfl
    (Rendered.delta (.inputJson delta.argumentsDelta) h.toRendered h.phase hbody hkind)⟩
  rw [render, toolIndex, hn]

lemma toolEnd {index : Int} (hn : s.toolBlock index = some n) :
    ∃ wrote, s.render (.toolCallEnd index) = .ok wrote ∧ wrote = ([.contentBlockStop n],
        { s with toolBlock := Function.update s.toolBlock index none }) ∧ Takes c wrote run := by
  refine ⟨_, ?_, rfl, h.takes rfl rfl (h.stopTool h.phase hn)⟩
  rw [render, toolIndex, hn]

end

lemma writeDelta (delta : BlockDelta) (h : Writing (some delta.kind) s c) :
    Takes c (s.writeDelta delta) (some delta.kind) := by
  obtain ⟨body, hbody, hkind⟩ := h.current _ rfl
  exact h.takes rfl rfl (Rendered.delta delta h.toRendered h.phase hbody hkind)

lemma startToolCall (h : Writing none s c) {start : Engine.ToolCallStart}
    (hnew : s.toolBlock start.index = none) : Takes c (s.startTool start) none := by
  obtain ⟨c', htake, hphase, hrendered⟩ := h.startTool h.phase start hnew
  exact ⟨c', htake, ⟨hrendered, hphase, h.started, h.unfinished⟩⟩

/-- Thinking starts a block at the index of the open text block. -/
lemma thinkingDelta_refused (h : Writing (some .text) s c) (text : String) :
    c.takeAll (s.serializeEvent (.thinkingDelta text)).1 = none := by
  have hout : s.inThinking = false := h.inThinking
  have hlength : c.blocks.length = s.blockIndex + 1 := h.length
  have hframes : (s.serializeEvent (.thinkingDelta text)).1 =
      [.contentBlockStart s.blockIndex (.thinking "" ""),
        .contentBlockDelta s.blockIndex (.thinking text)] := by
    have hrender : s.ensureStarted.2.render (.thinkingDelta text) =
        .ok (s.openThinking.andThen (Serializer.writeDelta (.thinking text))) := by
      simp [ensureStarted, h.started, render]
    rw [serializeEvent_eq hrender rfl]
    simp [ensureStarted, h.started, Serializer.openThinking, hout, Wrote.andThen,
      Serializer.writeDelta]
  rw [hframes, takeAll_cons, take, if_neg]
  · rfl
  · omega

end Writing

end ToranaEdge.Format.Anthropic
