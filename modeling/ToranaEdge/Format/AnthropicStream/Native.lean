import ToranaEdge.Format.AnthropicStream.Relay

/-! # Native streams

A native stream is a well-formed stream as the provider sends it: text and
thinking blocks come one at a time, tool calls may overlap each other, and one
`message_delta` reports the stop reason and the usage.  Its relayed stream is
completed exactly when its content is regrouped to the end, and then the client
has the regrouped blocks. -/

namespace ToranaEdge.Format.Anthropic

open Client Option
open Serializer (ensureStarted serializeFrom)

/-! ## Native streams -/

/-- No block starts while a text or thinking block is open, and no text or thinking
block while any is; every `message_delta` carries the stop reason. -/
def Orderly (c : Client) : Frame → Prop
  | .contentBlockStart _ (.toolUse _ _) =>
    ∀ b ∈ c.blocks, b.stopped = false → b.body.kind = .toolUse
  | .contentBlockStart _ _ => c.AllStopped
  | .messageDelta reason _ => reason ≠ none
  | _ => True

instance (c : Client) (frame : Frame) : Decidable (Orderly c frame) := by
  unfold Orderly
  split <;> infer_instance

/-- The client takes a frame of a native stream. -/
def takeNative (c : Client) (frame : Frame) : Option Client :=
  if Orderly c frame then c.take frame else none

def takeNativeAll (c : Client) (frames : List Frame) : Option Client :=
  frames.foldlM takeNative c

/-- What a native stream accumulates to. -/
def accumulateNative (frames : List Frame) : Option Client :=
  (takeNativeAll {} frames).filter fun c => c.phase = .stopped ∧ c.stopReason.isSome

variable {c c' : Client} {frame : Frame} {frames : List Frame}

lemma takeNative_eq_some :
    takeNative c frame = some c' ↔ Orderly c frame ∧ c.take frame = some c' :=
  ite_none_right_eq_some

lemma takeNativeAll_cons : takeNativeAll c (frame :: frames) = some c' ↔
      ∃ c₁, takeNative c frame = some c₁ ∧ takeNativeAll c₁ frames = some c' := bind_eq_some_iff

lemma takeAll_of_native (h : takeNativeAll c frames = some c') : c.takeAll frames = some c' := by
  induction frames generalizing c with
  | nil => exact h
  | cons frame frames ih =>
  obtain ⟨c₁, hfirst, hrest⟩ := takeNativeAll_cons.mp h
  rw [takeAll_cons, (takeNative_eq_some.mp hfirst).2]
  exact ih hrest

/-- A native stream is well formed. -/
lemma accumulate_of_native (h : accumulateNative frames = some c) : accumulate frames = some c := by
  obtain ⟨htake, hphase⟩ := filter_eq_some_iff.mp h
  rw [decide_eq_true_eq] at hphase
  exact filter_eq_some_iff.mpr ⟨takeAll_of_native htake, by simpa using hphase.1⟩

/-- A frame of the content: about a block, or a ping. -/
inductive IsContent : Frame → Prop
  | ping : IsContent .ping
  | start (index : Int) (opening : BlockOpening) : IsContent (.contentBlockStart index opening)
  | delta (index : Int) (delta : BlockDelta) : IsContent (.contentBlockDelta index delta)
  | stop (index : Int) : IsContent (.contentBlockStop index)

/-- The client takes the frames of some content. -/
inductive ContentRun : Client → List Frame → Client → Prop
  | nil (c : Client) : ContentRun c [] c
  | cons {c c₁ c' : Client} {frame : Frame} {content : List Frame} (hframe : IsContent frame)
    (hfirst : takeNative c frame = some c₁) (hrest : ContentRun c₁ content c') :
    ContentRun c (frame :: content) c'

lemma ContentRun.isContent (h : ContentRun c frames c') : ∀ frame ∈ frames, IsContent frame := by
  induction h with
  | nil => simp
  | cons hframe _ _ ih => exact List.forall_mem_cons.mpr ⟨hframe, ih⟩

/-- A frame of the content leaves the envelope. -/
lemma envelope_of_content (hframe : IsContent frame) (h : c.take frame = some c') :
    c'.phase = c.phase ∧ c'.usage = c.usage ∧ c'.stopReason = c.stopReason := by
  cases hframe with
  | ping =>
    rw [of_take_ping h]
    exact ⟨rfl, rfl, rfl⟩
  | start _ _ | delta _ _ | stop _ => exact envelope_of_take rfl h

/-- Nothing comes after `message_stop`. -/
lemma frames_nil_of_stopped (hphase : c.phase = .stopped) (h : takeNativeAll c frames = some c') :
    frames = [] ∧ c' = c := by
  cases frames with
  | nil =>
    cases h
    exact ⟨rfl, rfl⟩
  | cons frame frames =>
  obtain ⟨c₁, hfirst, -⟩ := takeNativeAll_cons.mp h
  have htake := (takeNative_eq_some.mp hfirst).2
  match frame with
  | .messageStart _ _ _ _ | .ping | .contentBlockStart _ _ | .contentBlockDelta _ _
  | .contentBlockStop _ | .messageDelta (some _) _ | .messageDelta none _ | .messageStop =>
    simp [take, hphase] at htake
  | .error _ => cases htake

/-- The frames that may follow the stop reason: the parser makes nothing of them. -/
def IsTail (frame : Frame) : Prop := frame = .ping ∨ frame = .messageStop

lemma frames_tail (h : ∀ frame ∈ frames, IsTail frame) (p : Parser) : p.frames frames = [] := by
  induction frames with
  | nil => rfl
  | cons frame frames ih =>
  obtain ⟨hframe, hmore⟩ := List.forall_mem_cons.mp h
  rcases hframe with rfl | rfl
  · exact ih hmore
  · exact ih hmore

lemma tail_of_ended (hphase : c.phase = .ended) (h : takeNativeAll c frames = some c')
    (hstopped : c'.phase = .stopped) :
    (∀ frame ∈ frames, IsTail frame) ∧ c' = { c with phase := .stopped } := by
  induction frames generalizing c with
  | nil =>
    cases h
    cases hphase.symm.trans hstopped
  | cons frame frames ih =>
  obtain ⟨c₁, hfirst, hrest⟩ := takeNativeAll_cons.mp h
  obtain ⟨horderly, htake⟩ := takeNative_eq_some.mp hfirst
  match frame with
  | .ping =>
    cases of_take_ping htake
    obtain ⟨hframes, hc'⟩ := ih hphase hrest
    exact ⟨List.forall_mem_cons.mpr ⟨.inl rfl, hframes⟩, hc'⟩
  | .messageStop =>
    obtain ⟨-, -, rfl⟩ := of_take_messageStop htake
    obtain ⟨rfl, rfl⟩ := frames_nil_of_stopped rfl hrest
    exact ⟨by simp [IsTail], rfl⟩
  | .messageDelta none _ => exact (horderly rfl).elim
  | .messageStart _ _ _ _ | .contentBlockStart _ _ | .contentBlockDelta _ _
  | .contentBlockStop _ | .messageDelta (some _) _ => simp [take, hphase] at htake
  | .error _ => cases htake

/-- The parts of a native stream, with the client before and after its content. -/
structure Parts (frames : List Frame) (c : Client) where
  usage : UsageCounts
  content : List Frame
  reason : String
  total : Option UsageCounts
  /-- The client when the content has been read. -/
  last : Client
  run : ContentRun { phase := .content, usage := takeUsage ⟨0, 0, 0, 0⟩ usage } content last
  stopped : last.AllStopped
  bodies : c.bodies = last.bodies
  stopReason : c.stopReason = some reason
  counts : c.usage = total.elim (takeUsage ⟨0, 0, 0, 0⟩ usage)
    (takeUsage (takeUsage ⟨0, 0, 0, 0⟩ usage))
  events : ∃ tail id role model, frames = .messageStart id role model usage ::
    (content ++ .messageDelta (some reason) total :: tail) ∧ ∀ frame ∈ tail, IsTail frame

/-- The content of a native stream ends at its `message_delta`. -/
lemma content_split (hphase : c.phase = .content) (hreason : c.stopReason = none)
    (h : takeNativeAll c frames = some c') (hstopped : c'.phase = .stopped)
    (hsome : c'.stopReason.isSome) :
    ∃ content last reason total tail, frames = content ++ .messageDelta (some reason) total :: tail ∧
      ContentRun c content last ∧ last.AllStopped ∧ (∀ frame ∈ tail, IsTail frame) ∧
      c' = { last with phase := .stopped, stopReason := some reason
                       usage := total.elim c.usage (takeUsage c.usage) } := by
  induction frames generalizing c with
  | nil =>
    cases h
    rw [hphase] at hstopped
    cases hstopped
  | cons frame frames ih =>
  obtain ⟨c₁, hfirst, hrest⟩ := takeNativeAll_cons.mp h
  obtain ⟨horderly, htake⟩ := takeNative_eq_some.mp hfirst
  by_cases hcontent : IsContent frame
  · obtain ⟨hphase₁, husage₁, hreason₁⟩ := envelope_of_content hcontent htake
    obtain ⟨content, last, reason, total, tail, rfl, hrun, hlast, htail, hc'⟩ :=
      ih (hphase₁.trans hphase) (hreason₁.trans hreason) hrest
    exact ⟨frame :: content, last, reason, total, tail, rfl, .cons hcontent hfirst hrun, hlast,
      htail, husage₁ ▸ hc'⟩
  match frame with
  | .ping | .contentBlockStart _ _ | .contentBlockDelta _ _ | .contentBlockStop _ =>
    exact (hcontent (by constructor)).elim
  | .messageDelta none _ => exact (horderly rfl).elim
  | .messageDelta (some reason) total =>
    obtain ⟨-, hall, rfl⟩ := of_take_messageDelta htake
    obtain ⟨htail, rfl⟩ := tail_of_ended rfl hrest hstopped
    exact ⟨[], c, reason, total, frames, rfl, .nil c, hall, htail, rfl⟩
  | .messageStop =>
    -- a stream that ends here has reported no stop reason
    obtain ⟨-, -, rfl⟩ := of_take_messageStop htake
    obtain ⟨-, rfl⟩ := frames_nil_of_stopped rfl hrest
    rw [hreason] at hsome
    cases hsome
  | .messageStart _ _ _ _ => simp [take, hphase] at htake
  | .error _ => cases htake

lemma exists_parts (h : accumulateNative frames = some c) : Nonempty (Parts frames c) := by
  obtain ⟨htake, hends⟩ := filter_eq_some_iff.mp h
  rw [decide_eq_true_eq] at hends
  cases frames with
  | nil =>
    cases htake
    cases hends.1
  | cons frame frames =>
  obtain ⟨c₁, hfirst, hrest⟩ := takeNativeAll_cons.mp htake
  have htake₁ := (takeNative_eq_some.mp hfirst).2
  match frame with
  | .messageStart id role model usage =>
    obtain ⟨-, rfl⟩ := of_take_messageStart htake₁
    obtain ⟨content, last, reason, total, tail, rfl, hrun, hlast, htail, rfl⟩ :=
      content_split rfl rfl hrest hends.1 hends.2
    exact ⟨{ usage, content, reason, total, last, run := hrun
             stopped := hlast, bodies := rfl, stopReason := rfl, counts := rfl
             events := ⟨tail, id, role, model, rfl, htail⟩ }⟩
  | .ping | .contentBlockStart _ _ | .contentBlockDelta _ _ | .contentBlockStop _
  | .messageDelta (some _) _ | .messageDelta none _ | .messageStop => simp [take] at htake₁
  | .error _ => cases htake₁

/-! ## The content is regrouped -/

/-- The tool calls the regrouping knows are the open ones of the native stream. -/
def Tracks (c : Client) (g : Regrouped) : Prop :=
  ∀ i, (g.tools i).isSome ↔ ∃ body, c.openBlock i = some body ∧ body.kind = .toolUse

namespace Tracks

variable {g g' : Regrouped}

lemma fits (h : Tracks c g) (hcontent : IsContent frame) (htake : c.take frame = some c') :
    g.Fits frame := by
  cases hcontent with
  | ping | stop _ => trivial
  | start index _ =>
    obtain ⟨hclosed, -⟩ := openBlock_start htake
    by_contra hne
    obtain ⟨body, hopen, -⟩ := (h index).mp (isSome_iff_ne_none.mpr hne)
    cases hclosed.symm.trans hopen
  | delta index delta =>
  obtain ⟨body, -, hopen, hkind, -⟩ := openBlock_delta htake
  match delta with
  | .text _ | .thinking _ | .signature _ => trivial
  | .inputJson _ => exact (h index).mpr ⟨body, hopen, hkind⟩

/-- The tool calls, when only the block at `index` changes on both sides. -/
lemma update (h : Tracks c g) (index : Int)
    (hat : (g'.tools index).isSome ↔ ∃ body, c'.openBlock index = some body ∧ body.kind = .toolUse)
    (htools : ∀ i, i ≠ index → g'.tools i = g.tools i)
    (hopen : ∀ i, i ≠ index → c'.openBlock i = c.openBlock i) : Tracks c' g' := by
  intro i
  by_cases hi : i = index
  · rw [hi]
    exact hat
  · rw [htools i hi, hopen i hi]
    exact h i

lemma step (h : Tracks c g) (hcontent : IsContent frame) (htake : c.take frame = some c')
    (hstep : g.step frame = some g') : Tracks c' g' := by
  cases hcontent with
  | ping =>
    cases hstep
    cases of_take_ping htake
    exact h
  | start index opening =>
    obtain ⟨hclosed, hopen⟩ := openBlock_start htake
    have hfree := h.fits (.start index opening) htake
    refine h.update index ?_ ?_ (fun i hi => by rw [hopen, if_neg hi])
    · rw [hopen]
      match opening with
      | .text _ | .thinking _ _ =>
        cases hstep
        simp [show g.tools index = none from hfree, BlockOpening.body, BlockBody.kind]
      | .toolUse _ _ =>
        cases hstep
        simp [BlockOpening.body, BlockBody.kind]
    · intro i hi
      match opening with
      | .text _ | .thinking _ _ =>
        cases hstep
        rfl
      | .toolUse _ _ =>
        cases hstep
        simp [hi]
  | delta index delta =>
    obtain ⟨body, body', hbody, hkind, hkind', hopen⟩ := openBlock_delta htake
    have htools : g'.tools = g.tools := Regrouped.tools_of_delta hstep
    refine h.update index ?_ (fun i _ => by rw [htools])
      (fun i hi => by rw [hopen, if_neg hi])
    rw [htools, h index, hopen, hbody]
    simp [hkind, hkind']
  | stop index =>
    obtain ⟨body, -, hopen⟩ := openBlock_stop htake
    cases hstep
    refine h.update index ?_ (fun i hi => by simp [hi])
      (fun i hi => by rw [hopen, if_neg hi])
    rw [hopen]
    simp

end Tracks

variable {p p' : Parser} {s s' : Serializer} {r r' : Client} {g g' : Regrouped}
  {run : Option BodyKind} {content : List Frame}

lemma Emits.trans {run' : Option BodyKind} {xs ys : List Engine.StreamEvent} {s'' : Serializer}
    {r'' : Client} (h : Emits s r xs run s' r') (h' : Emits s' r' ys run' s'' r'') :
    Emits s r (xs ++ ys) run' s'' r'' := by
  obtain ⟨fs, htake, hwrites⟩ := h.writes
  obtain ⟨fs', htake', hwrites'⟩ := h'.writes
  refine ⟨⟨fs ++ fs', ?_, fun rest => ?_⟩, h'.writing, h'.usage.trans h.usage,
    h'.reason.trans h.reason, h'.pending.trans h.pending⟩
  · rw [takeAll_append, htake]
    exact htake'
  · rw [List.append_assoc, hwrites, hwrites', List.append_assoc]

lemma Emits.takeAll {xs rest : List Engine.StreamEvent} (h : Emits s r xs run s' r') :
    r.takeAll (s.serializeFrom (xs ++ rest)).1 = r'.takeAll (s'.serializeFrom rest).1 := by
  obtain ⟨fs, htake, hwrites⟩ := h.writes
  rw [hwrites, takeAll_append, htake]
  rfl

/-- The content of a native stream that is regrouped to the end is relayed. -/
lemma relay_content (hrun : ContentRun c content c') (htracks : Tracks c g)
    (hcarries : Carries p s r g) (hsteps : content.foldlM Regrouped.step g = some g') :
    ∃ events p' s' r', (∀ fs, p.frames (content ++ fs) = events ++ p'.frames fs) ∧
      Emits s r events g'.run s' r' ∧ Carries p' s' r' g' ∧ p.SameCounts p' ∧ Tracks c' g' := by
  induction hrun generalizing g p s r with
  | nil =>
    cases hsteps
    exact ⟨[], p, s, r, fun _ => rfl, hcarries.toWriting.emits_nil, hcarries, ⟨rfl, rfl, rfl⟩,
      htracks⟩
  | cons hframe hfirst _ ih =>
  have htake := (takeNative_eq_some.mp hfirst).2
  obtain ⟨g₁, hstep, hsteps⟩ := bind_eq_some_iff.mp hsteps
  obtain ⟨xs, p₁, s₁, r₁, hframes, hemits, hcarries₁, hcounts⟩ :=
    hcarries.step (htracks.fits hframe htake) hstep
  obtain ⟨ys, p', s', r', hframes', hemits', hcarries', hcounts', htracks'⟩ :=
    ih (htracks.step hframe htake hstep) hcarries₁ hsteps
  refine ⟨xs ++ ys, p', s', r', fun fs => ?_, hemits.trans hemits', hcarries', ?_, htracks'⟩
  · rw [List.cons_append, hframes, hframes', List.append_assoc]
  · exact ⟨hcounts'.1.trans hcounts.1, hcounts'.2.1.trans hcounts.2.1,
      hcounts'.2.2.trans hcounts.2.2⟩

/-- The content of a native stream that is not regrouped to the end is not. -/
lemma stuck_content (hrun : ContentRun c content c') (htracks : Tracks c g)
    (hcarries : Carries p s r g) (hsteps : content.foldlM Regrouped.step g = none) (fs : List Frame) :
    Stuck r (s.serializeFrom (p.frames (content ++ fs))).1 := by
  induction hrun generalizing g p s r with
  | nil => cases hsteps
  | @cons _ _ _ frame content hframe hfirst _ ih =>
  have htake := (takeNative_eq_some.mp hfirst).2
  have hfits := htracks.fits hframe htake
  cases hstep : g.step frame with
  | none => exact hcarries.stuck hfits hstep (content ++ fs)
  | some g₁ =>
  obtain ⟨xs, p₁, s₁, r₁, hframes, hemits, hcarries₁, -⟩ := hcarries.step hfits hstep
  have hstuck := ih (htracks.step hframe htake hstep) hcarries₁
    (by rwa [List.foldlM_cons, hstep] at hsteps)
  intro r' htake'
  rw [List.cons_append, hframes, hemits.takeAll] at htake'
  exact hstuck r' htake'

/-! ## The end of the stream -/

/-- The stop reason of the relayed stream. -/
def relayedReason (reason : String) : Option String :=
  if Parser.finishReasonOf reason = "" then none
  else some (stopReasonOf (Parser.finishReasonOf reason))

/-- The usage event of a `message_delta`, after the counts of `message_start`. -/
def relayedUsage (start total : UsageEv) : Engine.StreamUsage where
  inputTokens := if total.inputTokens ≠ 0 then total.inputTokens else start.inputTokens
  outputTokens := total.outputTokens
  cacheReadTokens :=
    if total.cacheReadInputTokens = 0 then start.cacheReadInputTokens
    else total.cacheReadInputTokens
  cacheWriteTokens :=
    if total.cacheCreationInputTokens = 0 then start.cacheCreationInputTokens
    else total.cacheCreationInputTokens

/-- The usage a client has after a frame that reports `pending`. -/
def usageWith (usage : Engine.StreamUsage) (pending : Option Engine.StreamUsage) :
    Engine.StreamUsage :=
  pending.elim usage fun u => takeUsage usage (usageJSON u)

/-- The frames after the last event, when every block is stopped. -/
lemma takeAll_flush (hphase : r.phase = .content ∨ r.phase = .ended) (hstopped : r.AllStopped) :
    r.takeAll (s.flushUsage.1 ++ [.messageStop]) =
      some { r with phase := .stopped, usage := usageWith r.usage s.pendingUsage } := by
  rw [takeAll_append, Serializer.flushUsage]
  cases hpending : s.pendingUsage with
  | none =>
    show (r.take .messageStop).bind _ = _
    rw [take, if_pos ⟨hphase, hstopped⟩]
    rfl
  | some u =>
  have hdelta : r.take (.messageDelta none (some (usageJSON u))) =
      some { r with usage := takeUsage r.usage (usageJSON u) } := if_pos hphase
  show ((r.take (.messageDelta none (some (usageJSON u)))).bind _).bind _ = _
  rw [hdelta]
  show (take { r with usage := takeUsage r.usage (usageJSON u) } .messageStop).bind _ = _
  rw [take, if_pos ⟨hphase, hstopped⟩]
  rfl

/-- What a client has at the end of the relayed stream. -/
structure Completed (r : Client) (frames : List Frame) (reason : Option String)
    (usage : Engine.StreamUsage) : Prop where
  ends : ∃ r', r.takeAll frames = some r' ∧ r'.phase = .stopped ∧ r'.bodies = r.bodies ∧
    r'.stopReason = reason ∧ r'.usage = usage

section ending

variable {run : Option BodyKind} (h : Writing run s r) (hkind : run ≠ some .toolUse)
  (htools : ∀ i, s.toolBlock i = none)
include h hkind htools

/-- Both kinds of block are closed: the client's contents are as they were. -/
lemma Writing.closed : ∃ r', r.takeAll (s.closeThinking.andThen Serializer.closeText).1 = some r' ∧
      Writing none (s.closeThinking.andThen Serializer.closeText).2 r' ∧ r'.AllStopped ∧
      r'.bodies = r.bodies ∧ r'.stopReason = r.stopReason ∧ r'.usage = r.usage := by
  obtain ⟨r', htake, hwriting⟩ := h.closeBoth hkind
  have hpiece := (piece_closeThinking s r.bodies).andThen (piece_closeText _ _)
  obtain ⟨-, husage, hreason⟩ := envelope_of_takeAll hpiece.block htake
  exact ⟨r', htake, hwriting, hwriting.toRendered.allStopped (by simpa using htools),
    (bodies_of_takeAll htake).trans hpiece.bodies, hreason, husage⟩

/-- The events end without a finish reason. -/
lemma Writing.close : Completed r s.close r.stopReason (usageWith r.usage s.pendingUsage) := by
  obtain ⟨r', htake, hwriting, hstopped, hbodies, hreason, husage⟩ := h.closed hkind htools
  refine ⟨⟨{ r' with phase := .stopped, usage := usageWith r.usage s.pendingUsage }, ?_, rfl,
    hbodies, hreason, rfl⟩⟩
  have hstarted : s.ensureStarted = ([], s) := if_pos h.started
  rw [Serializer.close_eq, hstarted, List.nil_append, takeAll_append, htake, bind_some,
    takeAll_flush (.inl hwriting.phase) hstopped, husage]
  simp

/-- The events end with a finish reason. -/
lemma Writing.finishes {reason : String} (hne : reason ≠ "") :
    Completed r (s.serializeFrom [.finishReason reason]).1 (some (stopReasonOf reason))
      (usageWith r.usage s.pendingUsage) := by
  obtain ⟨r', htake, hwriting, hstopped, hbodies, -, husage⟩ := h.closed hkind htools
  refine ⟨⟨{ r' with phase := .stopped, stopReason := some (stopReasonOf reason)
                     usage := usageWith r.usage s.pendingUsage }, ?_, rfl, hbodies, rfl, rfl⟩⟩
  have hstarted : s.ensureStarted = ([], s) := if_pos h.started
  have hrender : s.ensureStarted.2.render (.finishReason reason) =
      .ok ((s.closeThinking.andThen Serializer.closeText).andThen (Serializer.finish reason)) := by
    rw [hstarted]
    exact if_neg hne
  have hevent := Serializer.serializeEvent_eq hrender rfl
  -- after the finish frame nothing is open and no usage is pending
  have hclose : (Serializer.finish reason
      (s.closeThinking.andThen Serializer.closeText).2).2.close = [.messageStop] :=
    Serializer.close_idle hwriting.started hwriting.inText hwriting.inThinking rfl
  have hdelta : r'.take (.messageDelta (some (stopReasonOf reason)) (s.pendingUsage.map usageJSON)) =
      some { r' with phase := .ended, stopReason := some (stopReasonOf reason)
                     usage := usageWith r.usage s.pendingUsage } := by
    rw [take, if_pos ⟨hwriting.phase, hstopped⟩, husage]
    cases s.pendingUsage <;> rfl
  have hframes : (s.serializeFrom [.finishReason reason]).1 =
      (s.closeThinking.andThen Serializer.closeText).1 ++
        [.messageDelta (some (stopReasonOf reason)) (s.pendingUsage.map usageJSON),
          .messageStop] := by
    rw [serializeFrom, hevent, hstarted]
    show [] ++ ((_ ++ _) ++ (Serializer.finish reason
      (s.closeThinking.andThen Serializer.closeText).2).2.close) = _
    rw [hclose]
    simp [Wrote.andThen, Serializer.finish]
  rw [hframes, takeAll_append, htake, bind_some, takeAll_cons, hdelta, bind_some,
    takeAll_cons, take, if_pos ⟨.inr rfl, hstopped⟩]
  rfl

/-- The finish reason, if there is one, and then the end. -/
lemma Writing.ends (hreason : r.stopReason = none) (reason : String) :
    Completed r (s.serializeFrom [.finishReason (Parser.finishReasonOf reason)]).1
      (relayedReason reason) (usageWith r.usage s.pendingUsage) := by
  unfold relayedReason
  by_cases hempty : Parser.finishReasonOf reason = ""
  · rw [hempty, ← hreason]
    have hevent : (s.serializeFrom [.finishReason ""]).1 = s.close := by
      simp [serializeFrom, Serializer.serializeEvent, rejectFreeformStreamEvent,
        ensureStarted, h.started, Serializer.render]
    rw [hevent]
    exact h.close hkind htools
  · rw [if_neg hempty]
    exact h.finishes hkind htools hempty

end ending

/-! ## The relayed stream -/

/-- What the native adapter writes of what it read. -/
def relay (frames : List Frame) : List Frame := (serializeStream (parseFrames frames)).1

open Serializer (IsPlain)

/-- The events of the content are plain. -/
lemma isPlain_content {rest : List Frame} (hall : ∀ frame ∈ content, IsContent frame)
    (hrest : ∀ q : Parser, ∀ event ∈ q.frames rest, IsPlain event) (p : Parser) :
    ∀ event ∈ p.frames (content ++ rest), IsPlain event := by
  induction content generalizing p with
  | nil => exact hrest p
  | cons frame content ih =>
  obtain ⟨hframe, hmore⟩ := List.forall_mem_cons.mp hall
  intro event hevent
  rw [List.cons_append] at hevent
  cases hframe with
  | ping =>
    exact ih hmore p event hevent
  | start index opening =>
    rw [Parser.frames_start, List.mem_append] at hevent
    rcases hevent with hevent | hevent
    · match opening with
      | .text _ | .thinking _ _ => cases hevent
      | .toolUse id name =>
        rw [List.mem_singleton.mp hevent]
        rfl
    · exact ih hmore _ event hevent
  | delta index delta =>
    rw [Parser.frames_delta, List.mem_append] at hevent
    rcases hevent with hevent | hevent
    · match delta with
      | .text _ | .thinking _ | .signature _ | .inputJson _ =>
        rw [List.mem_singleton.mp hevent]
        rfl
    · exact ih hmore p event hevent
  | stop index =>
    rw [Parser.frames_stop, List.mem_append] at hevent
    rcases hevent with hevent | hevent
    · unfold Parser.stopEvents at hevent
      split at hevent
      · rw [List.mem_singleton.mp hevent]
        rfl
      · simp at hevent
    · exact ih hmore _ event hevent

/-- The events of the `message_delta`: its usage and the finish reason. -/
lemma messageDeltaEvents_eq (p : Parser) (reason : String) (total : Option UsageCounts) :
    (p.messageDeltaEvents (Frame.messageDelta (some reason) total).sseEvent).1 =
      (total.toList.map fun u => .usage (relayedUsage
        { inputTokens := p.inputTokens, cacheReadInputTokens := p.cacheRead
          cacheCreationInputTokens := p.cacheWrite } u.usageEv)) ++
        [.finishReason (Parser.finishReasonOf reason)] := by
  cases total with
  | none => rfl
  | some u =>
    by_cases hinput : u.usageEv.inputTokens = 0 <;>
      simp [Parser.messageDeltaEvents, Frame.sseEvent, relayedUsage, hinput]

/-- The counts of the relayed stream. -/
def relayedCounts (start : UsageCounts) (total : Option UsageCounts) : Engine.StreamUsage :=
  usageWith ⟨0, 0, 0, 0⟩ (total.map fun u => relayedUsage start.usageEv u.usageEv)

/-- The end of a native stream, after its content was relayed. -/
lemma relay_end (hcarries : Carries p s r g) (htools : ∀ i, g.tools i = none)
    (hpending : s.pendingUsage = none) (hreason : r.stopReason = none)
    (husage : r.usage = ⟨0, 0, 0, 0⟩) {start : UsageCounts}
    (hcounts : (Parser.counting start.usageEv).SameCounts p) (reason : String)
    (total : Option UsageCounts) {tail : List Frame} (htail : ∀ q : Parser, q.frames tail = []) :
    Completed r (s.serializeFrom (p.frames (.messageDelta (some reason) total :: tail))).1
      (relayedReason reason) (relayedCounts start total) := by
  have htools' : ∀ i, s.toolBlock i = none := by
    rw [hcarries.tools]
    exact htools
  rw [Parser.frames_messageDelta, htail, messageDeltaEvents_eq, hcounts.1, hcounts.2.1, hcounts.2.2]
  cases total with
  | none =>
    have hends := hcarries.toWriting.ends hcarries.kind htools' hreason reason
    rw [hpending, husage] at hends
    exact hends
  | some u =>
  -- the usage waits for the finish frame
  let pending := relayedUsage start.usageEv u.usageEv
  have hwriting : Writing g.run { s with pendingUsage := some pending } r :=
    { hcarries.toWriting with }
  have hends := hwriting.ends hcarries.kind htools' hreason reason
  rw [husage] at hends
  have husageEvent : ∀ rest, (s.serializeFrom (.usage pending :: rest)).1 =
      (serializeFrom { s with pendingUsage := some pending } rest).1 := by
    simp [serializeFrom, Serializer.serializeEvent, rejectFreeformStreamEvent,
      ensureStarted, hcarries.started, Serializer.render, hcarries.unfinished]
  show Completed r (s.serializeFrom (.usage pending :: _)).1 _ _
  rw [husageEvent]
  exact hends

/-- The serializer and the client when the message has started. -/
lemma carries_start (usage : UsageCounts) : ∃ r, takeAll {} (ensureStarted {}).1 = some r ∧
      Carries (.counting usage.usageEv) (ensureStarted {}).2 r {} ∧ r.stopReason = none ∧
      r.usage = ⟨0, 0, 0, 0⟩ := by
  refine ⟨{ phase := .content, usage := ⟨0, 0, 0, 0⟩ }, rfl, ?_, rfl, rfl⟩
  refine ⟨⟨⟨rfl, rfl, rfl, ?_, ?_, ?_, ?_⟩, rfl, rfl, rfl⟩, ?_, rfl, rfl, ?_⟩ <;>
    simp [ensureStarted, Parser.counting]

lemma tracks_start (usage : Engine.StreamUsage) : Tracks { phase := .content, usage } {} := by
  intro i
  rw [openBlock_of_allStopped (by simp [AllStopped])]
  simp

variable (parts : Parts frames c)

/-- The frames of a relayed stream, from the start of its content. -/
lemma relay_eq : ∃ tail, (∀ q : Parser, q.frames tail = []) ∧ relay frames = (ensureStarted {}).1 ++
      ((ensureStarted {}).2.serializeFrom ((Parser.counting parts.usage.usageEv).frames
        (parts.content ++ .messageDelta (some parts.reason) parts.total :: tail))).1 := by
  obtain ⟨tail, id, role, model, hframes, htail⟩ := parts.events
  refine ⟨tail, frames_tail htail, ?_⟩
  have hparse := (congrArg parseFrames hframes).trans
    (Parser.frames_messageStart _ id role model parts.usage)
  unfold relay
  rw [hparse]
  refine Serializer.serializeFrom_started {} (isPlain_content parts.run.isContent ?_ _)
  intro q event hevent
  rw [Parser.frames_messageDelta, frames_tail htail, List.append_nil, messageDeltaEvents_eq] at hevent
  rcases List.mem_append.mp hevent with hevent | hevent
  · obtain ⟨u, -, rfl⟩ := List.mem_map.mp hevent
    rfl
  · rw [List.mem_singleton.mp hevent]
    rfl

/-- **The relayed stream** accumulates to the regrouped blocks. -/
theorem accumulate_relay (hsteps : parts.content.foldlM Regrouped.step {} = some g) :
    ∃ r, accumulate (relay frames) = some r ∧ r.bodies = g.bodies ∧
      r.stopReason = relayedReason parts.reason ∧
      r.usage = relayedCounts parts.usage parts.total := by
  obtain ⟨tail, htail, hrelay⟩ := relay_eq parts
  obtain ⟨r₀, htake₀, hcarries₀, hreason₀, husage₀⟩ := carries_start parts.usage
  obtain ⟨events, p, s, r, hframes, hemits, hcarries, hcounts, htracks⟩ :=
    relay_content parts.run (tracks_start _) hcarries₀ hsteps
  have htools : ∀ i, g.tools i = none := by
    intro i
    by_contra hne
    obtain ⟨body, hopen, -⟩ := (htracks i).mp (isSome_iff_ne_none.mpr hne)
    rw [openBlock_of_allStopped parts.stopped] at hopen
    cases hopen
  obtain ⟨r', htake', hphase', hbodies', hreason', husage'⟩ :=
    (relay_end hcarries htools hemits.pending (hemits.reason.trans hreason₀)
      (hemits.usage.trans husage₀) hcounts parts.reason parts.total htail).ends
  refine ⟨r', filter_eq_some_iff.mpr ⟨?_, by simpa using hphase'⟩,
    hbodies'.trans hcarries.bodies, hreason', husage'⟩
  rw [hrelay, takeAll_append, htake₀, bind_some, hframes, hemits.takeAll]
  exact htake'

/-- A stream whose content is not regrouped to the end is not well formed when
relayed. -/
lemma accumulate_relay_none (hsteps : parts.content.foldlM Regrouped.step {} = none) :
    accumulate (relay frames) = none := by
  obtain ⟨tail, htail, hrelay⟩ := relay_eq parts
  obtain ⟨r₀, htake₀, hcarries₀, -⟩ := carries_start parts.usage
  have hstuck := stuck_content parts.run (tracks_start _) hcarries₀ hsteps
    (.messageDelta (some parts.reason) parts.total :: tail)
  by_contra hne
  obtain ⟨r, hr⟩ := ne_none_iff_exists'.mp hne
  obtain ⟨htake, hphase⟩ := filter_eq_some_iff.mp hr
  rw [hrelay, takeAll_append, htake₀] at htake
  exact hstuck r htake (by simpa using hphase)

end ToranaEdge.Format.Anthropic
