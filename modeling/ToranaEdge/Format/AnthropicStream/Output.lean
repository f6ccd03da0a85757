import ToranaEdge.Lib.Splits
import ToranaEdge.Format.AnthropicStream.Rendered

/-! # What the serializer writes is well formed

The serializer is compared with the walker event by event.  Three things keep
it from writing a well-formed stream: an error, a message start after the
message has started, and a thinking delta while text is open, for which it
starts a second block with the index of the first. -/

namespace ToranaEdge.Format.Anthropic

open Client Serializer StreamDisciplineWalker
open PBConv.BlockKindTracker (engineEvent engineEvents fromPBStream)

/-! ## The open run of a stream -/

/-- The kind of the text or thinking block that is open, explicitly or by a bare
delta, after one more event. -/
def runAfter (run : Option BodyKind) (ev : StreamEvent) : Option BodyKind :=
  match ev.event with
  | some (.textDelta _) => some .text
  | some (.thinkingDelta _) => some .thinking
  | some (.contentBlockStart start) =>
    match start.block with
    | some (.text _) => some .text
    | some (.thinking _) => some .thinking
    | some (.toolCall _) => none
    | some (.provider _) => run
    | none => run
  | some (.contentBlockStop _) => none
  | some (.messageStop stop) => if stop.finishReason = "" then run else none
  | _ => run

/-- The kind of the text or thinking block that is open after `events`. -/
def openRun (events : List StreamEvent) : Option BodyKind := events.foldl runAfter none

/-- No free-form tool call and no provider block. -/
def Representable (ev : StreamEvent) : Prop :=
  match ev.event with
  | some (.contentBlockStart start) =>
    match start.block with
    | some (.toolCall call) => call.invocationKind ≠ .freeform
    | some (.provider _) => False
    | _ => True
  | _ => True

instance : DecidablePred Representable := fun ev => by
  unfold Representable
  split
  · split <;> infer_instance
  · infer_instance

/-- A signature arrives while thinking is open. -/
def SignatureInThinking (before : List StreamEvent) (ev : StreamEvent) : Prop :=
  match ev.event with
  | some (.signatureDelta _) => openRun before = some .thinking
  | _ => True

instance (before : List StreamEvent) (ev : StreamEvent) :
    Decidable (SignatureInThinking before ev) := by
  unfold SignatureInThinking
  split <;> infer_instance

def IsMessageStart (ev : StreamEvent) : Prop :=
  match ev.event with
  | some (.messageStart _) => True
  | _ => False

instance : DecidablePred IsMessageStart := fun ev => by
  unfold IsMessageStart
  split <;> infer_instance

/-- The serializer can go on: the event is no error, a message start has nothing
but message starts before it, and a thinking delta meets no open text. -/
def Continues (before : List StreamEvent) (ev : StreamEvent) : Prop :=
  match ev.event with
  | some (.error _) => False
  | some (.messageStart _) => ∀ e ∈ before, IsMessageStart e
  | some (.thinkingDelta _) => openRun before ≠ some .text
  | _ => True

instance (before : List StreamEvent) (ev : StreamEvent) : Decidable (Continues before ev) := by
  unfold Continues
  split <;> infer_instance

/-! ## The serializer follows the walker -/

def bodyKind : OpenBlockKind → BodyKind
  | .text => .text
  | .thinking => .thinking
  | .provider => .toolUse

/-- The serializer and the client, after the events the walker has seen. -/
structure Follows (w : StreamDisciplineWalker) (run : Option BodyKind) (s : Serializer)
    (c : Client) : Prop extends Rendered run s c where
  kind : run ≠ some .toolUse
  phase : c.phase = if s.finishWritten then .ended else if s.started then .content else .waiting
  fresh : s.started = false → run = none ∧ s.finishWritten = false
  unfinished : w.messageStopped = false → s.finishWritten = false
  finished : s.finishWritten = true → run = none
  tools : ∀ i, s.toolBlock i ≠ none ↔ ∃ tool ∈ w.openTools, tool.1.toInt = i
  explicit : ∀ b, w.nonTool = some b → run = some (bodyKind b.kind)
  alone : run ≠ none → w.openTools = []
  used : ∀ tool ∈ w.openTools, tool.1 ∈ w.seen ∧ tool.2 ≠ .freeform

lemma follows_empty : Follows {} none {} {} := by
  refine ⟨⟨rfl, rfl, rfl, ?_, ?_, ?_, ?_⟩, ?_, rfl, ?_, ?_, ?_, ?_, ?_, ?_, ?_⟩ <;> simp

variable {run run' : Option BodyKind} {s : Serializer} {c : Client}
  {w w' : StreamDisciplineWalker} {before : List StreamEvent}

namespace Follows

/-- The message starts, if it has not. -/
lemma ensureStarted (h : Follows w run s c) :
    ∃ c', c.takeAll s.ensureStarted.1 = some c' ∧ Follows w run s.ensureStarted.2 c' ∧
      s.ensureStarted.2.started = true := by
  by_cases hstarted : s.started = true
  · rw [Serializer.ensureStarted, if_pos hstarted]
    exact ⟨c, rfl, h, hstarted⟩
  have hfresh := h.fresh (by simpa using hstarted)
  have hphase : c.phase = .waiting := by
    rw [h.phase, hfresh.2]
    simp [hstarted]
  let usage := takeUsage c.usage { inputTokens := some 0, outputTokens := some 0 }
  have htake : c.takeAll s.ensureStarted.1 = some { c with phase := .content, usage } := by
    rw [Serializer.ensureStarted, if_neg hstarted]
    simp [take, hphase, usage]
  refine ⟨_, htake, ?_, ?_⟩
  · rw [Serializer.ensureStarted, if_neg hstarted]
    refine { h with phase := ?_, fresh := fun hne => ?_ }
    · simp [hfresh.2]
    · cases hne
  · rw [Serializer.ensureStarted, if_neg hstarted]

lemma writing (h : Follows w run s c) (hstarted : s.started = true)
    (hstopped : w.messageStopped = false) : Writing run s c := by
  have hunfinished := h.unfinished hstopped
  refine ⟨h.toRendered, ?_, hstarted, hunfinished⟩
  rw [h.phase, hunfinished, hstarted]
  rfl

/-- An event that opens and closes nothing. -/
lemma same (h : Follows w run s c) (hnonTool : w'.nonTool = w.nonTool)
    (htools : w'.openTools = w.openTools) (hseen : w.seen ⊆ w'.seen)
    (hstopped : w'.messageStopped = false → w.messageStopped = false) : Follows w' run s c where
  toRendered := h.toRendered
  kind := h.kind
  phase := h.phase
  fresh := h.fresh
  unfinished hne := h.unfinished (hstopped hne)
  finished := h.finished
  tools := by rw [htools]; exact h.tools
  explicit := by rw [hnonTool]; exact h.explicit
  alone := by rw [htools]; exact h.alone
  used := by
    rw [htools]
    exact fun tool htool => ⟨hseen (h.used tool htool).1, (h.used tool htool).2⟩

/-- While the content is written. -/
lemma ofWriting (h : Writing run s c) (hkind : run ≠ some .toolUse)
    (htools : ∀ i, s.toolBlock i ≠ none ↔ ∃ tool ∈ w.openTools, tool.1.toInt = i)
    (hexplicit : ∀ b, w.nonTool = some b → run = some (bodyKind b.kind))
    (halone : run ≠ none → w.openTools = [])
    (hused : ∀ tool ∈ w.openTools, tool.1 ∈ w.seen ∧ tool.2 ≠ .freeform) : Follows w run s c where
  toRendered := h.toRendered
  kind := hkind
  phase := by rw [h.phase, h.unfinished, h.started]; rfl
  fresh hne := by cases h.started.symm.trans hne
  unfinished _ := h.unfinished
  finished hne := by cases h.unfinished.symm.trans hne
  tools := htools
  explicit := hexplicit
  alone := halone
  used := hused

/-- The serializer writes the event, the client takes the frames, and both have
followed the walker. -/
def Proceeds (w' : StreamDisciplineWalker) (run' : Option BodyKind) (s : Serializer) (c : Client)
    (event : Engine.StreamEvent) : Prop :=
  ∃ wrote c', s.render event = .ok wrote ∧ c.takeAll wrote.1 = some c' ∧
    Follows w' run' wrote.2 c' ∧ wrote.2.started = true

variable {event : Engine.StreamEvent} {wrote : Wrote} {kind : OpenBlockKind}

/-- After content was written, with the same tool calls open. -/
lemma proceeds (h : Follows w run s c) (hrender : s.render event = .ok wrote)
    (htakes : Takes c wrote run') (hkind : run' ≠ some .toolUse)
    (htool : wrote.2.toolBlock = s.toolBlock) (htools : w'.openTools = w.openTools)
    (hseen : w.seen ⊆ w'.seen)
    (hexplicit : ∀ b, w'.nonTool = some b → run' = some (bodyKind b.kind))
    (halone : run' ≠ none → w.openTools = []) : Proceeds w' run' s c event := by
  obtain ⟨c', htake, hwriting⟩ := htakes
  refine ⟨wrote, c', hrender, htake, ofWriting hwriting hkind ?_ hexplicit ?_ ?_, hwriting.started⟩
  · rw [htool, htools]
    exact h.tools
  · rw [htools]
    exact halone
  · rw [htools]
    exact fun tool htool => ⟨hseen (h.used tool htool).1, (h.used tool htool).2⟩

lemma allows (h : Follows w run s c) (hallows : w.Allows kind) :
    (∀ b, w.nonTool = some b → b.kind = kind) ∧ w.openTools = [] := by
  rcases hallows with ⟨index, hopen⟩ | ⟨hnone, htools⟩
  · refine ⟨fun b hb => ?_, h.alone (by rw [h.explicit _ hopen]; simp)⟩
    cases hopen.symm.trans hb
    rfl
  refine ⟨fun b hb => ?_, htools⟩
  cases hnone.symm.trans hb

section

variable (h : Follows w run s c)
include h

variable {index : Int32}

/-- A delta into a block of a kind that the walker allows. -/
lemma blockDelta (hrender : s.render event = .ok wrote)
    (htakes : Takes c wrote (some (bodyKind kind))) (hkind : kind ≠ .provider)
    (htool : wrote.2.toolBlock = s.toolBlock) (hsame : w.SameBlocks w') (hallows : w.Allows kind) :
    Proceeds w' (some (bodyKind kind)) s c event := by
  obtain ⟨hnonTool, htools, hseen⟩ := hsame
  obtain ⟨hexplicit, hempty⟩ := h.allows hallows
  refine h.proceeds hrender htakes ?_ htool htools (by simp [hseen]) ?_ (fun _ => hempty)
  · cases kind <;> simp [bodyKind] at hkind ⊢
  · intro b hb
    rw [hexplicit b (hnonTool ▸ hb)]

/-- A block of a kind that the walker allows starts. -/
lemma startBlock (hrender : s.render event = .ok wrote)
    (htakes : Takes c wrote (some (bodyKind kind))) (hkind : kind ≠ .provider)
    (htool : wrote.2.toolBlock = s.toolBlock) (htools : w.openTools = [])
    (htools' : w'.openTools = []) (hseen : w.seen ⊆ w'.seen)
    (hopen : w'.nonTool = some ⟨index, kind⟩) : Proceeds w' (some (bodyKind kind)) s c event := by
  refine h.proceeds hrender htakes ?_ htool (htools'.trans htools.symm) hseen ?_ (fun _ => htools)
  · cases kind <;> simp [bodyKind] at hkind ⊢
  · intro b hb
    cases hopen.symm.trans hb
    rfl

variable (hwriting : Writing run s c)
include hwriting

lemma textDelta (hsame : w.SameBlocks w') (hallows : w.Allows .text) (text : String) :
    Proceeds w' (some .text) s c (.textDelta text) := by
  have htakes := (hwriting.toText h.kind).andThen fun _ h' => Writing.writeDelta (.text text) h'
  exact h.blockDelta rfl htakes (by simp) (by simp [writeDelta]) hsame hallows

lemma thinkingDelta (hrun : run ≠ some .text) (hsame : w.SameBlocks w')
    (hallows : w.Allows .thinking) (text : String) :
    Proceeds w' (some .thinking) s c (.thinkingDelta text) := by
  have htakes := (hwriting.openThinking (none_or_thinking h.kind hrun)).andThen fun _ h' =>
    Writing.writeDelta (.thinking text) h'
  exact h.blockDelta rfl htakes (by simp) (by simp [writeDelta]) hsame hallows

lemma signatureDelta (hrun : run = some .thinking) (hsame : w.SameBlocks w') (token : String) :
    Proceeds w' run s c (.signatureDelta token) := by
  subst hrun
  have hin : s.inThinking = true := h.inThinking
  obtain ⟨hnonTool, htools, hseen⟩ := hsame
  refine h.proceeds (if_pos hin) (Writing.writeDelta (.signature token) hwriting) h.kind rfl htools
    (by simp [hseen]) ?_ h.alone
  rw [hnonTool]
  exact h.explicit

lemma startToolCall (start : Engine.ToolCallStart) {kind : ToolInvocationKind}
    (hindex : start.index = index.toInt) (hkind : kind ≠ .freeform) (hnew : index ∉ w.seen)
    (hseen : w'.seen = index :: w.seen) (hnone : w'.nonTool = none)
    (htools : w'.openTools = (index, kind) :: w.openTools) :
    Proceeds w' none s c (.toolCallStart start) := by
  have hfree : s.toolBlock start.index = none := by
    by_contra hne
    obtain ⟨tool, htool, heq⟩ := (h.tools _).mp hne
    exact hnew (Int32.toInt_inj.mp (heq.trans hindex) ▸ (h.used tool htool).1)
  obtain ⟨c', htake, hwriting'⟩ := (hwriting.closeBoth h.kind).andThen fun _ h' =>
    h'.startToolCall (by simpa using hfree)
  refine ⟨_, c', rfl, htake, ofWriting hwriting' (by simp) ?_ ?_ (fun hne => (hne rfl).elim) ?_,
    hwriting'.started⟩
  -- the map gains the index, as the walker's open tools do
  · intro i
    rw [htools]
    by_cases hi : i = index.toInt
    · simp [startTool, hindex, hi]
    · simp [startTool, hindex, hi, h.tools i, Ne.symm hi]
  · intro b hb
    cases hnone.symm.trans hb
  · rw [htools, hseen]
    intro tool htool
    rcases List.mem_cons.mp htool with rfl | htool
    · exact ⟨List.mem_cons_self, hkind⟩
    · exact ⟨List.mem_cons_of_mem _ (h.used tool htool).1, (h.used tool htool).2⟩

omit hwriting in
/-- The index of an open tool call leads to its block. -/
lemma toolBlock_of_lookup (hopen : (w.openTools.lookup index).isSome) :
    ∃ n, s.toolBlock index.toInt = some n := by
  obtain ⟨tool, htool, heq⟩ := AcceptedState.lookup_isSome_iff.mp hopen
  exact Option.ne_none_iff_exists'.mp ((h.tools _).mpr ⟨tool, htool, by rw [heq]⟩)

lemma stopToolCall (hopen : (w.openTools.lookup index).isSome) (hseen : w'.seen = w.seen)
    (hnonTool : w'.nonTool = w.nonTool)
    (htools : w'.openTools = w.openTools.filter fun tool => tool.1 != index) :
    Proceeds w' none s c (.toolCallEnd index.toInt) := by
  obtain ⟨n, hn⟩ := h.toolBlock_of_lookup hopen
  -- a tool is open, so no run is
  have hrun : run = none := by
    by_contra hne
    rw [h.alone hne] at hopen
    cases hopen
  subst hrun
  obtain ⟨_, hrender, rfl, c', htake, hwriting'⟩ := hwriting.toolEnd hn
  refine ⟨_, c', hrender, htake, ofWriting hwriting' (by simp) ?_ (by rw [hnonTool]; exact h.explicit)
    (fun hne => (hne rfl).elim) ?_, hwriting'.started⟩
  · intro i
    show Function.update s.toolBlock index.toInt none i ≠ none ↔ _
    rw [htools, Function.update_apply]
    by_cases hi : i = index.toInt
    · simp [hi, Int32.toInt_inj]
    rw [if_neg hi, h.tools i]
    constructor
    · rintro ⟨tool, htool, rfl⟩
      have hne : tool.1 ≠ index := fun heq => hi (by rw [heq])
      exact ⟨tool, List.mem_filter.mpr ⟨htool, by simpa using hne⟩, rfl⟩
    · rintro ⟨tool, htool, heq⟩
      exact ⟨tool, List.mem_of_mem_filter htool, heq⟩
  · rw [htools, hseen]
    exact fun tool htool => h.used tool (List.mem_of_mem_filter htool)

lemma stopNonTool {index : Int} (hseen : w'.seen = w.seen) (hclosed : w'.nonTool = none)
    (htools : w'.openTools = w.openTools) : Proceeds w' none s c (.blockStop index) := by
  refine h.proceeds rfl (hwriting.closeBoth h.kind) (by simp) (by simp) htools (by simp [hseen]) ?_
    (fun hne => (hne rfl).elim)
  intro b hb
  rw [hclosed] at hb
  cases hb

lemma toolDelta (delta : Engine.ToolCallDelta) (hindex : delta.index = index.toInt)
    (hopen : (w.openTools.lookup index).isSome) (hsame : w.SameBlocks w') :
    Proceeds w' run s c (.toolCallDelta delta) := by
  obtain ⟨n, hn⟩ := h.toolBlock_of_lookup hopen
  rw [← hindex] at hn
  obtain ⟨_, hrender, rfl, htakes⟩ := hwriting.toolDelta hn
  obtain ⟨hnonTool, htools, hseen⟩ := hsame
  refine h.proceeds hrender htakes h.kind rfl htools (by simp [hseen]) ?_ h.alone
  rw [hnonTool]
  exact h.explicit

end

lemma toolBlock_none (h : Follows w run s c) (htools : w.openTools = []) (i : Int) :
    s.toolBlock i = none := by
  by_contra hne
  obtain ⟨tool, htool, -⟩ := (h.tools i).mp hne
  rw [htools] at htool
  cases htool

/-- The finish frame, when no block is open. -/
lemma finish (h : Writing none s c) (htools : ∀ i, s.toolBlock i = none) (reason : String) :
    ∃ c', c.takeAll (s.finish reason).1 = some c' ∧ c'.phase = .ended ∧
      Rendered none (s.finish reason).2 c' := by
  have hstopped := h.toRendered.allStopped htools
  refine ⟨_, by rw [Serializer.finish, takeAll_cons, take, if_pos ⟨h.phase, hstopped⟩]; rfl, rfl, ?_⟩
  exact ⟨h.inText, h.inThinking, h.length, h.current, h.tool, h.distinct, h.others⟩

lemma messageStop (h : Follows w run s c) (hwriting : Writing run s c) (reason : String)
    (hsame : w.SameBlocks w') (hstopped : w'.messageStopped = true) (hnone : w.nonTool = none)
    (htools : w.openTools = []) :
    Proceeds w' (if reason = "" then run else none) s c (.finishReason reason) := by
  obtain ⟨hnonTool, htools', hseen⟩ := hsame
  by_cases hreason : reason = ""
  · rw [if_pos hreason]
    refine ⟨([], s), c, if_pos hreason, rfl, h.same hnonTool htools' (by simp [hseen]) ?_,
      hwriting.started⟩
    rw [hstopped]
    exact fun hne => by cases hne
  rw [if_neg hreason]
  have hclosed := h.toolBlock_none htools
  obtain ⟨c₁, htake₁, hwriting₁⟩ := hwriting.closeBoth h.kind
  obtain ⟨c', htake', hphase, hrendered⟩ := finish hwriting₁ (by simpa using hclosed) reason
  refine ⟨_, c', if_neg hreason, ?_, ?_, hwriting₁.started⟩
  · show c.takeAll (_ ++ _) = _
    rw [takeAll_append, htake₁]
    exact htake'
  · exact
      { toRendered := hrendered
        kind := by simp
        phase := hphase
        fresh := fun hne => by cases hwriting₁.started.symm.trans hne
        unfinished := fun hne => by cases hstopped.symm.trans hne
        finished := fun _ => rfl
        tools := by
          intro i
          rw [htools', htools]
          simpa [Serializer.finish] using hclosed i
        explicit := fun b hb => by rw [hnonTool, hnone] at hb; cases hb
        alone := fun hne => (hne rfl).elim
        used := by
          rw [htools', htools]
          simp }

lemma usage (h : Follows w run s c) (hstarted : s.started = true) (hsame : w.SameBlocks w')
    (hstopped : w'.messageStopped = w.messageStopped) (usage : Engine.StreamUsage) :
    Proceeds w' run s c (.usage usage) := by
  obtain ⟨hnonTool, htools, hseen⟩ := hsame
  have hnext : ∀ {s' c'}, Follows w run s' c' → Follows w' run s' c' := fun h' =>
    h'.same hnonTool htools (by simp [hseen]) (by rw [hstopped]; exact id)
  by_cases hfinish : s.finishWritten = true
  · have hphase : c.phase = .ended := by rw [h.phase, if_pos hfinish]
    refine ⟨_, { c with usage := takeUsage c.usage (usageJSON usage) }, if_pos hfinish, ?_,
      hnext { h with }, hstarted⟩
    simp [take, hphase]
  · exact ⟨_, c, if_neg hfinish, rfl, hnext { h with }, hstarted⟩

variable {ev : StreamEvent}

/-- **One event**, once the message has started. -/
theorem render (h : Follows w (openRun before) s c) (hstarted : s.started = true)
    (hwalk : w.walk ev = .ok w') (hrep : Representable ev)
    (hsignature : SignatureInThinking before ev) (hcontinues : Continues before ev)
    (hmessage : ¬ IsMessageStart ev) :
    Proceeds w' (runAfter (openRun before) ev) s c (engineEvent w ev.event) := by
  obtain ⟨-, hspec⟩ := walk_spec hwalk
  obtain ⟨arm, unknown⟩ := ev
  match arm with
  | some (.error err) => exact hcontinues.elim
  | some (.messageStart _) => exact (hmessage trivial).elim
  | some (.usage u) => exact h.usage hstarted hspec.1 hspec.2.2 _
  | some (.messageStop stop) =>
    obtain ⟨hsame, hstopped, -, hstopped', hnone, htools⟩ := hspec
    exact h.messageStop (h.writing hstarted hstopped) _ hsame hstopped' hnone htools
  | none =>
    obtain ⟨hstopped, -, hstopped', hsame⟩ := hspec
    exact ⟨([], s), c, rfl, rfl,
      h.same hsame.1 hsame.2.1 (by simp [hsame.2.2]) (fun _ => hstopped), hstarted⟩
  | some (.textDelta text) =>
    obtain ⟨hstopped, -, -, hsame, hallows⟩ := hspec
    exact h.textDelta (h.writing hstarted hstopped) hsame hallows text
  | some (.thinkingDelta text) =>
    obtain ⟨hstopped, -, -, hsame, hallows⟩ := hspec
    exact h.thinkingDelta (h.writing hstarted hstopped) hcontinues hsame hallows text
  | some (.signatureDelta token) =>
    obtain ⟨hstopped, -, -, hsame⟩ := hspec
    exact h.signatureDelta (h.writing hstarted hstopped) hsignature hsame token
  | some (.toolCallDelta delta) =>
    obtain ⟨hstopped, -, -, hsame, kind, hopen, -⟩ := hspec
    exact h.toolDelta (h.writing hstarted hstopped) _ rfl (by rw [hopen]; rfl) hsame
  | some (.contentBlockStop stop) =>
    obtain ⟨hstopped, -, -, hseen, hstop⟩ := hspec
    have hwriting := h.writing hstarted hstopped
    rcases hstop with ⟨hopen, hnonTool, htools⟩ | ⟨hopen, htools, hclosed, -⟩
    · have hevent : engineEvent w (some (.contentBlockStop stop)) =
          .toolCallEnd stop.index.toInt := if_pos hopen
      rw [hevent]
      exact h.stopToolCall hwriting hopen hseen hnonTool htools
    have hevent : engineEvent w (some (.contentBlockStop stop)) =
        .blockStop stop.index.toInt := if_neg (by simp only [hopen]; simp)
    rw [hevent]
    exact h.stopNonTool hwriting hseen hclosed htools
  | some (.contentBlockStart start) =>
    obtain ⟨hstopped, -, hstopped', hnew, hseen, hblock⟩ := hspec
    have hwriting := h.writing hstarted hstopped
    have hgrows : w.seen ⊆ w'.seen := by
      rw [hseen]
      exact List.subset_cons_self _ _
    obtain ⟨index, block, unknown⟩ := start
    match block with
    | none =>
      exact ⟨([], s), c, rfl, rfl, h.same hblock.1 hblock.2 hgrows (fun _ => hstopped), hstarted⟩
    | some (.text _) =>
      obtain ⟨-, htools, htools', kind, hkind, hopen⟩ := hblock
      cases hkind
      exact h.startBlock rfl (hwriting.toText h.kind) (by simp) (by simp) htools htools' hgrows
        hopen
    | some (.thinking _) =>
      obtain ⟨-, htools, htools', kind, hkind, hopen⟩ := hblock
      cases hkind
      exact h.startBlock rfl (hwriting.toThinking h.kind) (by simp) (by simp) htools htools' hgrows
        hopen
    | some (.provider _) => exact hrep.elim
    | some (.toolCall call) =>
      obtain ⟨-, hnone, htools⟩ := hblock
      exact h.startToolCall hwriting _ rfl hrep hnew hseen hnone htools

/-- The events of a representable stream are not free-form. -/
lemma isPlain (h : Follows w run s c) (hwalk : w.walk ev = .ok w') (hrep : Representable ev)
    (hcontinues : Continues before ev) (hmessage : ¬ IsMessageStart ev) :
    IsPlain (engineEvent w ev.event) := by
  obtain ⟨-, hspec⟩ := walk_spec hwalk
  obtain ⟨arm, unknown⟩ := ev
  match arm with
  | some (.error _) => exact hcontinues.elim
  | some (.messageStart _) => exact (hmessage trivial).elim
  | none | some (.usage _) | some (.messageStop _) | some (.textDelta _) | some (.thinkingDelta _)
  | some (.signatureDelta _) => rfl
  | some (.contentBlockStop stop) =>
    simp only [engineEvent]
    split <;> rfl
  | some (.contentBlockStart ⟨index, block, _⟩) =>
    match block with
    | none | some (.text _) | some (.thinking _) | some (.provider _) => rfl
    | some (.toolCall call) =>
      have hkind : PBConv.fromPBKind call.invocationKind ≠ .freeform := fun heq =>
        hrep (PBConv.BlockKindTracker.fromPBKind_eq_freeform.mp heq)
      exact if_neg hkind
  | some (.toolCallDelta delta) =>
    obtain ⟨-, -, -, -, kind, hopen, hfamily⟩ := hspec
    have hmem : (delta.index, kind) ∈ w.openTools := by
      obtain ⟨pre, post, hsplit, -⟩ := List.lookup_eq_some_iff.mp hopen
      rw [hsplit]
      simp
    -- the open call is not free-form, so its fragment carries no input text
    refine if_neg ?_
    intro hsome
    match kind, (h.used _ hmem).2 with
    | .function, _ => simp [validateStreamToolDeltaFamily, hsome] at hfamily
    | .freeform, hkind => exact hkind rfl
    | .unrecognized _ _, _ => cases hfamily

/-- A message start only names the message. -/
lemma messageStart (h : Follows w run s c) (hstarted : s.started = false)
    (start : Engine.StreamMessageStart) (hsame : w.SameBlocks w')
    (hstopped : w.messageStopped = false) :
    ∃ s', s.serializeEvent (.messageStart start) = ([], .ok s') ∧ Follows w' run s' c ∧
      s'.started = false := by
  obtain ⟨hnonTool, htools, hseen⟩ := hsame
  refine ⟨_, if_neg (by simp [hstarted]), ?_, hstarted⟩
  exact Follows.same { h with } hnonTool htools (by simp [hseen]) (fun _ => hstopped)

/-- **One event**: what the serializer writes is taken, if it can go on. -/
theorem step (h : Follows w (openRun before) s c)
    (hbefore : s.started = false ↔ ∀ e ∈ before, IsMessageStart e)
    (hwalk : w.walk ev = .ok w') (hrep : Representable ev)
    (hsignature : SignatureInThinking before ev) (hcontinues : Continues before ev) :
    ∃ frames s' c', s.serializeEvent (engineEvent w ev.event) =
        (frames, .ok s') ∧ c.takeAll frames = some c' ∧
      Follows w' (openRun (before ++ [ev])) s' c' ∧
      (s'.started = false ↔ ∀ e ∈ before ++ [ev], IsMessageStart e) := by
  have hrun : openRun (before ++ [ev]) = runAfter (openRun before) ev := by
    rw [openRun, List.foldl_append]
    rfl
  rw [hrun]
  by_cases hmessage : IsMessageStart ev
  · obtain ⟨arm, unknown⟩ := ev
    match arm, hmessage with
    | some (.messageStart start), _ =>
      obtain ⟨-, hstopped, -, -, hsame⟩ := walk_spec hwalk
      obtain ⟨s', hs', hfollows, hstarted⟩ :=
        h.messageStart (hbefore.mpr hcontinues) _ hsame hstopped
      refine ⟨[], s', c, hs', rfl, hfollows, ?_⟩
      refine ⟨fun _ e he => ?_, fun _ => hstarted⟩
      rcases List.mem_append.mp he with he | he
      · exact hcontinues e he
      · rw [List.mem_singleton.mp he]
        trivial
  · obtain ⟨c₁, htake₁, hfollows₁, hstarted₁⟩ := h.ensureStarted
    obtain ⟨wrote, c', hrender, htake, hfollows, hstarted⟩ :=
      hfollows₁.render hstarted₁ hwalk hrep hsignature hcontinues hmessage
    refine ⟨_, wrote.2, c', serializeEvent_eq hrender (h.isPlain hwalk hrep hcontinues hmessage),
      ?_, hfollows, ?_⟩
    · rw [takeAll_append, htake₁]
      exact htake
    · simp [hstarted, hmessage]

/-- An event the serializer cannot go on with ends the stream badly: its frames are
refused, or the serializer stops without the end of the message. -/
lemma step_fails (h : Follows w (openRun before) s c)
    (hbefore : s.started = false ↔ ∀ e ∈ before, IsMessageStart e)
    (hwalk : w.walk ev = .ok w') (hcontinues : ¬ Continues before ev) :
    (∃ msg, s.serializeEvent (engineEvent w ev.event) = ([], .error msg)) ∨
      c.takeAll (s.serializeEvent (engineEvent w ev.event)).1 = none := by
  obtain ⟨-, hspec⟩ := walk_spec hwalk
  obtain ⟨arm, unknown⟩ := ev
  match arm with
  | some (.error err) => exact .inr rfl
  | some (.messageStart _) =>
    have hstarted : s.started = true := by
      by_contra hne
      exact hcontinues (hbefore.mp (by simpa using hne))
    exact .inl ⟨_, if_pos hstarted⟩
  | some (.thinkingDelta text) =>
    have hrun : openRun before = some .text := by
      by_contra hne
      exact hcontinues hne
    have hstarted : s.started = true := by
      by_contra hne
      cases hrun.symm.trans (h.fresh (by simpa using hne)).1
    have hwriting := h.writing hstarted hspec.1
    rw [hrun] at hwriting
    exact .inr (hwriting.thinkingDelta_refused text)
  | none | some (.usage _) | some (.messageStop _) | some (.textDelta _) | some (.signatureDelta _)
  | some (.toolCallDelta _) | some (.contentBlockStop _) | some (.contentBlockStart _) =>
    exact (hcontinues trivial).elim

/-- The usage that is still pending goes out on its own frame. -/
lemma takeAll_flushUsage (s : Serializer) (hphase : c.phase = .content ∨ c.phase = .ended) :
    ∃ c', c.takeAll s.flushUsage.1 = some c' ∧ c'.blocks = c.blocks ∧ c'.phase = c.phase := by
  unfold flushUsage
  match s.pendingUsage with
  | none => exact ⟨c, rfl, rfl, rfl⟩
  | some usage =>
    refine ⟨{ c with usage := takeUsage c.usage (usageJSON usage) }, ?_, rfl, rfl⟩
    show (c.take _).bind _ = _
    rw [take, if_pos hphase]
    rfl

/-- The frames after the last event complete the message. -/
lemma close (h : Follows w run s c) (htools : w.openTools = []) :
    ∃ c', c.takeAll s.close = some c' ∧ c'.phase = .stopped := by
  obtain ⟨c₁, htake₁, h₁, hstarted⟩ := h.ensureStarted
  -- no block is left open
  have hclosed : ∃ c₂, c₁.takeAll (s.ensureStarted.2.closeThinking.andThen
      closeText).1 = some c₂ ∧ c₂.AllStopped ∧ (c₂.phase = .content ∨ c₂.phase = .ended) := by
    have hnone := h₁.toolBlock_none htools
    by_cases hfinish : s.ensureStarted.2.finishWritten = true
    · have hrun := h₁.finished hfinish
      subst hrun
      have hthinking : s.ensureStarted.2.inThinking = false := h₁.inThinking
      have htext : s.ensureStarted.2.inText = false := h₁.inText
      refine ⟨c₁, ?_, h₁.allStopped hnone, .inr (by rw [h₁.phase, if_pos hfinish])⟩
      simp [Wrote.andThen, closeThinking, closeText, hthinking, htext]
    have hwriting : Writing run s.ensureStarted.2 c₁ :=
      ⟨h₁.toRendered, by rw [h₁.phase, if_neg hfinish, if_pos hstarted], hstarted,
        by simpa using hfinish⟩
    obtain ⟨c₂, htake₂, hwriting₂⟩ := hwriting.closeBoth h₁.kind
    exact ⟨c₂, htake₂, hwriting₂.toRendered.allStopped (by simpa using hnone),
      Or.inl hwriting₂.phase⟩
  obtain ⟨c₂, htake₂, hstopped, hphase⟩ := hclosed
  obtain ⟨c₃, htake₃, hblocks, hphase₃⟩ := takeAll_flushUsage
    (s.ensureStarted.2.closeThinking.andThen closeText).2 hphase
  refine ⟨{ c₃ with phase := .stopped }, ?_, rfl⟩
  have hlast : c₃.take .messageStop = some { c₃ with phase := .stopped } := by
    rw [take, if_pos]
    rw [hphase₃]
    refine ⟨hphase, ?_⟩
    show ∀ b ∈ c₃.blocks, _
    rw [hblocks]
    exact hstopped
  simp only [close_eq, takeAll_append, htake₁, htake₂, htake₃, Option.bind_some,
    takeAll_cons, hlast, takeAll_nil]

end Follows

lemma sawError_of_continues {ev : StreamEvent}
    (hwalk : w.walk ev = .ok w') (hcontinues : Continues before ev) : w'.sawError = false := by
  obtain ⟨-, hspec⟩ := walk_spec hwalk
  obtain ⟨arm, unknown⟩ := ev
  match arm with
  | some (.error _) => exact hcontinues.elim
  | some (.usage _) => exact hspec.2.1
  | some (.messageStop _) => exact hspec.2.2.1
  | none | some (.messageStart _) | some (.textDelta _) | some (.thinkingDelta _)
  | some (.signatureDelta _) | some (.toolCallDelta _) | some (.contentBlockStop _)
  | some (.contentBlockStart _) => exact hspec.2.1

/-! ## Whole streams -/

/-- **A whole stream**: what the client makes of the frames of the remaining events. -/
theorem follows_run {before events : List StreamEvent}
    {s : Serializer} {c : Client} (h : Follows w (openRun before) s c)
    (hbefore : s.started = false ↔ ∀ e ∈ before, IsMessageStart e) (hclean : w.sawError = false)
    (hwalk : w.walkAll events = .ok w') (hfinish : w'.finish = .ok ())
    (hrep : ∀ ev ∈ events, Representable ev)
    (hsignature : Splits.AtEach SignatureInThinking before events) :
    (∃ c', c.takeAll (s.serializeFrom (engineEvents w events)).1 = some c' ∧
        c'.phase = .stopped) ↔ Splits.AtEach Continues before events := by
  induction events generalizing w before s c with
  | nil =>
    cases hwalk
    have htools : w'.openTools = [] := by
      by_contra hne
      simp [StreamDisciplineWalker.finish, hclean, hne] at hfinish
    exact iff_of_true (h.close htools) Splits.atEach_nil
  | cons ev rest ih =>
  rw [Splits.atEach_cons] at hsignature ⊢
  rw [List.forall_mem_cons] at hrep
  obtain ⟨v, hstep, hwalk⟩ := walkAll_cons.mp hwalk
  simp only [engineEvents, hstep]
  by_cases hcontinues : Continues before ev
  · obtain ⟨frames, s', c', hevent, htake, hfollows, hbefore'⟩ :=
      h.step hbefore hstep hrep.1 hsignature.1 hcontinues
    have hrest := ih hfollows hbefore' (sawError_of_continues hstep hcontinues) hwalk
      hrep.2 hsignature.2
    simp only [serializeFrom, hevent, takeAll_append, htake, hcontinues, true_and]
    exact hrest
  refine iff_of_false ?_ (fun hboth => hcontinues hboth.1)
  rintro ⟨c', htake, hphase⟩
  rcases h.step_fails hbefore hstep hcontinues with ⟨msg, hevent⟩ | hrefused
  · -- the serializer gave up, and the client still waits for the end
    rw [serializeFrom, hevent] at htake
    cases htake
    rw [h.phase] at hphase
    split at hphase
    · cases hphase
    · split at hphase <;> cases hphase
  obtain ⟨frames, hframes⟩ := s.serializeFrom_cons
    (engineEvent w ev.event)
    (engineEvents v rest)
  rw [hframes, takeAll_append, hrefused] at htake
  cases htake

/-- **Anthropic stream output.**  A stream the walker accepts to completion is
converted, and what the serializer writes for it is well formed exactly when no
event is an error, message starts come before everything else, and no thinking
delta arrives while text is open. -/
theorem serializeStream_wellFormed_iff {events : List StreamEvent} {w : StreamDisciplineWalker}
    (hwalk : walkAll {} events = .ok w) (hfinish : w.finish = .ok ())
    (hrep : ∀ ev ∈ events, Representable ev)
    (hsignature : Splits.AtEach SignatureInThinking [] events) :
    ∃ evs, fromPBStream {} events = .ok evs ∧
      (WellFormed (serializeStream evs).1 ↔ Splits.AtEach Continues [] events) := by
  refine ⟨_, PBConv.BlockKindTracker.mirrors_empty.run hwalk, ?_⟩
  rw [← follows_run follows_empty (by simp) rfl hwalk hfinish hrep hsignature]
  unfold WellFormed accumulate serializeStream
  simp [Option.any_eq_true]

/-- Bare thinking with its signature, bare text, and a tool call. -/
def mixedTurn : List StreamEvent :=
  [.thinkingDelta "why", .signatureDelta "s1", .textDelta "because",
    .startTool 0 { id := "toolu_1", name := "search" }, .toolDelta 0 "\x7b\x7d", .stop 0,
    { event := some (.messageStop { finishReason := "tool_calls" }) }]

theorem serializeStream_wellFormed_iff_mixedTurn : ∃ evs, fromPBStream {} mixedTurn = .ok evs ∧
      (WellFormed (serializeStream evs).1 ↔ Splits.AtEach Continues [] mixedTurn) :=
  @serializeStream_wellFormed_iff mixedTurn
    { seen := [0], messageStopped := true, sawText := true, pos := 7 }
    (by decide) (by decide) (by decide) (by decide)

/-- Bare text, then bare thinking: the second block starts with the index of the
first. -/
theorem textThenThinking_malformed : walkAll {} [.textDelta "a", .thinkingDelta "b"] =
        .ok { spanOpen := true, sawText := true, pos := 2 } ∧
      finish { spanOpen := true, sawText := true, pos := 2 } = .ok () ∧
      fromPBStream {} [.textDelta "a", .thinkingDelta "b"] =
        .ok [.textDelta "a", .thinkingDelta "b"] ∧
      (∀ ev ∈ [StreamEvent.textDelta "a", .thinkingDelta "b"], Representable ev) ∧
      Splits.AtEach SignatureInThinking [] [.textDelta "a", .thinkingDelta "b"] ∧
      ¬ WellFormed (serializeStream [.textDelta "a", .thinkingDelta "b"]).1 := by
  refine ⟨by decide, by decide, by rfl, by decide, by decide, by decide⟩

end ToranaEdge.Format.Anthropic
