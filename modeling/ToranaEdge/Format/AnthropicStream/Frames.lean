import ToranaEdge.Engine.Types

/-! # Anthropic stream frames

The frames of an Anthropic event stream, and the client that reads them.  A
client builds the message block by block: it starts the block of the next
index, applies each delta to the open block it names, and takes the stop
reason when every block is stopped.  A frame that does not fit is refused, and
a stream is well formed when no frame is refused and `message_stop` ends it. -/

namespace ToranaEdge.Format.Anthropic

open List Option

/-! ## Frames -/

/-- A `usage` object; a count may be absent. -/
structure UsageCounts where
  inputTokens : Option Int := none
  outputTokens : Option Int := none
  cacheReadInputTokens : Option Int := none
  cacheCreationInputTokens : Option Int := none
  deriving DecidableEq, Repr

/-- The `content_block` of a `content_block_start`.  The input of a tool starts as
the empty object. -/
inductive BlockOpening where
  | text (text : String)
  | thinking (thinking signature : String)
  | toolUse (id name : String)
  deriving DecidableEq, Repr

/-- The `delta` of a `content_block_delta`. -/
inductive BlockDelta where
  | text (text : String)
  | thinking (thinking : String)
  | signature (signature : String)
  | inputJson (partialJson : String)
  deriving DecidableEq, Repr

/-- One frame: its `event:` line and its `data:` line say the same type. -/
inductive Frame where
  | messageStart (id role model : String) (usage : UsageCounts)
  | ping
  | contentBlockStart (index : Int) (block : BlockOpening)
  | contentBlockDelta (index : Int) (delta : BlockDelta)
  | contentBlockStop (index : Int)
  | messageDelta (stopReason : Option String) (usage : Option UsageCounts)
  | messageStop
  | error (message : String)
  deriving DecidableEq, Repr

/-- The frame is about a block. -/
def Frame.isBlock : Frame → Bool
  | .contentBlockStart _ _ | .contentBlockDelta _ _ | .contentBlockStop _ => true
  | _ => false

/-! ## The client -/

/-- The content of a block so far.  A signature replaces the one before it, text,
thinking and the input of a tool grow. -/
inductive BlockBody where
  | text (text : String)
  | thinking (thinking signature : String)
  | toolUse (id name input : String)
  deriving DecidableEq, Repr

def BlockOpening.body : BlockOpening → BlockBody
  | .text initial => .text initial
  | .thinking initial signature => .thinking initial signature
  | .toolUse id name => .toolUse id name ""

/-- A delta fits the blocks of its own kind; a signature is of the kind of thinking. -/
def BlockBody.add : BlockBody → BlockDelta → Option BlockBody
  | .text soFar, .text more => some (.text (soFar ++ more))
  | .thinking soFar signature, .thinking more => some (.thinking (soFar ++ more) signature)
  | .thinking soFar _, .signature signature => some (.thinking soFar signature)
  | .toolUse id name input, .inputJson more => some (.toolUse id name (input ++ more))
  | _, _ => none

inductive BodyKind where
  | text
  | thinking
  | toolUse
  deriving DecidableEq, Repr

def BlockBody.kind : BlockBody → BodyKind
  | .text _ => .text
  | .thinking _ _ => .thinking
  | .toolUse _ _ _ => .toolUse

def BlockDelta.kind : BlockDelta → BodyKind
  | .text _ => .text
  | .thinking _ => .thinking
  | .signature _ => .thinking
  | .inputJson _ => .toolUse

variable {delta : BlockDelta}

lemma BlockBody.add_of_kind {body : BlockBody} (h : body.kind = delta.kind) :
    ∃ body', body.add delta = some body' ∧ body'.kind = body.kind := by
  cases body <;> cases delta <;> cases h <;> exact ⟨_, rfl, rfl⟩

lemma BlockBody.kind_of_add {body body' : BlockBody}
    (h : body.add delta = some body') : body.kind = delta.kind ∧ body'.kind = body.kind := by
  cases body <;> cases delta <;> cases h <;> exact ⟨rfl, rfl⟩

structure ClientBlock where
  body : BlockBody
  stopped : Bool := false
  deriving DecidableEq, Repr

inductive Phase where
  /-- Nothing has arrived. -/
  | waiting
  /-- The message has started. -/
  | content
  /-- The stop reason has arrived. -/
  | ended
  | stopped
  deriving DecidableEq, Repr

structure Client where
  phase : Phase := .waiting
  blocks : List ClientBlock := []
  stopReason : Option String := none
  usage : Engine.StreamUsage := ⟨0, 0, 0, 0⟩
  deriving DecidableEq, Repr

namespace Client

variable (c : Client)

/-- The block an index names, if it is open. -/
def openBlock : Int → Option BlockBody
  | .ofNat n => c.blocks[n]?.bind fun b => if b.stopped then none else some b.body
  | .negSucc _ => none

def AllStopped : Prop := ∀ b ∈ c.blocks, b.stopped = true

instance (c : Client) : Decidable c.AllStopped := by unfold AllStopped; infer_instance

/-- A count that is present replaces the one before it. -/
def takeUsage (usage : Engine.StreamUsage) (counts : UsageCounts) : Engine.StreamUsage where
  inputTokens := counts.inputTokens.getD usage.inputTokens
  outputTokens := counts.outputTokens.getD usage.outputTokens
  cacheReadTokens := counts.cacheReadInputTokens.getD usage.cacheReadTokens
  cacheWriteTokens := counts.cacheCreationInputTokens.getD usage.cacheWriteTokens

/-- The client takes one frame, or refuses it. -/
def take : Frame → Option Client
  | .messageStart _ _ _ usage =>
    if c.phase = .waiting then
      some { c with phase := .content, usage := takeUsage c.usage usage }
    else none
  | .ping => if c.phase = .content ∨ c.phase = .ended then some c else none
  | .contentBlockStart index opening =>
    if c.phase = .content ∧ index = c.blocks.length then
      some { c with blocks := c.blocks ++ [{ body := opening.body }] }
    else none
  | .contentBlockDelta index delta =>
    if c.phase = .content then
      ((c.openBlock index).bind fun body => body.add delta).map fun body =>
        { c with blocks := c.blocks.set index.toNat { body } }
    else none
  | .contentBlockStop index =>
    if c.phase = .content then
      (c.openBlock index).map fun body =>
        { c with blocks := c.blocks.set index.toNat { body, stopped := true } }
    else none
  | .messageDelta stopReason usage =>
    let c' := { c with usage := usage.elim c.usage (takeUsage c.usage) }
    match stopReason with
    | some reason =>
      if c.phase = .content ∧ c.AllStopped then
        some { c' with phase := .ended, stopReason := some reason }
      else none
    | none => if c.phase = .content ∨ c.phase = .ended then some c' else none
  | .messageStop =>
    if (c.phase = .content ∨ c.phase = .ended) ∧ c.AllStopped then
      some { c with phase := .stopped }
    else none
  | .error _ => none

/-- The client takes frame after frame. -/
def takeAll (frames : List Frame) : Option Client :=
  frames.foldlM take c

@[simp] lemma takeAll_nil : c.takeAll [] = some c := rfl

@[simp] lemma takeAll_cons (frame : Frame) (frames : List Frame) :
    c.takeAll (frame :: frames) = (c.take frame).bind fun c' => c'.takeAll frames := rfl

lemma takeAll_append (xs ys : List Frame) :
    c.takeAll (xs ++ ys) = (c.takeAll xs).bind fun c' => c'.takeAll ys := foldlM_append

variable {c : Client} {n : Nat} {body body' : BlockBody}

lemma openBlock_natCast (h : c.blocks[n]? = some { body }) : c.openBlock n = some body := by
  show (c.blocks[n]?.bind _) = _
  rw [h]
  rfl

lemma take_start (hphase : c.phase = .content) (opening : BlockOpening)
    (hn : n = c.blocks.length) : c.take (.contentBlockStart n opening) =
      some { c with blocks := c.blocks ++ [{ body := opening.body }] } := by
  rw [take, if_pos ⟨hphase, by rw [hn]⟩]

lemma take_delta (hphase : c.phase = .content)
    (hopen : c.blocks[n]? = some { body }) (hadd : body.add delta = some body') :
    c.take (.contentBlockDelta n delta) =
      some { c with blocks := c.blocks.set n { body := body' } } := by
  rw [take, if_pos hphase, openBlock_natCast hopen, bind_some, hadd]
  rfl

lemma take_stop (hphase : c.phase = .content) (hopen : c.blocks[n]? = some { body }) :
    c.take (.contentBlockStop n) =
      some { c with blocks := c.blocks.set n { body, stopped := true } } := by
  rw [take, if_pos hphase, openBlock_natCast hopen]
  rfl

/-! ### What a taken frame was -/

lemma openBlock_eq_some {index : Int} :
    c.openBlock index = some body ↔ ∃ n : Nat, index = n ∧ c.blocks[n]? = some { body } := by
  match index with
  | .negSucc k =>
    constructor
    · intro h
      cases h
    · omega
  | .ofNat k =>
    constructor
    · intro h
      refine ⟨k, rfl, ?_⟩
      obtain ⟨⟨other, stopped⟩, hb, hbody⟩ := bind_eq_some_iff.mp h
      cases stopped with
      | true => cases hbody
      | false =>
        cases hbody
        exact hb
    · rintro ⟨n, hn, hb⟩
      have hkn : k = n := Int.ofNat.inj hn
      subst hkn
      exact openBlock_natCast hb

variable {c' : Client} {index : Int} {opening : BlockOpening} {usage : Option UsageCounts}
  {frame : Frame} {frames : List Frame}

lemma of_take_start (h : c.take (.contentBlockStart index opening) = some c') :
    c.phase = .content ∧ index = c.blocks.length ∧
      c' = { c with blocks := c.blocks ++ [{ body := opening.body }] } := by
  obtain ⟨hif, hc'⟩ := ite_none_right_eq_some.mp h
  exact ⟨hif.1, hif.2, (some.inj hc').symm⟩

lemma of_take_delta (h : c.take (.contentBlockDelta index delta) = some c') :
    c.phase = .content ∧ ∃ (n : Nat) (body body' : BlockBody), index = n ∧
      c.blocks[n]? = some { body } ∧ body.add delta = some body' ∧
      c' = { c with blocks := c.blocks.set n { body := body' } } := by
  obtain ⟨hphase, h⟩ := ite_none_right_eq_some.mp h
  obtain ⟨body', hbody', rfl⟩ := map_eq_some_iff.mp h
  obtain ⟨body, hopen, hadd⟩ := bind_eq_some_iff.mp hbody'
  obtain ⟨n, rfl, hn⟩ := openBlock_eq_some.mp hopen
  exact ⟨hphase, n, body, body', rfl, hn, hadd, rfl⟩

lemma of_take_stop (h : c.take (.contentBlockStop index) = some c') :
    c.phase = .content ∧ ∃ (n : Nat) (body : BlockBody), index = n ∧ c.blocks[n]? = some { body } ∧
      c' = { c with blocks := c.blocks.set n { body, stopped := true } } := by
  obtain ⟨hphase, h⟩ := ite_none_right_eq_some.mp h
  obtain ⟨body, hopen, rfl⟩ := map_eq_some_iff.mp h
  obtain ⟨n, rfl, hn⟩ := openBlock_eq_some.mp hopen
  exact ⟨hphase, n, body, rfl, hn, rfl⟩

lemma of_take_messageStart {id role model : String} {usage : UsageCounts}
    (h : c.take (.messageStart id role model usage) = some c') :
    c.phase = .waiting ∧ c' = { c with phase := .content, usage := takeUsage c.usage usage } := by
  obtain ⟨hphase, hc'⟩ := ite_none_right_eq_some.mp h
  exact ⟨hphase, (some.inj hc').symm⟩

lemma of_take_ping (h : c.take .ping = some c') : c' = c := by
  obtain ⟨-, hc'⟩ := ite_none_right_eq_some.mp h
  exact (some.inj hc').symm

lemma of_take_messageDelta {reason : String}
    (h : c.take (.messageDelta (some reason) usage) = some c') : c.phase = .content ∧ c.AllStopped ∧
      c' = { c with phase := .ended, stopReason := some reason
                    usage := usage.elim c.usage (takeUsage c.usage) } := by
  obtain ⟨⟨hphase, hstopped⟩, hc'⟩ := ite_none_right_eq_some.mp h
  exact ⟨hphase, hstopped, (some.inj hc').symm⟩

lemma of_take_usage (h : c.take (.messageDelta none usage) = some c') :
    c' = { c with usage := usage.elim c.usage (takeUsage c.usage) } := by
  obtain ⟨-, hc'⟩ := ite_none_right_eq_some.mp h
  exact (some.inj hc').symm

lemma of_take_messageStop (h : c.take .messageStop = some c') :
    (c.phase = .content ∨ c.phase = .ended) ∧ c.AllStopped ∧ c' = { c with phase := .stopped } := by
  obtain ⟨⟨hphase, hstopped⟩, hc'⟩ := ite_none_right_eq_some.mp h
  exact ⟨hphase, hstopped, (some.inj hc').symm⟩

/-- The frames of the envelope leave the blocks. -/
lemma blocks_of_take (hframe : frame.isBlock = false) (h : c.take frame = some c') :
    c'.blocks = c.blocks := by
  match frame with
  | .messageStart _ _ _ _ => rw [(of_take_messageStart h).2]
  | .ping => rw [of_take_ping h]
  | .messageDelta (some _) _ => rw [(of_take_messageDelta h).2.2]
  | .messageDelta none _ => rw [of_take_usage h]
  | .messageStop => rw [(of_take_messageStop h).2.2]
  | .error _ => cases h

/-- The frames of the blocks leave the envelope. -/
lemma envelope_of_take (hframe : frame.isBlock = true) (h : c.take frame = some c') :
    c'.phase = c.phase ∧ c'.usage = c.usage ∧ c'.stopReason = c.stopReason := by
  match frame with
  | .contentBlockStart _ _ =>
    obtain ⟨-, -, rfl⟩ := of_take_start h
    exact ⟨rfl, rfl, rfl⟩
  | .contentBlockDelta _ _ =>
    obtain ⟨-, _, _, _, -, -, -, rfl⟩ := of_take_delta h
    exact ⟨rfl, rfl, rfl⟩
  | .contentBlockStop _ =>
    obtain ⟨-, _, _, -, -, rfl⟩ := of_take_stop h
    exact ⟨rfl, rfl, rfl⟩

lemma envelope_of_takeAll (hframes : ∀ frame ∈ frames, frame.isBlock = true)
    (h : c.takeAll frames = some c') :
    c'.phase = c.phase ∧ c'.usage = c.usage ∧ c'.stopReason = c.stopReason := by
  induction frames generalizing c with
  | nil =>
    cases h
    exact ⟨rfl, rfl, rfl⟩
  | cons frame frames ih =>
  obtain ⟨c₁, htake, hrest⟩ := bind_eq_some_iff.mp h
  obtain ⟨hphase, husage, hreason⟩ := envelope_of_take (hframes frame mem_cons_self) htake
  obtain ⟨hphase', husage', hreason'⟩ := ih (fun f hf => hframes f (mem_cons_of_mem _ hf)) hrest
  exact ⟨hphase'.trans hphase, husage'.trans husage, hreason'.trans hreason⟩

/-! ### The open blocks -/

lemma openBlock_start (h : c.take (.contentBlockStart index opening) = some c') :
    c.openBlock index = none ∧
      ∀ i, c'.openBlock i = if i = index then some opening.body else c.openBlock i := by
  obtain ⟨-, rfl, rfl⟩ := of_take_start h
  constructor
  · show (c.blocks[c.blocks.length]?.bind _) = none
    rw [getElem?_eq_none (Nat.le_refl _)]
    rfl
  intro i
  match i with
  | .negSucc k => rw [if_neg (by omega)]; rfl
  | .ofNat k =>
    show ((c.blocks ++ _)[k]?.bind _) = _
    by_cases hk : k = c.blocks.length
    · subst hk
      simp
    rw [if_neg (by intro heq; exact hk (Int.ofNat.inj heq))]
    show _ = (c.blocks[k]?.bind _)
    by_cases hlt : k < c.blocks.length
    · rw [getElem?_append_left hlt]
    · rw [getElem?_eq_none (by simp; omega), getElem?_eq_none (by omega)]

lemma openBlock_set (b : ClientBlock) (h : n < c.blocks.length) (i : Int) :
    openBlock { c with blocks := c.blocks.set n b } i =
      if i = n then (if b.stopped then none else some b.body) else c.openBlock i := by
  match i with
  | .negSucc k => rw [if_neg (by omega)]; rfl
  | .ofNat k =>
    show ((c.blocks.set n b)[k]?.bind _) = _
    by_cases hk : k = n
    · subst hk
      rw [if_pos (Int.ofNat_eq_natCast _), getElem?_set_self h]
      rfl
    · rw [if_neg (by intro heq; exact hk (Int.ofNat.inj heq)), getElem?_set_ne (Ne.symm hk)]
      rfl

lemma openBlock_delta (h : c.take (.contentBlockDelta index delta) = some c') :
    ∃ body body', c.openBlock index = some body ∧ body.kind = delta.kind ∧ body'.kind = delta.kind ∧
      ∀ i, c'.openBlock i = if i = index then some body' else c.openBlock i := by
  obtain ⟨-, n, body, body', rfl, hn, hadd, rfl⟩ := of_take_delta h
  obtain ⟨hkind, hkind'⟩ := BlockBody.kind_of_add hadd
  exact ⟨body, body', openBlock_natCast hn, hkind, hkind'.trans hkind,
    openBlock_set _ (List.getElem?_eq_some_iff.mp hn).1⟩

lemma openBlock_stop (h : c.take (.contentBlockStop index) = some c') :
    ∃ body, c.openBlock index = some body ∧
      ∀ i, c'.openBlock i = if i = index then none else c.openBlock i := by
  obtain ⟨-, n, body, rfl, hn, rfl⟩ := of_take_stop h
  exact ⟨body, openBlock_natCast hn, openBlock_set _ (List.getElem?_eq_some_iff.mp hn).1⟩

lemma openBlock_of_allStopped (h : c.AllStopped) (i : Int) : c.openBlock i = none := by
  by_contra hne
  obtain ⟨body, hbody⟩ := ne_none_iff_exists'.mp hne
  obtain ⟨n, -, hn⟩ := openBlock_eq_some.mp hbody
  cases h _ (mem_of_getElem? hn)

/-! ### The contents of the blocks -/

def bodies (c : Client) : List BlockBody := c.blocks.map ClientBlock.body

/-- A delta goes to the block at position `n`. -/
def addAt (n : Nat) (delta : BlockDelta) (bodies : List BlockBody) : List BlockBody :=
  bodies.modify n fun body => (body.add delta).getD body

def bodiesAfter (bodies : List BlockBody) : Frame → List BlockBody
  | .contentBlockStart _ opening => bodies ++ [opening.body]
  | .contentBlockDelta index delta => addAt index.toNat delta bodies
  | _ => bodies

@[simp] lemma length_bodies (c : Client) : c.bodies.length = c.blocks.length := length_map ..

lemma bodies_set (h : c.blocks[n]? = some { body }) (b : ClientBlock) :
    (c.blocks.set n b).map ClientBlock.body = c.bodies.modify n fun _ => b.body := by
  rw [map_set, bodies, modify_eq_set_getElem?, getElem?_map, h]
  rfl

lemma bodies_of_take (h : c.take frame = some c') : c'.bodies = bodiesAfter c.bodies frame := by
  match frame with
  | .contentBlockStart index opening =>
    obtain ⟨-, -, rfl⟩ := of_take_start h
    simp [bodies, bodiesAfter]
  | .contentBlockDelta index delta =>
    obtain ⟨-, n, body, body', rfl, hn, hadd, rfl⟩ := of_take_delta h
    show (c.blocks.set n _).map _ = addAt n delta c.bodies
    rw [bodies_set hn, addAt, modify_eq_set_getElem?, modify_eq_set_getElem?, bodies,
      getElem?_map, hn]
    simp [hadd]
  | .contentBlockStop index =>
    obtain ⟨-, n, body, rfl, hn, rfl⟩ := of_take_stop h
    show (c.blocks.set n _).map _ = c.bodies
    have hbody : c.bodies[n]? = some body := by
      rw [bodies, getElem?_map, hn]
      rfl
    rw [map_set]
    obtain ⟨hlt, rfl⟩ := List.getElem?_eq_some_iff.mp hbody
    exact set_getElem_self hlt
  | .messageStart _ _ _ _ | .ping | .messageDelta _ _ | .messageStop | .error _ =>
    exact congrArg (map ClientBlock.body) (blocks_of_take rfl h)

lemma bodies_of_takeAll (h : c.takeAll frames = some c') :
    c'.bodies = frames.foldl bodiesAfter c.bodies := by
  induction frames generalizing c with
  | nil =>
    cases h
    rfl
  | cons frame frames ih =>
  obtain ⟨c₁, htake, hrest⟩ := bind_eq_some_iff.mp h
  rw [foldl_cons, ← bodies_of_take htake]
  exact ih hrest

end Client

/-- What the frames accumulate to, when every one is taken and `message_stop` is
the last. -/
def accumulate (frames : List Frame) : Option Client :=
  (Client.takeAll {} frames).filter fun c => c.phase = .stopped

/-- **A well-formed stream.**  `message_start` comes first and once; the blocks
start with the indexes 0, 1, 2, …, each once; a delta names an open block of
its kind; a block is stopped once, before the `message_delta` with the stop
reason; `message_stop` comes once, last. -/
def WellFormed (frames : List Frame) : Prop := (accumulate frames).isSome = true

instance (frames : List Frame) : Decidable (WellFormed frames) := by
  unfold WellFormed
  infer_instance

end ToranaEdge.Format.Anthropic
