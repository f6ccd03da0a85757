import ToranaEdge.Format.AnthropicStream.Native

/-! # The blocks of a relayed stream

The regrouped blocks are compared with the blocks of the native stream.  As long
as every text and thinking block has a delta that opens a block of its own, the
two are in step; once one has not, the relayed stream stays a block behind, or
is not completed at all. -/

namespace ToranaEdge.Format.Anthropic

open Client List Option Function

/-! ## The last block -/

def BlockOpening.kind (opening : BlockOpening) : BodyKind := opening.body.kind

/-- The last block that started, the deltas since, and whether a block has stopped
since. -/
structure LastBlock where
  opening : BlockOpening
  deltas : List BlockDelta := []
  stopped : Bool := false
  deriving DecidableEq, Repr

def lastAfter (last : Option LastBlock) : Frame → Option LastBlock
  | .contentBlockStart _ opening => some { opening }
  | .contentBlockDelta _ delta => last.map fun l => { l with deltas := l.deltas ++ [delta] }
  | .contentBlockStop _ => last.map fun l => { l with stopped := true }
  | _ => last

def lastBlock (before : List Frame) : Option LastBlock := before.foldl lastAfter none

variable {index : Int} {opening : BlockOpening}

/-- Before a block starts, only tool calls are open. -/
lemma openTools_of_orderly {c : Client} (h : Orderly c (.contentBlockStart index opening))
    (i : Int) (body : BlockBody) (hopen : c.openBlock i = some body) : body.kind = .toolUse := by
  obtain ⟨n, -, hn⟩ := openBlock_eq_some.mp hopen
  have hmem := mem_of_getElem? hn
  match opening with
  | .text _ | .thinking _ _ => cases h _ hmem
  | .toolUse _ _ => exact h _ hmem rfl

/-- A text or thinking block that is the last one is the only one that may be open. -/
structure Reads (last : Option LastBlock) (c : Client) : Prop where
  only : ∀ l, last = some l → l.opening.kind ≠ .toolUse → ∀ i body, c.openBlock i = some body →
    i + 1 = c.blocks.length ∧ body.kind = l.opening.kind ∧ l.stopped = false
  opened : ∀ l, last = some l → l.opening.kind ≠ .toolUse → l.stopped = false →
    ∃ i body, c.openBlock i = some body
  tools : (∀ l, last = some l → l.opening.kind = .toolUse) →
    ∀ i body, c.openBlock i = some body → body.kind = .toolUse

lemma reads_start (usage : Engine.StreamUsage) : Reads none { phase := .content, usage } := by
  have hclosed := openBlock_of_allStopped (c := { phase := .content, usage }) (by simp [AllStopped])
  constructor <;> simp [hclosed]

variable {c c' : Client} {last : Option LastBlock} {frame : Frame} {g g' : Regrouped} {δ : Nat}

lemma length_of_start (htake : c.take (.contentBlockStart index opening) = some c') :
    c'.blocks.length = c.blocks.length + 1 := by
  obtain ⟨-, -, rfl⟩ := of_take_start htake
  simp

lemma length_of_delta {delta : BlockDelta}
    (htake : c.take (.contentBlockDelta index delta) = some c') :
    c'.blocks.length = c.blocks.length := by
  obtain ⟨-, n, _, _, -, -, -, rfl⟩ := of_take_delta htake
  simp

lemma length_of_stop (htake : c.take (.contentBlockStop index) = some c') :
    c'.blocks.length = c.blocks.length := by
  obtain ⟨-, n, _, -, -, rfl⟩ := of_take_stop htake
  simp

namespace Reads

/-- When only tool calls are open, the last block is one of them or stopped. -/
lemma stopped (h : Reads last c)
    (htools : ∀ i body, c.openBlock i = some body → body.kind = .toolUse) {l : LastBlock}
    (hl : last = some l) (hkind : l.opening.kind ≠ .toolUse) : l.stopped = true := by
  by_contra hne
  obtain ⟨i, body, hopen⟩ := h.opened l hl hkind (by simpa using hne)
  exact hkind ((h.only l hl hkind i body hopen).2.1.symm.trans (htools i body hopen))

/-- An open block that is no tool call is the last one. -/
lemma last_of_open (h : Reads last c) {i : Int} {body : BlockBody}
    (hopen : c.openBlock i = some body)
    (hkind : body.kind ≠ .toolUse) : ∃ l, last = some l ∧ l.opening.kind = body.kind ∧
      i + 1 = c.blocks.length ∧ l.stopped = false := by
  have hex : ∃ l, last = some l ∧ l.opening.kind ≠ .toolUse := by
    by_contra hne
    refine hkind (h.tools (fun l hl => ?_) i body hopen)
    by_contra hk
    exact hne ⟨l, hl, hk⟩
  obtain ⟨l, hl, hk⟩ := hex
  obtain ⟨hi, hbody, hstopped⟩ := h.only l hl hk i body hopen
  exact ⟨l, hl, hbody.symm, hi, hstopped⟩

/-- While a tool call is open, the last block is one. -/
lemma tool_of_open (h : Reads last c) {i : Int} {body : BlockBody}
    (hopen : c.openBlock i = some body) (hkind : body.kind = .toolUse) (l : LastBlock)
    (hl : last = some l) : l.opening.kind = .toolUse := by
  by_contra hne
  exact hne ((h.only l hl hne i body hopen).2.1.symm.trans hkind)

lemma step (h : Reads last c) (htake : takeNative c frame = some c') (hcontent : IsContent frame) :
    Reads (lastAfter last frame) c' := by
  obtain ⟨horderly, htake⟩ := takeNative_eq_some.mp htake
  cases hcontent with
  | ping =>
    cases of_take_ping htake
    exact h
  | start index opening =>
    obtain ⟨-, hopen⟩ := openBlock_start htake
    have hindex := (of_take_start htake).2.1
    have hlength := length_of_start htake
    by_cases hkind : opening.kind = .toolUse
    · have hnot : ∀ l : LastBlock, some { opening } = some l → l.opening.kind ≠ .toolUse → False := by
        intro l hl hne
        cases hl
        exact hne hkind
      refine ⟨fun l hl hne => (hnot l hl hne).elim, fun l hl hne => (hnot l hl hne).elim, ?_⟩
      · intro _ i body hbody
        rw [hopen] at hbody
        split at hbody
        · cases hbody
          exact hkind
        · exact openTools_of_orderly horderly i body hbody
    · have hall : c.AllStopped := by
        match opening, hkind with
        | .text _, _ | .thinking _ _, _ => exact horderly
        | .toolUse _ _, hkind => exact (hkind rfl).elim
      refine ⟨?_, ?_, ?_⟩
      · intro l hl _ i body hbody
        cases hl
        rw [hopen, openBlock_of_allStopped hall] at hbody
        split at hbody <;> cases hbody
        next hi => exact ⟨by omega, rfl, rfl⟩
      · intro l hl _ _
        exact ⟨index, opening.body, by rw [hopen, if_pos rfl]⟩
      · intro htools
        exact (hkind (htools _ rfl)).elim
  | delta index delta =>
    obtain ⟨old, new, hold, hkind, hkind', hopen⟩ := openBlock_delta htake
    -- the block keeps its kind
    have hback : ∀ i body, c'.openBlock i = some body →
        ∃ old, c.openBlock i = some old ∧ body.kind = old.kind := by
      intro i body hbody
      rw [hopen] at hbody
      split at hbody
      · next hi =>
        cases hbody
        exact ⟨old, hi ▸ hold, hkind'.trans hkind.symm⟩
      · exact ⟨body, hbody, rfl⟩
    refine ⟨?_, ?_, ?_⟩
    · intro l hl hne i body hbody
      obtain ⟨l', rfl, rfl⟩ := map_eq_some_iff.mp hl
      obtain ⟨old, hold, hsame⟩ := hback i body hbody
      rw [length_of_delta htake, hsame]
      exact h.only l' rfl hne i old hold
    · intro _ _ _ _
      exact ⟨index, new, by rw [hopen, if_pos rfl]⟩
    · intro htools i body hbody
      obtain ⟨old, hold, hsame⟩ := hback i body hbody
      rw [hsame]
      refine h.tools (fun l hl => ?_) i old hold
      rw [hl] at htools
      exact htools { l with deltas := l.deltas ++ [delta] } rfl
  | stop index =>
    obtain ⟨stopped, hstopped, hopen⟩ := openBlock_stop htake
    have hback : ∀ i body, c'.openBlock i = some body → i ≠ index ∧ c.openBlock i = some body := by
      intro i body hbody
      rw [hopen] at hbody
      split at hbody
      · cases hbody
      · next hi => exact ⟨hi, hbody⟩
    refine ⟨?_, ?_, ?_⟩
    · intro l hl hne i body hbody
      obtain ⟨l', rfl, rfl⟩ := map_eq_some_iff.mp hl
      obtain ⟨hi, hbody⟩ := hback i body hbody
      have hlast := (h.only l' rfl hne i body hbody).1
      have hlast' := (h.only l' rfl hne index stopped hstopped).1
      omega
    · intro l hl _ hnot
      obtain ⟨l', -, rfl⟩ := map_eq_some_iff.mp hl
      cases hnot
    · intro htools i body hbody
      refine h.tools (fun l hl => ?_) i body (hback i body hbody).2
      rw [hl] at htools
      exact htools { l with stopped := true } rfl

end Reads

/-! ## Falling behind -/

/-- The block that the next delta of the last block will open. -/
def LastBlock.pending (l : LastBlock) (run : Option BodyKind) : List BlockBody :=
  if l.deltas ≠ [] ∨ l.stopped = true then []
  else
    match l.opening with
    | .text _ => if run = some .text then [] else [.text ""]
    | .thinking _ _ => if run = none then [.thinking "" ""] else []
    | .toolUse _ _ => []

def pendingBodies (last : Option LastBlock) (run : Option BodyKind) : List BlockBody :=
  last.elim [] fun l => l.pending run

/-- The relayed stream has at least `δ` blocks less than the native one. -/
structure Lags (δ : Nat) (last : Option LastBlock) (c : Client) (g : Regrouped) : Prop where
  reads : Reads last c
  tracks : Tracks c g
  kind : g.run ≠ some .toolUse
  touched : ∀ l, last = some l → l.opening.kind ≠ .toolUse → l.deltas ≠ [] →
    g.run = some l.opening.kind
  count : g.bodies.length + (pendingBodies last g.run).length + δ ≤ c.blocks.length

@[simp] lemma length_addLast (delta : BlockDelta) (bodies : List BlockBody) :
    (addLast delta bodies).length = bodies.length := length_addAt ..

variable {l : LastBlock} {r : Option BodyKind}

lemma pending_of_deltas (h : l.deltas ≠ []) : l.pending r = [] := if_pos (.inl h)

lemma pending_of_stopped (h : l.stopped = true) : l.pending r = [] := if_pos (.inr h)

lemma pending_of_tool (h : l.opening.kind = .toolUse) : l.pending r = [] := by
  obtain ⟨opening, deltas, stopped⟩ := l
  match opening, h with
  | .toolUse _ _, _ =>
    unfold LastBlock.pending
    split <;> rfl

lemma length_pending_le (l : LastBlock) (run : Option BodyKind) : (l.pending run).length ≤ 1 := by
  unfold LastBlock.pending
  split
  · simp
  split
  · split <;> simp
  · split <;> simp
  · simp

/-- No block is pending after a delta. -/
lemma pending_delta (last : Option LastBlock) (index : Int) (delta : BlockDelta)
    (run : Option BodyKind) :
    pendingBodies (lastAfter last (.contentBlockDelta index delta)) run = [] := by
  cases last with
  | none => rfl
  | some l => exact pending_of_deltas (by simp)

lemma pending_stop (last : Option LastBlock) (index : Int) (run : Option BodyKind) :
    pendingBodies (lastAfter last (.contentBlockStop index)) run = [] := by
  cases last with
  | none => rfl
  | some l => exact pending_of_stopped rfl

namespace Lags

/-- Nothing is pending when only tool calls are open. -/
lemma pending_nil (h : Reads last c)
    (htools : ∀ i body, c.openBlock i = some body → body.kind = .toolUse) (run : Option BodyKind) :
    pendingBodies last run = [] := by
  cases hlast : last with
  | none => rfl
  | some l =>
  by_cases hkind : l.opening.kind = .toolUse
  · exact pending_of_tool hkind
  · exact pending_of_stopped (h.stopped htools hlast hkind)

/-- A block of the run's kind is open, or the delta opens one. -/
lemma grows (h : Lags δ last c g) (hl : last = some l) {kind : BodyKind}
    (hkind : l.opening.kind = kind) (hne : kind ≠ .toolUse) (hstopped : l.stopped = false)
    (hrun : kind = .thinking → g.run ≠ some .text) :
    (if g.run = some kind then 0 else 1) ≤ (pendingBodies last g.run).length := by
  by_cases hrun' : g.run = some kind
  · simp [hrun']
  rw [if_neg hrun', hl]
  show 1 ≤ (l.pending g.run).length
  have hfresh : ¬(l.deltas ≠ [] ∨ l.stopped = true) := by
    rintro (hdeltas | hstop)
    · exact hrun' ((h.touched l hl (hkind ▸ hne) hdeltas).trans (by rw [hkind]))
    · rw [hstopped] at hstop
      cases hstop
  unfold LastBlock.pending
  rw [if_neg hfresh]
  obtain ⟨opening, deltas, stopped⟩ := l
  match opening with
  | .text _ =>
    cases hkind
    exact Nat.le_of_eq (by simp [show g.run ≠ some .text from hrun'])
  | .thinking _ _ =>
    cases hkind
    have hnone := (none_or_thinking h.kind (hrun rfl)).resolve_right hrun'
    exact Nat.le_of_eq (by simp [hnone])
  | .toolUse _ _ => exact (hne hkind.symm).elim

lemma start (h : Lags δ last c g)
    (hnative : takeNative c (.contentBlockStart index opening) = some c')
    (hstep : g.step (.contentBlockStart index opening) = some g') :
    Lags δ (some { opening }) c' g' := by
  have hcontent : IsContent (.contentBlockStart index opening) := .start _ _
  obtain ⟨horderly, htake⟩ := takeNative_eq_some.mp hnative
  have hcount := h.count
  have hlength := length_of_start htake
  refine ⟨h.reads.step hnative hcontent, h.tracks.step hcontent htake hstep, ?_, ?_, ?_⟩
  · match opening with
    | .text _ | .thinking _ _ =>
      cases hstep
      exact h.kind
    | .toolUse _ _ =>
      cases hstep
      simp
  · intro l hl _ hne
    cases hl
    exact (hne rfl).elim
  · have hpending := length_pending_le { opening } g'.run
    show g'.bodies.length + (LastBlock.pending { opening } g'.run).length + δ ≤ _
    match opening with
    | .text _ | .thinking _ _ =>
      cases hstep
      omega
    | .toolUse id name =>
      cases hstep
      rw [pending_of_tool rfl]
      simp only [length_append, length_singleton, length_nil]
      omega

/-- A delta of text or thinking is one of the last block. -/
lemma deltaNonTool (h : Lags δ last c g) {delta : BlockDelta}
    (hnative : takeNative c (.contentBlockDelta index delta) = some c')
    (hstep : g.step (.contentBlockDelta index delta) = some g') (hne : delta.kind ≠ .toolUse)
    (hrun : delta.kind = .thinking → g.run ≠ some .text) (hrun' : g'.run = some delta.kind)
    (hbodies : g'.bodies.length = g.bodies.length + (if g.run = some delta.kind then 0 else 1)) :
    Lags δ (lastAfter last (.contentBlockDelta index delta)) c' g' := by
  have hcontent : IsContent (.contentBlockDelta index delta) := .delta _ _
  have htake := (takeNative_eq_some.mp hnative).2
  have hcount := h.count
  obtain ⟨body, -, hopen, hkind, -⟩ := openBlock_delta htake
  obtain ⟨l, hl, hlkind, -, hstopped⟩ := h.reads.last_of_open hopen (hkind ▸ hne)
  have hlkind : l.opening.kind = delta.kind := hlkind.trans hkind
  have hgrows := h.grows hl hlkind hne hstopped hrun
  refine ⟨h.reads.step hnative hcontent, h.tracks.step hcontent htake hstep, ?_, ?_, ?_⟩
  · rw [hrun']
    simpa using hne
  · intro l' hl' _ _
    obtain ⟨l'', hl'', rfl⟩ := map_eq_some_iff.mp hl'
    cases hl.symm.trans hl''
    rw [hrun']
    exact congrArg some hlkind.symm
  · rw [pending_delta, length_of_delta htake]
    simp only [length_nil]
    omega

lemma delta (h : Lags δ last c g) {delta : BlockDelta}
    (hnative : takeNative c (.contentBlockDelta index delta) = some c')
    (hstep : g.step (.contentBlockDelta index delta) = some g') :
    Lags δ (lastAfter last (.contentBlockDelta index delta)) c' g' := by
  match delta with
  | .text text =>
    refine h.deltaNonTool hnative hstep nofun nofun ?_ ?_
    · cases hstep
      rfl
    · cases hstep
      split <;> simp_all [BlockDelta.kind]
  | .thinking text =>
    obtain ⟨hrun, hg⟩ := ite_none_left_eq_some.mp hstep
    refine h.deltaNonTool hnative hstep nofun (fun _ => hrun) ?_ ?_
    · cases hg
      rfl
    · cases hg
      split <;> simp_all [BlockDelta.kind]
  | .signature token =>
    obtain ⟨hrun, hg⟩ := ite_none_right_eq_some.mp hstep
    refine h.deltaNonTool hnative hstep nofun (fun _ => by simp [hrun]) ?_ ?_
    · cases hg
      exact hrun
    · cases hg
      rw [length_addLast]
      exact (if_pos hrun).symm ▸ rfl
  | .inputJson text =>
    have hcontent : IsContent (.contentBlockDelta index (.inputJson text)) := .delta _ _
    have htake := (takeNative_eq_some.mp hnative).2
    have hcount := h.count
    obtain ⟨body, -, hopen, hkind, -⟩ := openBlock_delta htake
    have htracks := h.tracks.step hcontent htake hstep
    obtain ⟨n, -, rfl⟩ := map_eq_some_iff.mp hstep
    refine ⟨h.reads.step hnative hcontent, htracks, h.kind, ?_, ?_⟩
    · intro l hl hne
      obtain ⟨l', hl', rfl⟩ := map_eq_some_iff.mp hl
      exact (hne (h.reads.tool_of_open hopen hkind l' hl')).elim
    · rw [pending_delta, length_of_delta htake, length_addAt]
      simp only [length_nil]
      omega

lemma stop (h : Lags δ last c g) (hnative : takeNative c (.contentBlockStop index) = some c') :
    Lags δ (lastAfter last (.contentBlockStop index)) c'
      { g with tools := update g.tools index none } := by
  have hcontent : IsContent (.contentBlockStop index) := .stop _
  obtain ⟨-, htake⟩ := takeNative_eq_some.mp hnative
  have hcount := h.count
  have hlength := length_of_stop htake
  refine ⟨h.reads.step hnative hcontent, h.tracks.step hcontent htake rfl, h.kind, ?_, ?_⟩
  · intro l hl hne hdeltas
    obtain ⟨l', hl', rfl⟩ := map_eq_some_iff.mp hl
    exact h.touched l' hl' hne hdeltas
  · rw [pending_stop]
    simp only [length_nil]
    omega

/-- **One frame**: a relayed stream that is behind stays behind. -/
theorem step (h : Lags δ last c g) (hcontent : IsContent frame)
    (hnative : takeNative c frame = some c')
    (hstep : g.step frame = some g') : Lags δ (lastAfter last frame) c' g' := by
  cases hcontent with
  | ping =>
    cases hstep
    cases of_take_ping (takeNative_eq_some.mp hnative).2
    exact h
  | start index opening => exact h.start hnative hstep
  | delta index delta => exact h.delta hnative hstep
  | stop index =>
    cases hstep
    exact h.stop hnative

end Lags

/-! ## Staying in step -/

/-- Every text and thinking block opens a block of its own: it does not follow one
that is still open in the relayed stream, and it has a delta, the first of
which is no signature. -/
def Separate (last : Option LastBlock) : Frame → Prop
  | .contentBlockStart _ (.text _) => ∀ l, last = some l → l.opening.kind ≠ .text
  | .contentBlockStart _ (.thinking _ _) => ∀ l, last = some l → l.opening.kind = .toolUse
  | .contentBlockDelta _ (.signature _) => ∀ l, last = some l → l.deltas ≠ []
  | .contentBlockStop _ => ∀ l, last = some l → l.opening.kind ≠ .toolUse → l.deltas ≠ []
  | _ => True

/-- The opening without its content. -/
def BlockOpening.bare : BlockOpening → BlockOpening
  | .text _ => .text ""
  | .thinking _ _ => .thinking "" ""
  | .toolUse id name => .toolUse id name

def Frame.bare : Frame → Frame
  | .contentBlockStart index opening => .contentBlockStart index opening.bare
  | frame => frame

/-- The contents without what the blocks start with. -/
def bareAfter (bodies : List BlockBody) (frame : Frame) : List BlockBody :=
  bodiesAfter bodies frame.bare

/-- The relayed stream has every block of the native one so far, but for the block
that has had no delta. -/
structure InStep (bare : List BlockBody) (last : Option LastBlock) (c : Client) (g : Regrouped) :
    Prop extends Lags 0 last c g where
  idle : (∀ l, last = some l → l.opening.kind = .toolUse) → g.run = none
  untouched : ∀ l, last = some l → l.opening.kind ≠ .toolUse → l.deltas = [] →
    l.stopped = false ∧ l.pending g.run = [l.opening.bare.body]
  bodies : bare = g.bodies ++ pendingBodies last g.run
  length : bare.length = c.blocks.length
  same : ∀ i n, g.tools i = some n → i = n

lemma inStep_start (usage : Engine.StreamUsage) :
    InStep [] none { phase := .content, usage } {} := by
  refine ⟨⟨reads_start usage, tracks_start usage, ?_, ?_, Nat.le_refl _⟩, ?_, ?_, rfl, rfl, ?_⟩ <;>
    simp

namespace InStep

variable {bare : List BlockBody}

section

variable (h : InStep bare last c g)
include h

/-- When only tool calls are open, the run is the kind of the last block. -/
lemma run_of_start (htools : ∀ i body, c.openBlock i = some body → body.kind = .toolUse)
    (hl : last = some l) (hkind : l.opening.kind ≠ .toolUse) : g.run = some l.opening.kind := by
  refine h.touched l hl hkind fun hdeltas => ?_
  have hstopped := h.reads.stopped htools hl hkind
  rw [(h.untouched l hl hkind hdeltas).1] at hstopped
  cases hstopped

/-- Nothing waits for a block when another starts. -/
lemma bare_of_start
    (horderly : Orderly c (.contentBlockStart index opening)) : bare = g.bodies := by
  rw [h.bodies, Lags.pending_nil h.reads (openTools_of_orderly horderly), append_nil]

/-- A text or thinking block starts. -/
lemma startNonTool (hnative : takeNative c (.contentBlockStart index opening) = some c')
    (hstep : g.step (.contentBlockStart index opening) = some g) (hkind : opening.kind ≠ .toolUse)
    (hpending : LastBlock.pending { opening } g.run = [opening.bare.body]) :
    InStep (bareAfter bare (.contentBlockStart index opening)) (some { opening }) c' g := by
  obtain ⟨horderly, htake⟩ := takeNative_eq_some.mp hnative
  have hlags := h.toLags.start hnative hstep
  have hbare := h.bare_of_start horderly
  refine ⟨hlags, ?_, ?_, ?_, ?_, h.same⟩
  · intro htools
    exact (hkind (htools _ rfl)).elim
  · intro l hl _ _
    cases hl
    exact ⟨rfl, hpending⟩
  · show bare ++ [opening.bare.body] = g.bodies ++ LastBlock.pending { opening } g.run
    rw [hpending, hbare]
  · rw [length_of_start htake, ← h.length]
    exact length_append

/-- A tool call starts. -/
lemma startTool {id name : String}
    (hnative : takeNative c (.contentBlockStart index (.toolUse id name)) = some c')
    (hstep : g.step (.contentBlockStart index (.toolUse id name)) = some g') :
    InStep (bareAfter bare (.contentBlockStart index (.toolUse id name)))
      (some { opening := .toolUse id name }) c' g' := by
  obtain ⟨horderly, htake⟩ := takeNative_eq_some.mp hnative
  have hlags := h.toLags.start hnative hstep
  have hbare := h.bare_of_start horderly
  obtain ⟨-, hindex, -⟩ := of_take_start htake
  cases hstep
  refine ⟨hlags, fun _ => rfl, ?_, ?_, ?_, ?_⟩
  · intro l hl hne
    cases hl
    exact (hne rfl).elim
  · show bare ++ [_] = (g.bodies ++ [_]) ++ LastBlock.pending { opening := .toolUse id name } none
    rw [pending_of_tool rfl, hbare, append_nil]
    rfl
  · rw [length_of_start htake, ← h.length]
    exact length_append
  · -- the new call has the same place in both streams
    intro i n hi
    replace hi : update g.tools index (some g.bodies.length) i = some n := hi
    rw [update_apply] at hi
    split at hi
    · next heq =>
      cases hi
      rw [heq, hindex, ← h.length, hbare]
    · exact h.same i n hi

/-- A delta of the last block, which is then in the relayed stream. -/
lemma deltaNonTool {delta : BlockDelta}
    (hnative : takeNative c (.contentBlockDelta index delta) = some c')
    (hstep : g.step (.contentBlockDelta index delta) = some g') (hne : delta.kind ≠ .toolUse)
    (hbodies : g'.bodies = addLast delta bare) :
    InStep (bareAfter bare (.contentBlockDelta index delta))
      (lastAfter last (.contentBlockDelta index delta)) c' g' := by
  have htake := (takeNative_eq_some.mp hnative).2
  have hlags := h.toLags.delta hnative hstep
  obtain ⟨body, -, hopen, hkind, -⟩ := openBlock_delta htake
  obtain ⟨l, hl, hlkind, hlast, -⟩ := h.reads.last_of_open hopen (hkind ▸ hne)
  have hlkind : l.opening.kind = delta.kind := hlkind.trans hkind
  have hafter : lastAfter last (.contentBlockDelta index delta) =
      some { l with deltas := l.deltas ++ [delta] } := by
    rw [hl]
    rfl
  refine ⟨hlags, ?_, ?_, ?_, ?_, ?_⟩
  · intro htools
    have := htools _ hafter
    exact (hne (hlkind.symm.trans this)).elim
  · intro l' hl' _ hnil
    cases hafter.symm.trans hl'
    simp at hnil
  · rw [pending_delta, append_nil, hbodies]
    show addAt index.toNat delta bare = addAt (bare.length - 1) delta bare
    have hindex : index.toNat = bare.length - 1 := by
      rw [h.length]
      omega
    rw [hindex]
  · rw [length_of_delta htake, ← h.length]
    exact length_addAt ..
  · rw [Regrouped.tools_of_delta hstep]
    exact h.same

/-- Nothing waits for a block that has had a delta. -/
lemma bare_of_touched (hl : last = some l) (hdeltas : l.deltas ≠ []) : bare = g.bodies := by
  have hbodies := h.bodies
  rw [hl, show pendingBodies (some l) g.run = [] from pending_of_deltas hdeltas, append_nil]
    at hbodies
  exact hbodies

lemma bare_of_untouched (hl : last = some l)
    (hkind : l.opening.kind ≠ .toolUse) (hdeltas : l.deltas = []) :
    bare = g.bodies ++ [l.opening.bare.body] := by
  have hbodies := h.bodies
  rw [hl] at hbodies
  rw [← (h.untouched l hl hkind hdeltas).2]
  exact hbodies

/-- The contents, when text is the last block. -/
lemma bare_text (hl : last = some l) (hkind : l.opening.kind = .text) :
    bare = if g.run = some .text then g.bodies else g.bodies ++ [.text ""] := by
  have hne : l.opening.kind ≠ .toolUse := by simp [hkind]
  by_cases hdeltas : l.deltas = []
  · have hpending := (h.untouched l hl hne hdeltas).2
    have hbare := h.bare_of_untouched hl hne hdeltas
    obtain ⟨opening, deltas, stopped⟩ := l
    match opening, hkind with
    | .text _, _ =>
      by_cases hrun : g.run = some .text
      · -- then no block would be pending
        simp [LastBlock.pending, hrun] at hpending
      · rw [if_neg hrun]
        exact hbare
  · rw [if_pos (hkind ▸ h.touched l hl hne hdeltas)]
    exact h.bare_of_touched hl hdeltas

/-- The contents, when thinking is the last block. -/
lemma bare_thinking (hl : last = some l) (hkind : l.opening.kind = .thinking) : g.run ≠ some .text ∧
      bare = if g.run = some .thinking then g.bodies else g.bodies ++ [.thinking "" ""] := by
  have hne : l.opening.kind ≠ .toolUse := by simp [hkind]
  by_cases hdeltas : l.deltas = []
  · have hpending := (h.untouched l hl hne hdeltas).2
    have hbare := h.bare_of_untouched hl hne hdeltas
    obtain ⟨opening, deltas, stopped⟩ := l
    match opening, hkind with
    | .thinking _ _, _ =>
      have hrun : g.run = none := by
        by_contra hrun
        simp [LastBlock.pending, hrun] at hpending
      rw [hrun]
      exact ⟨by simp, hbare⟩
  have hrun := hkind ▸ h.touched l hl hne hdeltas
  rw [hrun]
  exact ⟨by simp, h.bare_of_touched hl hdeltas⟩

lemma delta {delta : BlockDelta} (hnative : takeNative c (.contentBlockDelta index delta) = some c')
    (hseparate : Separate last (.contentBlockDelta index delta)) :
    ∃ g', g.step (.contentBlockDelta index delta) = some g' ∧
      InStep (bareAfter bare (.contentBlockDelta index delta))
        (lastAfter last (.contentBlockDelta index delta)) c' g' := by
  have htake := (takeNative_eq_some.mp hnative).2
  obtain ⟨body, -, hopen, hkind, -⟩ := openBlock_delta htake
  match delta with
  | .text text =>
    obtain ⟨l, hl, hlkind, -⟩ := h.reads.last_of_open hopen (hkind ▸ nofun)
    refine ⟨_, rfl, h.deltaNonTool hnative rfl nofun ?_⟩
    rw [← h.bare_text hl (hlkind.trans hkind)]
  | .thinking text =>
    obtain ⟨l, hl, hlkind, -⟩ := h.reads.last_of_open hopen (hkind ▸ nofun)
    obtain ⟨hrun, hbare⟩ := h.bare_thinking hl (hlkind.trans hkind)
    obtain ⟨g', hg', hstep⟩ : ∃ g', g'.bodies = addLast (.thinking text) bare ∧
        g.step (.contentBlockDelta index (.thinking text)) = some g' :=
      ⟨_, by rw [hbare], if_neg hrun⟩
    exact ⟨g', hstep, h.deltaNonTool hnative hstep nofun hg'⟩
  | .signature token =>
    obtain ⟨l, hl, hlkind, -⟩ := h.reads.last_of_open hopen (hkind ▸ nofun)
    have hdeltas := hseparate l hl
    have hlkind : l.opening.kind = .thinking := hlkind.trans hkind
    have hrun := hlkind ▸ h.touched l hl (by simp [hlkind]) hdeltas
    obtain ⟨g', hg', hstep⟩ : ∃ g', g'.bodies = addLast (.signature token) bare ∧
        g.step (.contentBlockDelta index (.signature token)) = some g' :=
      ⟨_, by rw [h.bare_of_touched hl hdeltas], if_pos hrun⟩
    exact ⟨g', hstep, h.deltaNonTool hnative hstep nofun hg'⟩
  | .inputJson text =>
    obtain ⟨n, hn⟩ := isSome_iff_exists.mp (h.tracks.fits (.delta _ _) htake)
    have hstep : g.step (.contentBlockDelta index (.inputJson text)) =
        some { g with bodies := addAt n (.inputJson text) g.bodies } := by
      rw [Regrouped.step, hn]
      rfl
    refine ⟨_, hstep, ?_⟩
    have hlags := h.toLags.delta hnative hstep
    have htools := h.reads.tool_of_open hopen hkind
    have hafter : ∀ l, lastAfter last (.contentBlockDelta index (.inputJson text)) = some l →
        l.opening.kind = .toolUse := by
      intro l hl
      obtain ⟨l', hl', rfl⟩ := map_eq_some_iff.mp hl
      exact htools l' hl'
    have hbare : bare = g.bodies := by
      rw [h.bodies]
      cases hlast : last with
      | none => exact append_nil _
      | some l =>
        rw [show pendingBodies (some l) g.run = [] from pending_of_tool (htools l hlast),
          append_nil]
    refine ⟨hlags, fun _ => h.idle htools, ?_, ?_, ?_, h.same⟩
    · intro l hl hne
      exact (hne (hafter l hl)).elim
    · rw [pending_delta, append_nil]
      rw [h.same index n hn, hbare]
      rfl
    · rw [length_of_delta htake, ← h.length]
      exact length_addAt ..

lemma stop (hnative : takeNative c (.contentBlockStop index) = some c')
    (hseparate : Separate last (.contentBlockStop index)) :
    InStep bare (lastAfter last (.contentBlockStop index)) c'
      { g with tools := update g.tools index none } := by
  have htake := (takeNative_eq_some.mp hnative).2
  have hlags := h.toLags.stop hnative
  refine ⟨hlags, ?_, ?_, ?_, ?_, ?_⟩
  · intro htools
    refine h.idle fun l hl => ?_
    rw [hl] at htools
    exact htools { l with stopped := true } rfl
  · intro l hl hne hnil
    obtain ⟨l', hl', rfl⟩ := map_eq_some_iff.mp hl
    exact (hseparate l' hl' hne hnil).elim
  · rw [h.bodies, pending_stop]
    congr 1
    cases hlast : last with
    | none => rfl
    | some l =>
    by_cases hkind : l.opening.kind = .toolUse
    · exact pending_of_tool hkind
    · exact pending_of_deltas (hseparate l hlast hkind)
  · rw [length_of_stop htake]
    exact h.length
  · intro i n hi
    replace hi : update g.tools index none i = some n := hi
    rw [update_apply] at hi
    split at hi
    · cases hi
    · exact h.same i n hi

/-- **One frame**: the relayed stream stays in step. -/
theorem step (hcontent : IsContent frame)
    (hnative : takeNative c frame = some c') (hseparate : Separate last frame) :
    ∃ g', g.step frame = some g' ∧ InStep (bareAfter bare frame) (lastAfter last frame) c' g' := by
  cases hcontent with
  | ping =>
    cases of_take_ping (takeNative_eq_some.mp hnative).2
    exact ⟨g, rfl, h⟩
  | start index opening =>
    have htools := openTools_of_orderly (takeNative_eq_some.mp hnative).1
    cases opening with
    | text initial =>
      have hrun : g.run ≠ some .text := by
        by_cases hall : ∀ l, last = some l → l.opening.kind = .toolUse
        · simp [h.idle hall]
        push Not at hall
        obtain ⟨l, hl, hkind⟩ := hall
        rw [h.run_of_start htools hl hkind]
        simpa using hseparate l hl
      refine ⟨g, rfl, h.startNonTool hnative rfl (by rintro ⟨⟩) ?_⟩
      simp [LastBlock.pending, hrun, BlockOpening.bare, BlockOpening.body]
    | thinking initial signature =>
      have hrun : g.run = none := h.idle hseparate
      refine ⟨g, rfl, h.startNonTool hnative rfl (by rintro ⟨⟩) ?_⟩
      simp [LastBlock.pending, hrun, BlockOpening.bare, BlockOpening.body]
    | toolUse id name => exact ⟨_, rfl, h.startTool hnative rfl⟩
  | delta index delta => exact h.delta hnative hseparate
  | stop index => exact ⟨_, rfl, h.stop hnative hseparate⟩

/-- A relayed stream that lags is a block behind, when a block starts that opens none. -/
lemma start_lags (hnative : takeNative c (.contentBlockStart index opening) = some c')
    (hstep : g.step (.contentBlockStart index opening) = some g)
    (hpending : LastBlock.pending { opening } g.run = []) : Lags 1 (some { opening }) c' g := by
  obtain ⟨horderly, htake⟩ := takeNative_eq_some.mp hnative
  refine { h.toLags.start hnative hstep with count := ?_ }
  show g.bodies.length + (LastBlock.pending { opening } g.run).length + 1 ≤ _
  rw [hpending, ← h.bare_of_start horderly, h.length, length_of_start htake]
  exact Nat.le_refl _

/-- **One frame**: the relayed stream falls behind, or cannot go on. -/
theorem step_lags (hcontent : IsContent frame)
    (hnative : takeNative c frame = some c') (hseparate : ¬ Separate last frame) :
    g.step frame = none ∨ ∃ g', g.step frame = some g' ∧ Lags 1 (lastAfter last frame) c' g' := by
  match frame with
  | .messageStart _ _ _ _ | .messageDelta _ _ | .messageStop | .error _ | .ping
  | .contentBlockStart _ (.toolUse _ _) | .contentBlockDelta _ (.text _)
  | .contentBlockDelta _ (.thinking _) | .contentBlockDelta _ (.inputJson _) =>
    exact (hseparate trivial).elim
  | .contentBlockStart index (.text initial) =>
    simp only [Separate, not_forall] at hseparate
    obtain ⟨l, hl, hkind⟩ := hseparate
    have hkind : l.opening.kind = .text := by simpa using hkind
    have hrun := h.run_of_start (openTools_of_orderly (takeNative_eq_some.mp hnative).1) hl
    refine .inr ⟨g, rfl, h.start_lags hnative rfl ?_⟩
    simp [LastBlock.pending, hrun, hkind]
  | .contentBlockStart index (.thinking initial signature) =>
    simp only [Separate, not_forall] at hseparate
    obtain ⟨l, hl, hkind⟩ := hseparate
    have hrun := h.run_of_start (openTools_of_orderly (takeNative_eq_some.mp hnative).1) hl hkind
    refine .inr ⟨g, rfl, h.start_lags hnative rfl ?_⟩
    simp [LastBlock.pending, hrun]
  | .contentBlockDelta index (.signature token) =>
    simp only [Separate, not_forall] at hseparate
    obtain ⟨l, hl, hdeltas⟩ := hseparate
    have hdeltas : l.deltas = [] := by simpa using hdeltas
    obtain ⟨body, -, hopen, hkind, -⟩ := openBlock_delta (takeNative_eq_some.mp hnative).2
    obtain ⟨l', hl', hlkind, -⟩ := h.reads.last_of_open hopen (hkind ▸ nofun)
    cases hl.symm.trans hl'
    -- the block is still to be opened, so no thinking is open
    have hpending := (h.untouched l hl (by rw [hlkind, hkind]; simp [BlockDelta.kind]) hdeltas).2
    have hrun : g.run ≠ some .thinking := by
      intro hrun
      obtain ⟨opening, deltas, stopped⟩ := l
      match opening, hlkind.trans hkind with
      | .thinking _ _, _ => simp [LastBlock.pending, hrun] at hpending
    exact .inl (if_neg hrun)
  | .contentBlockStop index =>
    simp only [Separate, not_forall] at hseparate
    obtain ⟨l, hl, hkind, hdeltas⟩ := hseparate
    have hdeltas : l.deltas = [] := by simpa using hdeltas
    refine .inr ⟨_, rfl, { h.toLags.stop hnative with count := ?_ }⟩
    -- the block that was to be opened never is
    have hbare := h.bare_of_untouched hl hkind hdeltas
    rw [pending_stop, length_of_stop (takeNative_eq_some.mp hnative).2, ← h.length, hbare]
    simp

end

end InStep

/-! ## Whole contents -/

/-- The condition at every frame, given the last block before it. -/
def AtEachBlock (P : Option LastBlock → Frame → Prop) (before frames : List Frame) : Prop :=
  Splits.AtEach (fun before frame => P (lastBlock before) frame) before frames

lemma lastBlock_concat (before : List Frame) (frame : Frame) :
    lastBlock (before ++ [frame]) = lastAfter (lastBlock before) frame := by
  rw [lastBlock, foldl_append]
  rfl

lemma atEachBlock_cons {P : Option LastBlock → Frame → Prop} {before frames : List Frame} :
    AtEachBlock P before (frame :: frames) ↔
      P (lastBlock before) frame ∧ AtEachBlock P (before ++ [frame]) frames := Splits.atEach_cons

variable {before content : List Frame} {bare : List BlockBody}

/-- A relayed stream in step is regrouped to the end. -/
lemma InStep.run (h : InStep bare (lastBlock before) c g) (hrun : ContentRun c content c')
    (hseparate : AtEachBlock Separate before content) :
    ∃ g' last, content.foldlM Regrouped.step g = some g' ∧
      InStep (content.foldl bareAfter bare) last c' g' := by
  induction hrun generalizing bare before g with
  | nil => exact ⟨g, _, rfl, h⟩
  | cons hframe hfirst _ ih =>
  obtain ⟨hhere, hthere⟩ := atEachBlock_cons.mp hseparate
  obtain ⟨g₁, hstep, hinstep⟩ := h.step hframe hfirst hhere
  rw [← lastBlock_concat] at hinstep
  obtain ⟨g', last, hsteps, hlast⟩ := ih hinstep hthere
  refine ⟨g', last, ?_, hlast⟩
  rw [foldlM_cons, hstep]
  exact hsteps

/-- A relayed stream that is behind stays behind to the end. -/
lemma Lags.run (h : Lags δ last c g) (hrun : ContentRun c content c')
    (hsteps : content.foldlM Regrouped.step g = some g') : ∃ last', Lags δ last' c' g' := by
  induction hrun generalizing last g with
  | nil =>
    cases hsteps
    exact ⟨last, h⟩
  | cons hframe hfirst _ ih =>
  obtain ⟨g₁, hstep, hsteps⟩ := bind_eq_some_iff.mp hsteps
  exact ih (h.step hframe hfirst hstep) hsteps

/-- A relayed stream falls behind at the first block that is not separate. -/
lemma InStep.run_lags (h : InStep bare (lastBlock before) c g) (hrun : ContentRun c content c')
    (hseparate : ¬ AtEachBlock Separate before content)
    (hsteps : content.foldlM Regrouped.step g = some g') : ∃ last, Lags 1 last c' g' := by
  induction hrun generalizing bare before g with
  | nil => exact (hseparate Splits.atEach_nil).elim
  | @cons _ _ _ frame _ hframe hfirst hrest ih =>
  obtain ⟨g₁, hstep, hsteps⟩ := bind_eq_some_iff.mp hsteps
  by_cases hhere : Separate (lastBlock before) frame
  · obtain ⟨g₂, hstep', hinstep⟩ := h.step hframe hfirst hhere
    cases hstep.symm.trans hstep'
    rw [← lastBlock_concat] at hinstep
    exact ih hinstep (fun hthere => hseparate (atEachBlock_cons.mpr ⟨hhere, hthere⟩)) hsteps
  rcases h.step_lags hframe hfirst hhere with hnone | ⟨g₂, hstep', hlags⟩
  · rw [hnone] at hstep
    cases hstep
  cases hstep.symm.trans hstep'
  exact hlags.run hrest hsteps

/-- **The regrouped blocks** are those of the native stream exactly when every block
is separate and starts with nothing that is lost. -/
theorem regrouped_iff (usage : Engine.StreamUsage)
    (hrun : ContentRun { phase := .content, usage } content c') (hstopped : c'.AllStopped) :
    (∃ g', content.foldlM Regrouped.step {} = some g' ∧ g'.bodies = c'.bodies) ↔
      AtEachBlock Separate [] content ∧ content.foldl bareAfter [] = c'.bodies := by
  have hstart : InStep [] (lastBlock []) { phase := .content, usage } {} := inStep_start usage
  have htools : ∀ i body, c'.openBlock i = some body → body.kind = .toolUse := by
    intro i body hopen
    rw [openBlock_of_allStopped hstopped] at hopen
    cases hopen
  by_cases hseparate : AtEachBlock Separate [] content
  · obtain ⟨g', last, hsteps, hinstep⟩ := hstart.run hrun hseparate
    have hbodies : content.foldl bareAfter [] = g'.bodies := by
      rw [hinstep.bodies, Lags.pending_nil hinstep.reads htools, append_nil]
    constructor
    · rintro ⟨g'', hsteps', heq⟩
      cases hsteps.symm.trans hsteps'
      exact ⟨hseparate, hbodies.trans heq⟩
    · rintro ⟨-, heq⟩
      exact ⟨g', hsteps, hbodies.symm.trans heq⟩
  refine iff_of_false ?_ (fun hboth => hseparate hboth.1)
  rintro ⟨g', hsteps, heq⟩
  obtain ⟨last, hlags⟩ := hstart.run_lags hrun hseparate hsteps
  have hcount := hlags.count
  rw [← length_bodies, heq] at hcount
  omega

end ToranaEdge.Format.Anthropic
