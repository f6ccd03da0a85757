import Mathlib.Data.List.Induction
import ToranaEdge.Stream.Bindings

/-! # Kind separation

A signature inside an explicit text block covers text, one inside an
explicit thinking block covers thinking.  The scan keeps the two apart by
arm presence: the block's start arms the presence of its kind, and every
materialized span consumes it.

So presence is lost for a second signature of the same block when no delta
came in between, and the two kinds' second signatures look alike.  This file
relates the validation walk to the scan along a stream and shows that this
is the only way presence is lost. -/

namespace ToranaEdge

open Reserve List ScanState

/-! ## The open block and its signatures -/

/-- The explicit non-tool block open after an event, given the one before. -/
def blockAfter (kind : Option OpenBlockKind) (ev : StreamEvent) : Option OpenBlockKind :=
  match ev.event with
  | some (.contentBlockStart start) => (start.block.bind ContentBlock.nonToolKind).or kind
  | some (.contentBlockStop _) => none
  | _ => kind

/-- The explicit non-tool block open after the events of a valid stream. -/
def openBlock (events : List StreamEvent) : Option OpenBlockKind :=
  events.foldl blockAfter none

/-- The open block is a text or a thinking block. -/
def isTextual : Option OpenBlockKind → Bool
  | some .text => true
  | some .thinking => true
  | _ => false

/-- The `signature_delta` events of a stream, each with the block it stands in
and the binding the scan gives it. -/
def sitesFrom (kind : Option OpenBlockKind) (s : ScanState) :
    List StreamEvent → List (Option OpenBlockKind × SigBinding)
  | [] => []
  | ev :: rest =>
    match ev.event with
    | some (.signatureDelta token) =>
      (kind, s.bindingOf token) :: sitesFrom (blockAfter kind ev) (s.step ev) rest
    | _ => sitesFrom (blockAfter kind ev) (s.step ev) rest

def signatureSites (events : List StreamEvent) : List (Option OpenBlockKind × SigBinding) :=
  sitesFrom none {} events

variable {kind : Option OpenBlockKind} {s : ScanState} {events : List StreamEvent}
  {ev : StreamEvent}

lemma mem_sitesFrom_iff {site : Option OpenBlockKind × SigBinding} :
    site ∈ sitesFrom kind s events ↔ ∃ pre ev post token, events = pre ++ ev :: post ∧
        ev.event = some (.signatureDelta token) ∧
        site = (pre.foldl blockAfter kind, (s.run pre).bindingOf token) := by
  induction events generalizing kind s with
  | nil => simp [sitesFrom]
  | cons ev events ih =>
  have hcons : site ∈ sitesFrom kind s (ev :: events) ↔
      (∃ token, ev.event = some (.signatureDelta token) ∧ site = (kind, s.bindingOf token)) ∨
      site ∈ sitesFrom (blockAfter kind ev) (s.step ev) events := by
    rw [sitesFrom]
    split
    · next token hev => simp [hev]
    next hev =>
    constructor
    · exact .inr
    · rintro (⟨token, h, -⟩ | h)
      · exact absurd h (hev token)
      · exact h
  rw [hcons, ih]
  constructor
  · rintro (⟨token, hev, rfl⟩ | ⟨pre, ev', post, token, rfl, hev, rfl⟩)
    · exact ⟨[], ev, events, token, rfl, hev, rfl⟩
    · exact ⟨ev :: pre, ev', post, token, rfl, hev, rfl⟩
  · rintro ⟨pre, ev', post, token, heq, hev, rfl⟩
    cases pre with
    | nil =>
      obtain ⟨rfl, rfl⟩ := heq
      exact .inl ⟨token, hev, rfl⟩
    | cons ev₀ pre =>
    obtain ⟨rfl, rfl⟩ := heq
    exact .inr ⟨pre, ev', post, token, rfl, hev, rfl⟩

/-! ## Losing the block's presence -/

/-- Events that leave an open block without its presence: a signature, and a
block start that names no block. -/
def disarms (ev : StreamEvent) : Bool :=
  match ev.event with
  | some (.signatureDelta _) => true
  | some (.contentBlockStart start) => start.block.isNone
  | _ => false

/-- Events after which presence is right again, or the block is closed. -/
def rearms (ev : StreamEvent) : Bool :=
  match ev.event with
  | some (.textDelta _) => true
  | some (.thinkingDelta _) => true
  | some (.contentBlockStop _) => true
  | some (.contentBlockStart start) => start.block.isSome
  | _ => false

/-- A signature follows a disarming event of its own explicit text/thinking
block with nothing in between that rearms it. -/
def DisarmedSignature (events : List StreamEvent) : Prop :=
  ∃ pre first mid second post token, events = pre ++ first :: (mid ++ second :: post) ∧
    isTextual (openBlock pre) = true ∧ disarms first = true ∧
    (∀ ev ∈ mid, rearms ev = false) ∧ second.event = some (.signatureDelta token)

/-- Whether the open block is disarmed, event by event. -/
def disarmedAfter (kind : Option OpenBlockKind) (disarmed : Bool) (ev : StreamEvent) : Bool :=
  !rearms ev && (disarms ev && isTextual kind || disarmed)

/-- The open block together with whether it is disarmed. -/
def traceStep (t : Option OpenBlockKind × Bool) (ev : StreamEvent) : Option OpenBlockKind × Bool :=
  (blockAfter t.1 ev, disarmedAfter t.1 t.2 ev)

def trace (events : List StreamEvent) : Option OpenBlockKind × Bool :=
  events.foldl traceStep (none, false)

lemma trace_concat (events : List StreamEvent) (ev : StreamEvent) :
    trace (events ++ [ev]) = traceStep (trace events) ev := by
  simp [trace]

lemma trace_fst (events : List StreamEvent) : (trace events).1 = openBlock events := by
  induction events using reverseRecOn with
  | nil => rfl
  | append_singleton events ev ih =>
    rw [trace_concat, openBlock, foldl_concat]
    exact congrArg (blockAfter · ev) ih

lemma rearms_of_disarms (h : disarms ev = true) : rearms ev = false := by
  unfold disarms at h
  unfold rearms
  split at h
  · next hev => rw [hev]
  · next start hev =>
    rw [hev]
    cases hblock : start.block with
    | none => simp [hblock]
    | some block => simp [hblock] at h
  · cases h

lemma concat_eq_append_cons_iff {α : Type} {xs pre mid : List α} {x first : α} :
    xs ++ [x] = pre ++ first :: mid ↔ (pre = xs ∧ first = x ∧ mid = []) ∨
        ∃ mid', mid = mid' ++ [x] ∧ xs = pre ++ first :: mid' := by
  constructor
  · intro h
    rcases eq_nil_or_concat mid with rfl | ⟨mid', last, rfl⟩
    · obtain ⟨hpre, hlast⟩ := append_inj' h rfl
      exact .inl ⟨hpre.symm, (singleton_inj.mp hlast).symm, rfl⟩
    have hsnoc : xs ++ [x] = (pre ++ first :: mid') ++ [last] := by simpa using h
    obtain ⟨hxs, hlast⟩ := append_inj' hsnoc rfl
    exact .inr ⟨mid', by simp [hlast], hxs⟩
  · rintro (⟨rfl, rfl, rfl⟩ | ⟨mid', rfl, rfl⟩)
    · rfl
    · simp

/-- A disarmed block was disarmed by an event of that block, and nothing has
rearmed it since. -/
lemma trace_disarmed_iff (events : List StreamEvent) : (trace events).2 = true ↔
      ∃ pre first mid, events = pre ++ first :: mid ∧ isTextual (openBlock pre) = true ∧
        disarms first = true ∧ ∀ ev ∈ mid, rearms ev = false := by
  induction events using reverseRecOn with
  | nil => simp [trace]
  | append_singleton events ev ih =>
  have hsnd : (trace (events ++ [ev])).2 = true ↔ rearms ev = false ∧
        ((disarms ev = true ∧ isTextual (openBlock events) = true) ∨ (trace events).2 = true) := by
    rw [trace_concat, ← trace_fst]
    simp [traceStep, disarmedAfter]
  rw [hsnd, ih]
  constructor
  · rintro ⟨hquiet, ⟨hdis, hkind⟩ | ⟨pre, first, mid, rfl, hkind, hdis, hmid⟩⟩
    · exact ⟨events, ev, [], rfl, hkind, hdis, by simp⟩
    · refine ⟨pre, first, mid ++ [ev], by simp, hkind, hdis, ?_⟩
      intro e he
      rcases mem_append.mp he with he | he
      · exact hmid e he
      · rw [mem_singleton.mp he]
        exact hquiet
  · rintro ⟨pre, first, mid, heq, hkind, hdis, hmid⟩
    rcases concat_eq_append_cons_iff.mp heq with ⟨rfl, rfl, rfl⟩ | ⟨mid', rfl, rfl⟩
    · exact ⟨rearms_of_disarms hdis, .inl ⟨hdis, hkind⟩⟩
    · exact ⟨hmid ev (by simp), .inr ⟨pre, first, mid', rfl, hkind, hdis,
        fun e he => hmid e (by simp [he])⟩⟩

/-- Between a disarming event and a signature with nothing rearming, the block
stays the same one. -/
lemma blockAfter_of_quiet (h : rearms ev = false) : blockAfter kind ev = kind := by
  unfold rearms at h
  unfold blockAfter
  split
  · next start hev =>
    rw [hev] at h
    cases hblock : start.block with
    | none => simp
    | some block => simp [hblock] at h
  · next hev =>
    rw [hev] at h
    cases h
  · rfl

/-- Only a text or thinking block is disarmed. -/
lemma isTextual_of_disarmed (h : (trace events).2 = true) : isTextual (trace events).1 = true := by
  induction events using reverseRecOn with
  | nil => cases h
  | append_singleton events ev ih =>
    rw [trace_concat] at h ⊢
    simp only [traceStep, disarmedAfter, Bool.and_eq_true, Bool.or_eq_true,
      Bool.not_eq_true'] at h ⊢
    rw [blockAfter_of_quiet h.1]
    exact h.2.elim And.right ih

/-- A disarmed signature, seen from the event that carries it. -/
lemma disarmedSignature_iff (events : List StreamEvent) : DisarmedSignature events ↔
      ∃ pre ev post token, events = pre ++ ev :: post ∧ ev.event = some (.signatureDelta token) ∧
        (trace pre).2 = true := by
  constructor
  · rintro ⟨pre, first, mid, second, post, token, rfl, hkind, hdis, hmid, hsig⟩
    exact ⟨pre ++ first :: mid, second, post, token, by simp, hsig,
      (trace_disarmed_iff _).mpr ⟨pre, first, mid, rfl, hkind, hdis, hmid⟩⟩
  · rintro ⟨pre', ev, post, token, rfl, hsig, htrace⟩
    obtain ⟨pre, first, mid, rfl, hkind, hdis, hmid⟩ := (trace_disarmed_iff _).mp htrace
    exact ⟨pre, first, mid, ev, post, token, by simp, hkind, hdis, hmid, hsig⟩

/-- The presence a span carries in an explicit text or thinking block, armed or
disarmed. -/
def Presence (span : TypedContent) : Option OpenBlockKind × Bool → Prop
  | (some .text, false) => span.textSeen = true
  | (some .thinking, false) => span.thinkingSeen = true ∧ span.textSeen = false
  | (some .text, true) => span = {}
  | (some .thinking, true) => span = {}
  | _ => True

variable {span : TypedContent} {t : Option OpenBlockKind × Bool}

lemma presence_of_not_textual (h : isTextual t.1 = false) : Presence span t := by
  rcases t with ⟨_ | _ | _ | _, _⟩ <;> trivial

lemma presence_disarmed (h : isTextual t.1 = true → span = {}) :
    Presence span (t.1, isTextual t.1 || t.2) := by
  rcases t with ⟨_ | _ | _ | _, _⟩ <;> first | exact h rfl | trivial

lemma presence_armed_iff : Presence span (kind, false) ↔
      (kind = some .text → span.textSeen = true) ∧
      (kind = some .thinking → span.thinkingSeen = true ∧ span.textSeen = false) := by
  rcases kind with _ | _ | _ | _ <;> simp [Presence]

/-- The empty span carries no presence at all. -/
lemma Presence.not_disarmed (h : Presence span t) (harmed : Presence span (t.1, false))
    (htx : isTextual t.1 = true) : t.2 = false := by
  rcases t with ⟨_ | _ | _ | _, _ | _⟩ <;> simp_all [Presence, isTextual]

/-! ## The validation walk and the scan in step -/

variable {start : ContentBlockStart}

namespace ScanState

/-- A signature in an open text/thinking block consumes the span. -/
lemma signatureDelta_span (h : (s.blockOpen && s.blockText) = true)
    (token : String) : (s.signatureDelta token).span = {} := by
  unfold signatureDelta
  rw [if_pos (by simp [h])]
  split
  · rfl
  · simp

/-- Starting a non-tool block arms exactly the presence of its kind. -/
lemma contentBlockStart_nonTool {block : ContentBlock}
    {k : OpenBlockKind} (hblock : start.block = some block) (hkind : block.nonToolKind = some k) :
    let s' := s.contentBlockStart start
    s'.blockOpen = true ∧ s'.blockText = isTextual (some k) ∧ s'.openTools = s.openTools ∧
      Presence s'.span (some k, false) := by
  cases block <;> cases hkind <;> simp [contentBlockStart, hblock, isTextual, Presence]

lemma contentBlockStart_toolCall
    {call : ToolCallRef} (hblock : start.block = some (.toolCall call)) :
    (s.contentBlockStart start).blockOpen = s.blockOpen ∧
      (s.contentBlockStart start).blockText = s.blockText ∧
      ∀ i, (∃ b ∈ (s.contentBlockStart start).openTools, b.index = i) ↔
        i = start.index ∨ ∃ b ∈ s.openTools, b.index = i := by
  by_cases hopen : (s.openTools.any fun b => b.index == start.index) = true
  · have hscan : s.contentBlockStart start = s.closeSpan := by
      simp [contentBlockStart, hblock, hopen]
    rw [hscan]
    refine ⟨by simp, by simp, ?_⟩
    intro i
    simp only [closeSpan_frame]
    constructor
    · exact .inr
    · rintro (rfl | h)
      · simpa using hopen
      · exact h
  · have hscan : (s.contentBlockStart start).openTools = s.openTools ++ [{
        index := start.index, signature := call.signature, id := call.id,
        name := call.name, kind := call.invocationKind }] := by
      simp [contentBlockStart, hblock, hopen]
    refine ⟨by simp [contentBlockStart, hblock, hopen],
      by simp [contentBlockStart, hblock, hopen], ?_⟩
    intro i
    rw [hscan]
    simp only [mem_append, mem_singleton, or_and_right, exists_or, exists_eq_left]
    rw [or_comm, eq_comm]

variable {index : Int32}

/-- A stop of an open tool block closes that block only. -/
lemma contentBlockStop_tool (h : ∃ b ∈ s.openTools, b.index = index) :
    (s.contentBlockStop index).blockOpen = s.blockOpen ∧
      (s.contentBlockStop index).blockText = s.blockText ∧
      (s.contentBlockStop index).openTools = s.openTools.filter fun b => b.index != index := by
  obtain ⟨b, hb, hi⟩ := h
  cases hfind : s.openTools.find? fun b => b.index == index with
  | none =>
    have := find?_eq_none.mp hfind b hb
    simp [hi] at this
  | some b' => simp [contentBlockStop, hfind]

/-- Any other stop closes the explicit block. -/
lemma contentBlockStop_other (h : ¬ ∃ b ∈ s.openTools, b.index = index) :
    (s.contentBlockStop index).blockOpen = false ∧ (s.contentBlockStop index).blockText = false ∧
      (s.contentBlockStop index).openTools = s.openTools := by
  have hfind : (s.openTools.find? fun b => b.index == index) = none := by
    rw [find?_eq_none]
    intro b hb hi
    exact h ⟨b, hb, by simpa using hi⟩
  refine ⟨by simp [contentBlockStop, hfind], by simp [contentBlockStop, hfind], ?_⟩
  simp only [contentBlockStop, hfind, closeSpan_frame]
  split <;> rfl

end ScanState

/-- The validation walk, the scan and the trace agree on the open block and the
open tools, and the scan's presence flags are those of the open block unless
it is disarmed. -/
structure Tracks (v : AcceptedState) (s : ScanState) (t : Option OpenBlockKind × Bool) :
    Prop where
  kind : v.nonTool.map OpenNonTool.kind = t.1
  exclusive : t.1.isSome = true → v.openTools = []
  tools : ∀ i, (∃ b ∈ s.openTools, b.index = i) ↔ ∃ u ∈ v.openTools, u.1 = i
  blockOpen : s.blockOpen = t.1.isSome
  blockText : s.blockText = isTextual t.1
  presence : Presence s.span t

namespace Tracks

variable {v v' : AcceptedState} {s : ScanState} {i : Nat}

lemma init : Tracks {} {} (none, false) := by
  constructor <;> simp [isTextual, Presence]

lemma openTools_eq_nil (h : Tracks v s t) (htools : v.openTools = []) : s.openTools = [] := by
  rw [eq_nil_iff_forall_not_mem]
  intro b hb
  obtain ⟨u, hu, -⟩ := (h.tools b.index).mp ⟨b, hb, rfl⟩
  rw [htools] at hu
  cases hu

/-- Inside a block no tool is open. -/
lemma openTools_nil (h : Tracks v s t) (ht : t.1.isSome = true) : s.openTools = [] :=
  h.openTools_eq_nil (h.exclusive ht)

lemma isSome_of_isTextual (h : isTextual kind = true) : kind.isSome = true := by
  cases kind with
  | none => cases h
  | some _ => rfl

section

variable (h : Tracks v s t)
include h

lemma contentBlockStart (hev : ev.event = some (.contentBlockStart start))
    (hv : v.Moves (some (.contentBlockStart start)) v') :
    Tracks v' (s.contentBlockStart start) (traceStep t ev) := by
  cases hv with
  | armless _ hblock =>
    -- a start without a block: the open block loses its presence
    have htrace : traceStep t ev = (t.1, isTextual t.1 || t.2) := by
      simp [traceStep, blockAfter, disarmedAfter, rearms, disarms, hev, hblock]
    have hscan : s.contentBlockStart start = s.closeSpan := by
      simp [contentBlockStart, hblock]
    rw [htrace, hscan]
    exact ⟨h.kind, h.exclusive, by simpa using h.tools, by simpa using h.blockOpen,
      by simpa using h.blockText, presence_disarmed fun _ => by simp⟩
  | @block _ _ k _ hblock hkind _ htools =>
    obtain ⟨hopen, htext, hst, hpresence⟩ := contentBlockStart_nonTool (s := s) hblock hkind
    have htrace : traceStep t ev = (some k, false) := by
      simp [traceStep, blockAfter, disarmedAfter, rearms, hev, hblock, hkind]
    rw [htrace]
    exact ⟨rfl, fun _ => htools, hst ▸ h.tools, hopen, htext, hpresence⟩
  | toolCall _ hblock hnone =>
    obtain ⟨hopen, htext, hst⟩ := contentBlockStart_toolCall (s := s) hblock
    have ht : t.1 = none := by simpa [hnone] using h.kind.symm
    have htrace : traceStep t ev = (none, false) := by
      simp [traceStep, blockAfter, disarmedAfter, rearms, hev, hblock, ContentBlock.nonToolKind, ht]
    rw [htrace]
    refine ⟨by simp [hnone], by simp, ?_, by rw [hopen, h.blockOpen, ht],
      by rw [htext, h.blockText, ht], trivial⟩
    intro j
    rw [hst, h.tools j]
    simp [eq_comm]

lemma contentBlockStop {stop : ContentBlockStop} (hev : ev.event = some (.contentBlockStop stop))
    (hv : v.Moves (some (.contentBlockStop stop)) v') :
    Tracks v' (s.contentBlockStop stop.index) (traceStep t ev) := by
  have htrace : traceStep t ev = (none, false) := by
    simp [traceStep, blockAfter, disarmedAfter, rearms, hev]
  rw [htrace]
  cases hv with
  | toolStop hopen =>
    have hex := AcceptedState.lookup_isSome_iff.mp hopen
    -- with a tool open there is no explicit block
    have ht : t.1 = none := by
      by_contra hsome
      obtain ⟨u, hu, -⟩ := hex
      rw [h.exclusive (Option.isSome_iff_ne_none.mpr hsome)] at hu
      cases hu
    obtain ⟨hopen, htext, hst⟩ := contentBlockStop_tool ((h.tools stop.index).mpr hex)
    refine ⟨h.kind.trans ht, by simp, ?_, by rw [hopen, h.blockOpen, ht],
      by rw [htext, h.blockText, ht], trivial⟩
    intro j
    rw [hst]
    simp only [mem_filter]
    constructor
    · rintro ⟨b, ⟨hb, hne⟩, rfl⟩
      obtain ⟨u, hu, huj⟩ := (h.tools b.index).mp ⟨b, hb, rfl⟩
      exact ⟨u, ⟨hu, huj ▸ hne⟩, huj⟩
    · rintro ⟨u, ⟨hu, hne⟩, rfl⟩
      obtain ⟨b, hb, hbj⟩ := (h.tools u.1).mpr ⟨u, hu, rfl⟩
      exact ⟨b, ⟨hb, hbj ▸ hne⟩, hbj⟩
  | blockStop hno _ =>
    have hclosed : ¬ ∃ b ∈ s.openTools, b.index = stop.index := by
      rw [h.tools, ← AcceptedState.lookup_isSome_iff, hno]
      nofun
    obtain ⟨hopen, htext, hst⟩ := contentBlockStop_other hclosed
    exact ⟨rfl, by simp, hst ▸ h.tools, hopen, htext, trivial⟩

/-- A delta the validation takes is not ignored by the scan. -/
lemma not_ignored {kind : OpenBlockKind} (hkind : isTextual (some kind) = true)
    (hv : v.InContent kind) : s.ignoresContent = false := by
  have hopen := h.kind
  unfold ignoresContent
  rcases hv with ⟨index, hv⟩ | ⟨hnone, htools⟩
  · rw [hv] at hopen
    rw [h.blockText, h.openTools_nil (by rw [← hopen]; rfl), ← hopen]
    simp [hkind]
  · rw [hnone] at hopen
    rw [h.blockOpen, ← hopen, h.openTools_eq_nil htools]
    rfl

/-- A delta of the block's own kind, or outside any block. -/
lemma delta {kind : OpenBlockKind} (htrace : traceStep t ev = (t.1, false))
    (hwhere : v.InContent kind)
    (hspan : ∀ disarmed, Presence s.span (some kind, disarmed) → Presence span (some kind, false)) :
    Tracks { v with spanOpen := true, sawText := true }
      { s with sawText := true, spanOpen := true, span } (traceStep t ev) := by
  rw [htrace]
  refine ⟨h.kind, h.exclusive, h.tools, h.blockOpen, h.blockText, ?_⟩
  obtain ⟨_ | k, disarmed⟩ := t
  · trivial
  -- a block that is open is of the delta's own kind
  have hvk := h.kind
  rcases hwhere with ⟨index, hopened⟩ | ⟨hnone, -⟩
  · rw [hopened] at hvk
    cases hvk
    exact hspan disarmed h.presence
  · rw [hnone] at hvk
    cases hvk

lemma signatureDelta {token : String}
    (hev : ev.event = some (.signatureDelta token)) (hnt : v'.nonTool = v.nonTool)
    (htools : v'.openTools = v.openTools) :
    Tracks v' (s.signatureDelta token) (traceStep t ev) := by
  obtain ⟨-, -, -, hopen, htext, hst⟩ := signatureDelta_frame s token
  have htrace : traceStep t ev = (t.1, isTextual t.1 || t.2) := by
    simp [traceStep, blockAfter, disarmedAfter, rearms, disarms, hev]
  rw [htrace]
  refine ⟨by rw [hnt, h.kind], htools ▸ h.exclusive, by rw [hst, htools]; exact h.tools,
    by rw [hopen, h.blockOpen], by rw [htext, h.blockText], presence_disarmed ?_⟩
  intro htx
  apply signatureDelta_span
  rw [h.blockOpen, h.blockText, htx, isSome_of_isTextual htx]
  rfl

/-- **One event.**  The three walks stay in step on every event the validation
walk accepts. -/
theorem step (hv : v.step i ev = .ok v') : Tracks v' (s.step ev) (traceStep t ev) := by
  obtain ⟨-, -, hmoves⟩ := AcceptedState.step_moves hv
  obtain ⟨arm, unknown⟩ := ev
  cases hmoves with
  | absent | error _ | usage _ | messageStart _ | messageStop _ _ _ =>
    -- events outside the block topology change nothing any of the walks tracks
    exact { h with }
  | block hnew hblock hkind hnone htools =>
    exact h.contentBlockStart rfl (.block hnew hblock hkind hnone htools)
  | toolCall hnew hblock hnone => exact h.contentBlockStart rfl (.toolCall hnew hblock hnone)
  | armless hnew hblock => exact h.contentBlockStart rfl (.armless hnew hblock)
  | toolStop hopen => exact h.contentBlockStop rfl (.toolStop hopen)
  | blockStop hno hopen => exact h.contentBlockStop rfl (.blockStop hno hopen)
  | current token _ | trailing token _ _ _ _ => exact h.signatureDelta rfl rfl rfl
  | @fragment delta _ _ _ =>
    refine { h with tools := fun j => ?_ }
    rw [← h.tools j]
    -- fragments are appended in place, under unchanged indexes
    constructor
    · rintro ⟨b, hb, rfl⟩
      obtain ⟨b₀, hb₀, rfl⟩ := mem_map.mp hb
      exact ⟨b₀, hb₀, by split <;> rfl⟩
    · rintro ⟨b, hb, rfl⟩
      exact ⟨_, mem_map_of_mem hb, by split <;> rfl⟩
  | textDelta text hwhere =>
    show Tracks _ (s.textDelta text) _
    rw [textDelta, if_neg (by simp [h.not_ignored rfl hwhere])]
    exact h.delta rfl hwhere fun _ _ => rfl
  | thinkingDelta text hwhere =>
    show Tracks _ (s.thinkingDelta text) _
    rw [thinkingDelta, if_neg (by simp [h.not_ignored rfl hwhere])]
    refine h.delta rfl hwhere fun disarmed hpresence => ⟨rfl, ?_⟩
    cases disarmed with
    | false => exact hpresence.2
    | true => exact congrArg TypedContent.textSeen hpresence

lemma run (hv : v.run i events = .ok v') : Tracks v' (s.run events) (events.foldl traceStep t) := by
  induction events generalizing v s t i with
  | nil =>
    cases hv
    exact h
  | cons ev events ih =>
    obtain ⟨v₁, hstep, hrest⟩ := AcceptedState.run_cons_ok.mp hv
    exact ih (h.step hstep) hrest

end

end Tracks

/-- A stream that validates is tracked at every point. -/
lemma tracks_of_validateAcceptedStream {pre post : List StreamEvent}
    (h : validateAcceptedStream (pre ++ post) = .ok ()) :
    ∃ v, Tracks v (run {} pre) (trace pre) := by
  obtain ⟨v, hpre⟩ := run_of_validateAcceptedStream h
  exact ⟨v, Tracks.init.run hpre⟩

/-! ## Kind separation -/

/-- Every current-block binding carries the presence of the explicit block its
signature was emitted in. -/
def KindMarked (events : List StreamEvent) : Prop :=
  ∀ site ∈ signatureSites events, site.2.kind = .current →
    (site.1 = some .text → site.2.content.textSeen = true) ∧
      (site.1 = some .thinking →
        site.2.content.thinkingSeen = true ∧ site.2.content.textSeen = false)

/-- No accepted token of a text block is an exact match for a returned token of
a thinking block, nor the reverse. -/
def NoCrossKindMatch (accepted returned : List StreamEvent) : Prop :=
  ∀ a ∈ signatureSites accepted, ∀ r ∈ signatureSites returned,
    a.2.kind = .current → r.2.kind = .current →
      (a.1 = some .text ∧ r.1 = some .thinking ∨ a.1 = some .thinking ∧ r.1 = some .text) →
        sameToken r.2 a.2 = false

/-- In an explicit text/thinking block a signature is current and covers the
span as it stands. -/
lemma Tracks.bindingOf {v : AcceptedState} {t : Option OpenBlockKind × Bool}
    (h : Tracks v s t) (htx : isTextual t.1 = true) (token : String) :
    (s.bindingOf token).kind = .current ∧ (s.bindingOf token).content = s.span := by
  have hcur : (s.spanOpen || (s.blockOpen && s.blockText)) = true := by
    rw [h.blockOpen, h.blockText, htx, isSome_of_isTextual htx]
    simp
  simp [ScanState.bindingOf, hcur]

/-- **Presence is kept exactly where no signature is disarmed.** -/
theorem kindMarked_iff (hvalid : validateAcceptedStream events = .ok ()) :
    KindMarked events ↔ ¬ DisarmedSignature events := by
  rw [disarmedSignature_iff]
  constructor
  · rintro hmarked ⟨pre, ev, post, token, rfl, hev, hdis⟩
    obtain ⟨v, htrack⟩ := tracks_of_validateAcceptedStream hvalid
    have htx := isTextual_of_disarmed hdis
    obtain ⟨hkind, hcontent⟩ := htrack.bindingOf htx token
    have harmed := presence_armed_iff.mpr (hmarked _
      (mem_sitesFrom_iff.mpr ⟨pre, ev, post, token, rfl, hev, rfl⟩) hkind)
    rw [hcontent] at harmed
    -- the span it binds would carry its kind and be empty
    have hfalse := htrack.presence.not_disarmed (by rw [trace_fst]; exact harmed) htx
    cases hdis.symm.trans hfalse
  · intro hclean site hsite _
    obtain ⟨pre, ev, post, token, rfl, hev, rfl⟩ := mem_sitesFrom_iff.mp hsite
    obtain ⟨v, htrack⟩ := tracks_of_validateAcceptedStream hvalid
    rw [← presence_armed_iff]
    show Presence _ (openBlock pre, false)
    rw [← trace_fst]
    cases htx : isTextual (trace pre).1 with
    | false => exact presence_of_not_textual htx
    | true =>
    have hdis : (trace pre).2 = false := by
      by_contra hdis
      exact hclean ⟨pre, ev, post, token, rfl, hev, by simpa using hdis⟩
    rw [(htrack.bindingOf htx token).2]
    exact hdis ▸ htrack.presence

lemma noCrossKindMatch_of_kindMarked {accepted returned : List StreamEvent}
    (hacc : KindMarked accepted) (hret : KindMarked returned) :
    NoCrossKindMatch accepted returned := by
  intro a ha r hr hka hkr hkinds
  rw [Bool.eq_false_iff]
  intro hmatch
  have hcontent : a.2.content = r.2.content := by
    simp only [sameToken, Bool.and_eq_true, beq_iff_eq] at hmatch
    exact hmatch.2.2
  rcases hkinds with ⟨hat, hrt⟩ | ⟨hat, hrt⟩
  · have htext := (hacc a ha hka).1 hat
    have hno := ((hret r hr hkr).2 hrt).2
    rw [hcontent, hno] at htext
    cases htext
  have htext := (hret r hr hkr).1 hrt
  have hno := ((hacc a ha hka).2 hat).2
  rw [hcontent, htext] at hno
  cases hno

/-- **Kind separation** holds of two valid streams exactly when neither has a
disarmed signature. -/
theorem kindSeparation_iff (accepted returned : List StreamEvent)
    (hacc : validateAcceptedStream accepted = .ok ())
    (hret : validateAcceptedStream returned = .ok ()) :
    (KindMarked accepted ∧ KindMarked returned ∧ NoCrossKindMatch accepted returned) ↔
      ¬ DisarmedSignature accepted ∧ ¬ DisarmedSignature returned := by
  rw [← kindMarked_iff hacc, ← kindMarked_iff hret]
  constructor
  · rintro ⟨ha, hr, -⟩
    exact ⟨ha, hr⟩
  · rintro ⟨ha, hr⟩
    exact ⟨ha, hr, noCrossKindMatch_of_kindMarked ha hr⟩

/-- A signed text block against a signed thinking block. -/
theorem kindSeparation_one_signature : (KindMarked [.startText 0, .signatureDelta "sig", .stop 0] ∧
        KindMarked [.startThinking 0, .signatureDelta "sig", .stop 0] ∧
        NoCrossKindMatch [.startText 0, .signatureDelta "sig", .stop 0]
          [.startThinking 0, .signatureDelta "sig", .stop 0]) ↔
      ¬ DisarmedSignature [.startText 0, .signatureDelta "sig", .stop 0] ∧
        ¬ DisarmedSignature [.startThinking 0, .signatureDelta "sig", .stop 0] :=
  kindSeparation_iff _ _ (by decide) (by decide)

/-- The second signature of an explicit block loses the block's presence, and
the second token of a text block then exactly matches the second token of a
thinking block. -/
theorem kindSeparation_second_signature : validateAcceptedStream
        [.startText 0, .signatureDelta "a", .signatureDelta "b", .stop 0] = .ok () ∧
      validateAcceptedStream
        [.startThinking 0, .signatureDelta "c", .signatureDelta "b", .stop 0] = .ok () ∧
      ¬ KindMarked [.startText 0, .signatureDelta "a", .signatureDelta "b", .stop 0] ∧
      ¬ NoCrossKindMatch [.startText 0, .signatureDelta "a", .signatureDelta "b", .stop 0]
        [.startThinking 0, .signatureDelta "c", .signatureDelta "b", .stop 0] := by
  refine ⟨by decide, by decide, ?_, ?_⟩
  · intro h
    have hsite := h (some .text, { kind := .current, signature := "b", span := some 1 })
      (by decide) rfl
    exact absurd (hsite.1 rfl) (by decide)
  · intro h
    have hcross := h (some .text, { kind := .current, signature := "b", span := some 1 })
      (by decide) (some .thinking, { kind := .current, signature := "b", span := some 1 })
      (by decide) rfl rfl (.inl ⟨rfl, rfl⟩)
    exact absurd hcross (by decide)

end ToranaEdge
