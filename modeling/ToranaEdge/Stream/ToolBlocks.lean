import ToranaEdge.Stream.Kinds

/-! # The tool blocks of a stream

The scan assembles tool scopes while blocks are open and records a scope at
its stop.  Read off the whole stream instead, a tool block is a start with
all the fragments that name its index.  On a stream that validates the two
agree, up to the order in which the blocks close. -/

namespace ToranaEdge

open List ScanState AcceptedState

/-! ## Blocks read off the stream -/

/-- The block a tool start opens, still without fragments. -/
def toolStart (ev : StreamEvent) : Option ToolCallScope :=
  match ev.event with
  | some (.contentBlockStart start) =>
    match start.block with
    | some (.toolCall call) =>
      some { index := start.index, signature := call.signature, id := call.id,
             name := call.name, kind := call.invocationKind }
    | _ => none
  | _ => none

/-- The block after an event: a fragment with its index extends it. -/
def ToolCallScope.receive (b : ToolCallScope) (ev : StreamEvent) : ToolCallScope :=
  match ev.event with
  | some (.toolCallDelta delta) =>
    if b.index == delta.index then
      { b with arguments := b.arguments ++ delta.argumentsDelta
               inputSeen := b.inputSeen || delta.inputTextDelta.isSome
               input := b.input ++ delta.inputTextDelta.getD "" }
    else b
  | _ => b

open ToolCallScope (receive)

/-- Every tool block of the stream, in the order of the starts. -/
def toolBlocks (events : List StreamEvent) : List ToolCallScope :=
  (events.filterMap toolStart).map fun b => events.foldl receive b

@[simp] lemma ToolCallScope.receive_index (b : ToolCallScope) (ev : StreamEvent) :
    (b.receive ev).index = b.index := by
  unfold receive
  split
  · split <;> rfl
  · rfl

variable {b : ToolCallScope} {ev : StreamEvent}

lemma ToolCallScope.receive_of_ne
    (h : ∀ delta, ev.event = some (.toolCallDelta delta) → b.index ≠ delta.index) :
    b.receive ev = b := by
  unfold receive
  split
  · next delta hev => simp [h delta hev]
  · rfl

lemma toolBlocks_concat (events : List StreamEvent) (ev : StreamEvent) :
    toolBlocks (events ++ [ev]) = (toolBlocks events).map (receive · ev) ++
      ((toolStart ev).map fun b => (events.foldl receive b).receive ev).toList := by
  simp only [toolBlocks]
  cases hev : toolStart ev <;> simp [hev]

/-! ## The scan records them all -/

/-- The index an event starts. -/
def startedIndex (ev : StreamEvent) : Option Int32 :=
  match ev.event with
  | some (.contentBlockStart start) => some start.index
  | _ => none

lemma toolStart_index (h : toolStart ev = some b) : startedIndex ev = some b.index := by
  unfold toolStart at h
  split at h
  · next start hev =>
    split at h <;> cases h
    simp [startedIndex, hev]
  · cases h

namespace AcceptedState

/-- The validation walk refuses a started index it has seen, and only an error
aborts the stream. -/
lemma step_seen {v v' : AcceptedState} {i : Nat} (h : v.step i ev = .ok v') :
    v'.seen = (startedIndex ev).toList ++ v.seen ∧ (∀ k ∈ startedIndex ev, k ∉ v.seen) ∧
      ((∀ e, ev.event ≠ some (.error e)) → v'.sawError = v.sawError) := by
  obtain ⟨-, -, hmoves⟩ := step_moves h
  obtain ⟨arm, unknown⟩ := ev
  cases hmoves with
  | error _ => exact ⟨rfl, nofun, fun hno => absurd rfl (hno _)⟩
  | block hnew _ _ _ _ | toolCall hnew _ _ | armless hnew _ =>
    refine ⟨rfl, ?_, fun _ => rfl⟩
    rintro k ⟨⟩
    exact hnew
  | absent | usage _ | messageStart _ | messageStop _ _ _ | toolStop _ | blockStop _ _
  | textDelta _ _ | thinkingDelta _ _ | current _ _ | trailing _ _ _ _ _ | fragment _ _ =>
    exact ⟨rfl, nofun, fun _ => rfl⟩

lemma sawError_of_run {v v' : AcceptedState} {i : Nat} {events : List StreamEvent}
    (hv : v.sawError = false) (hnone : ∀ ev ∈ events, ∀ e, ev.event ≠ some (.error e))
    (h : v.run i events = .ok v') : v'.sawError = false := by
  induction events generalizing v i with
  | nil =>
    cases h
    exact hv
  | cons ev events ih =>
  obtain ⟨v₁, hstep, hrest⟩ := run_cons_ok.mp h
  have hsame := (step_seen hstep).2.2 (hnone ev (by simp))
  exact ih (hsame.trans hv) (fun ev' hev' => hnone ev' (mem_cons_of_mem ev hev')) hrest

end AcceptedState

lemma filter_index_eq {tools : List ToolCallScope}
    (hnodup : (tools.map ToolCallScope.index).Nodup) (hb : b ∈ tools) :
    (tools.filter fun o => o.index == b.index) = [b] := by
  induction tools with
  | nil => cases hb
  | cons o tools ih =>
  rw [map_cons, nodup_cons] at hnodup
  rcases mem_cons.mp hb with rfl | hb
  · have hrest : (tools.filter fun o => o.index == b.index) = [] := by
      rw [filter_eq_nil_iff]
      intro o ho heq
      exact hnodup.1 (mem_map.mpr ⟨o, ho, by simpa using heq⟩)
    simp [hrest]
  · have hne : o.index ≠ b.index := fun heq => hnodup.1 (heq ▸ mem_map_of_mem hb)
    simpa [hne] using ih hnodup.2 hb

namespace ScanState

/-- The tool scopes, open and recorded. -/
def tools (s : ScanState) : List ToolCallScope := s.openTools ++ s.toolScopes

variable {s : ScanState}

/-- A start of a new tool index opens its block. -/
lemma step_toolStart (h : toolStart ev = some b) (hnew : ∀ o ∈ s.openTools, o.index ≠ b.index) :
    (s.step ev).tools = s.openTools ++ [b] ++ s.toolScopes := by
  unfold toolStart at h
  split at h
  · next start hev =>
    split at h <;> cases h
    next call hblock =>
    have hnone : ¬ (s.openTools.any fun o => o.index == start.index) = true := by
      simpa using hnew
    simp [tools, step, hev, contentBlockStart, hblock, hnone]
  · cases h

/-- A stop moves the block it names to the recorded ones. -/
lemma tools_contentBlockStop (hnodup : (s.openTools.map ToolCallScope.index).Nodup)
    (index : Int32) : (s.contentBlockStop index).tools.Perm s.tools := by
  unfold contentBlockStop
  split
  · next b hfind =>
    have hb : b ∈ s.openTools := mem_of_find?_eq_some hfind
    have hindex : b.index = index := by simpa using find?_some hfind
    have hsplit : (b :: s.openTools.filter fun o => o.index != index).Perm s.openTools := by
      have hself : (s.openTools.filter fun o => o.index == index) = [b] := by
        rw [← hindex]
        exact filter_index_eq hnodup hb
      have happ := filter_append_perm (fun o : ToolCallScope => o.index == index) s.openTools
      rw [hself] at happ
      exact happ
    have hmove : ((s.openTools.filter fun o => o.index != index) ++ (s.toolScopes ++ [b])).Perm
        ((b :: s.openTools.filter fun o => o.index != index) ++ s.toolScopes) := by
      rw [← append_assoc]
      exact perm_append_singleton _ _
    exact hmove.trans (hsplit.append_right _)
  · split <;> simp [tools, materializeSpan, resetSpanState]

/-- Any other event but a fragment leaves the scopes alone. -/
lemma step_tools_other (hstart : toolStart ev = none)
    (hstop : ∀ stop, ev.event ≠ some (.contentBlockStop stop))
    (hdelta : ∀ delta, ev.event ≠ some (.toolCallDelta delta)) : (s.step ev).tools = s.tools := by
  unfold step
  split
  · next start hev =>
    unfold contentBlockStart
    split
    · simp [tools]
    · simp [tools]
    · next call hblock => simp [toolStart, hev, hblock] at hstart
    · simp [tools]
    · simp [tools]
  · next stop hev => exact absurd hev (hstop stop)
  · next delta hev => exact absurd hev (hdelta delta)
  · unfold textDelta
    split <;> rfl
  · unfold thinkingDelta
    split <;> rfl
  · unfold signatureDelta
    split
    · split <;> simp [tools, materializeSpan, resetSpanState]
    · rfl
  · rfl

end ScanState

/-- The scan has every tool block that was started, each with the fragments so
far; indices are those the validation walk has seen. -/
structure Recorded (v : AcceptedState) (s : ScanState) (events : List StreamEvent) : Prop where
  tools : s.tools.Perm (toolBlocks events)
  seen : ∀ b ∈ toolBlocks events, b.index ∈ v.seen
  fragments : ∀ ev ∈ events, ∀ delta, ev.event = some (.toolCallDelta delta) →
    delta.index ∈ v.seen
  distinct : ((toolBlocks events).map ToolCallScope.index).Nodup

namespace Recorded

variable {v v' : AcceptedState} {s : ScanState} {t : Option OpenBlockKind × Bool}
  {events : List StreamEvent} {ev : StreamEvent} {i : Nat}

lemma init : Recorded {} {} [] := by
  constructor <;> simp [ScanState.tools, toolBlocks]

section

variable (h : Recorded v s events)
include h

lemma nodup_tools : (s.tools.map ToolCallScope.index).Nodup :=
  (h.tools.map _).nodup_iff.mpr h.distinct

lemma foldl_receive_of_new (hb : b.index ∉ v.seen) : events.foldl receive b = b := by
  have hfrag := h.fragments
  clear h
  induction events with
  | nil => rfl
  | cons ev events ih =>
  have hhead : b.receive ev = b := by
    apply ToolCallScope.receive_of_ne
    intro delta hev heq
    exact hb (heq ▸ hfrag ev (by simp) delta hev)
  rw [foldl_cons, hhead]
  exact ih fun ev' hev' => hfrag ev' (mem_cons_of_mem ev hev')

/-- An event that starts no tool block. -/
lemma no_start {s' : ScanState} (hstart : toolStart ev = none) (hseen : ∀ k ∈ v.seen, k ∈ v'.seen)
    (hfrag : ∀ delta, ev.event = some (.toolCallDelta delta) → delta.index ∈ v.seen)
    (htools : s'.tools.Perm (s.tools.map (receive · ev))) : Recorded v' s' (events ++ [ev]) := by
  have hblocks : toolBlocks (events ++ [ev]) = (toolBlocks events).map (receive · ev) := by
    rw [toolBlocks_concat, hstart]
    simp
  refine ⟨?_, ?_, ?_, ?_⟩
  · rw [hblocks]
    exact htools.trans (h.tools.map _)
  · intro b hb
    rw [hblocks] at hb
    obtain ⟨o, ho, rfl⟩ := mem_map.mp hb
    rw [ToolCallScope.receive_index]
    exact hseen _ (h.seen o ho)
  · intro ev' hev' delta hdelta
    rcases mem_append.mp hev' with hev' | hev'
    · exact hseen _ (h.fragments ev' hev' delta hdelta)
    · rw [mem_singleton.mp hev'] at hdelta
      exact hseen _ (hfrag delta hdelta)
  · rw [hblocks]
    simpa [Function.comp_def] using h.distinct

/-- An event that starts one. -/
lemma start (hstart : toolStart ev = some b)
    (hseen : v'.seen = b.index :: v.seen) (hnew : b.index ∉ v.seen) :
    Recorded v' (s.step ev) (events ++ [ev]) := by
  have hnodelta : ∀ delta, ev.event ≠ some (.toolCallDelta delta) := by
    intro delta hev
    simp [toolStart, hev] at hstart
  have hreceive : ∀ o : ToolCallScope, o.receive ev = o := fun o =>
    ToolCallScope.receive_of_ne fun delta hev => absurd hev (hnodelta delta)
  have hblocks : toolBlocks (events ++ [ev]) = toolBlocks events ++ [b] := by
    rw [toolBlocks_concat, hstart]
    simp [hreceive, h.foldl_receive_of_new hnew]
  have hopen : ∀ o ∈ s.openTools, o.index ≠ b.index := by
    intro o ho heq
    have hmem : o ∈ toolBlocks events := h.tools.subset (mem_append_left _ ho)
    exact hnew (heq ▸ h.seen o hmem)
  refine ⟨?_, ?_, ?_, ?_⟩
  · rw [hblocks, step_toolStart hstart hopen, append_assoc]
    have hlast : (s.openTools ++ ([b] ++ s.toolScopes)).Perm (s.tools ++ [b]) := by
      show Perm _ (s.openTools ++ s.toolScopes ++ [b])
      rw [append_assoc]
      exact perm_append_comm.append_left _
    exact hlast.trans (h.tools.append_right _)
  · intro o ho
    rw [hblocks, mem_append, mem_singleton] at ho
    rw [hseen]
    rcases ho with ho | rfl
    · exact mem_cons_of_mem _ (h.seen o ho)
    · exact mem_cons_self
  · intro ev' hev' delta hdelta
    rw [hseen]
    rcases mem_append.mp hev' with hev' | hev'
    · exact mem_cons_of_mem _ (h.fragments ev' hev' delta hdelta)
    · rw [mem_singleton.mp hev'] at hdelta
      exact absurd hdelta (hnodelta delta)
  · rw [hblocks, map_append, nodup_append]
    refine ⟨h.distinct, by simp, ?_⟩
    intro k hk k' hk' heq
    obtain ⟨o, ho, rfl⟩ := mem_map.mp hk
    rw [map_singleton, mem_singleton] at hk'
    exact hnew (hk' ▸ heq ▸ h.seen o ho)

/-- A fragment goes to the one open block it names. -/
lemma tools_toolCallDelta {delta : ToolCallDelta} (hev : ev.event = some (.toolCallDelta delta))
    (hopen : ∃ o ∈ s.openTools, o.index = delta.index) :
    (s.toolCallDelta delta).tools = s.tools.map (receive · ev) := by
  obtain ⟨o, ho, hindex⟩ := hopen
  have hclosed : s.toolScopes.map (receive · ev) = s.toolScopes := by
    conv_rhs => rw [← map_id s.toolScopes]
    apply map_congr_left
    intro b hb
    apply ToolCallScope.receive_of_ne
    intro delta' hev' heq
    cases hev.symm.trans hev'
    -- a recorded block shares no index with an open one
    have hnodup := h.nodup_tools
    rw [ScanState.tools, map_append, nodup_append] at hnodup
    exact hnodup.2.2 _ (mem_map_of_mem ho) _ (mem_map_of_mem hb) (hindex.trans heq.symm)
  unfold ScanState.tools
  rw [map_append, hclosed]
  simp [ScanState.toolCallDelta, receive, hev]

/-- **One event.** -/
theorem step (ht : Tracks v s t) (hv : v.step i ev = .ok v') :
    Recorded v' (s.step ev) (events ++ [ev]) := by
  obtain ⟨hseen, hnew, -⟩ := step_seen hv
  have hgrows : ∀ k ∈ v.seen, k ∈ v'.seen := by
    intro k hk
    rw [hseen]
    exact mem_append_right _ hk
  cases hstart : toolStart ev with
  | some b =>
    have hindex := toolStart_index hstart
    refine h.start hstart ?_ (hnew b.index hindex)
    rw [hseen, hindex]
    rfl
  | none =>
  by_cases hdelta : ∃ delta, ev.event = some (.toolCallDelta delta)
  · obtain ⟨delta, hev⟩ := hdelta
    obtain ⟨-, -, hmoves⟩ := step_moves hv
    rw [hev] at hmoves
    have hopen : ∃ u ∈ v.openTools, u.1 = delta.index := by
      cases hmoves with
      | fragment hlookup _ => exact lookup_isSome_iff.mp (by rw [hlookup]; rfl)
    obtain ⟨o, ho, hindex⟩ := (ht.tools delta.index).mpr hopen
    refine h.no_start hstart hgrows ?_ ?_
    · intro delta' hev'
      rw [hev] at hev'
      cases hev'
      rw [← hindex]
      exact h.seen o (h.tools.subset (mem_append_left _ ho))
    · have hs : s.step ev = s.toolCallDelta delta := by simp [ScanState.step, hev]
      rw [hs, h.tools_toolCallDelta hev ⟨o, ho, hindex⟩]
  · have hno : ∀ delta, ev.event ≠ some (.toolCallDelta delta) := fun delta hev =>
      hdelta ⟨delta, hev⟩
    have hreceive : s.tools.map (receive · ev) = s.tools := by
      conv_rhs => rw [← map_id s.tools]
      exact map_congr_left fun o _ =>
        ToolCallScope.receive_of_ne fun delta hev => absurd hev (hno delta)
    refine h.no_start hstart hgrows (fun delta hev => absurd hev (hno delta)) ?_
    rw [hreceive]
    by_cases hstop : ∃ stop, ev.event = some (.contentBlockStop stop)
    · obtain ⟨stop, hev⟩ := hstop
      have hs : s.step ev = s.contentBlockStop stop.index := by simp [ScanState.step, hev]
      rw [hs]
      apply tools_contentBlockStop
      have hnodup := h.nodup_tools
      rw [ScanState.tools, map_append, nodup_append] at hnodup
      exact hnodup.1
    · rw [step_tools_other hstart (fun stop hev => hstop ⟨stop, hev⟩) hno]

/-- **A whole run.** -/
theorem run {rest : List StreamEvent} (ht : Tracks v s t)
    (hv : v.run i rest = .ok v') : Recorded v' (s.run rest) (events ++ rest) := by
  induction rest generalizing v s t i events with
  | nil =>
    cases hv
    rw [append_nil]
    exact h
  | cons ev rest ih =>
  obtain ⟨v₁, hstep, hrest⟩ := run_cons_ok.mp hv
  have hrun := ih (h.step ht hstep) (ht.step hstep) hrest
  rwa [append_assoc] at hrun

end

end Recorded

/-- On a stream that validates and is not aborted, the scan records exactly the
tool blocks. -/
lemma toolScopes_perm_toolBlocks {events : List StreamEvent}
    (h : validateAcceptedStream events = .ok ())
    (hnone : ∀ ev ∈ events, ∀ e, ev.event ≠ some (.error e)) :
    (scanStreamSignatures events).toolScopes.Perm (toolBlocks events) ∧
      ((toolBlocks events).map ToolCallScope.index).Nodup := by
  unfold validateAcceptedStream at h
  split at h
  · cases h
  next v hrun =>
  have hrecorded := Recorded.init.run Tracks.init hrun
  have hclosed : v.openTools = [] := by
    have hfinish : v.finish = .ok () := h
    have hnoerr := sawError_of_run rfl hnone hrun
    unfold finish at hfinish
    by_contra hopen
    simp [hnoerr, hopen] at hfinish
  have htools := hrecorded.tools
  rw [tools, (Tracks.init.run hrun).openTools_eq_nil hclosed] at htools
  refine ⟨?_, hrecorded.distinct⟩
  show (run {} events).closeSpan.toolScopes.Perm _
  simpa using htools

end ToranaEdge
