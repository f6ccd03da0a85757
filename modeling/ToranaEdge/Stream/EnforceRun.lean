import ToranaEdge.Stream.Transaction
import ToranaEdge.Stream.Ungranted

/-! # Whole runs of the enforcement

The buffers of one stage agree with what it has released.  Here the stages
are put together: each stage accepts what the one before released, along any
host stream and with any plugins.  From this follow what a run guarantees
while it goes on, that nothing moves once a terminal error is recorded, and
that a stream that ends well has no journal left. -/

namespace ToranaEdge.Enforce

open Policy StreamDisciplineWalker List

/-! ## The calls of a run -/

/-- A stage's turn on one batch: the history before it, the states around it and
what came of it. -/
structure StageCall where
  stage : Nat
  plugin : StreamPlugin
  released : List StreamEvent
  before : PluginStreamState
  batch : List StreamEvent
  after : PluginStreamState
  outcome : Except StreamTerminalError (List StreamEvent)

variable (v : Verifiers)

/-- The turns of `runStages`, the first stage being number `n`. -/
def stageCalls : Nat → List Stage → List StreamEvent → List StageCall
  | _, [], _ => []
  | n, st :: rest, batch =>
    let result := runStage v st.plugin st.state batch
    { stage := n, plugin := st.plugin, released := st.released, before := st.state, batch
      after := result.1, outcome := result.2 } ::
      match result.2 with
      | .ok out => stageCalls (n + 1) rest out
      | .error _ => []

/-- The turns of `runOnStreamChunkVerified`: none once the stream is terminated,
none for an event the host may not send. -/
def chunkCalls (vs : StreamVerifierState) (ev : StreamEvent) : List StageCall :=
  match vs.terminal, vs.host.walk ev with
  | none, .ok _ => stageCalls v 0 vs.stages [ev]
  | _, _ => []

def runCallsFrom : StreamVerifierState → List StreamEvent → List StageCall
  | _, [] => []
  | vs, ev :: rest =>
    chunkCalls v vs ev ++ runCallsFrom (runOnStreamChunkVerified v vs ev).1 rest

/-- The turns of a run, in order. -/
def runCalls (plugins : List StreamPlugin) (hosts : List StreamEvent) :
    List StageCall :=
  runCallsFrom v (newStreamVerifierState plugins) hosts

/-- The stage after its turn. -/
def StageCall.result (c : StageCall) : Stage :=
  { plugin := c.plugin, state := c.after
    released := match c.outcome with
      | .ok out => c.released ++ out
      | .error _ => c.released }

section calls

variable {v : Verifiers} {plugins : List StreamPlugin} {hosts : List StreamEvent}

/-- The state along a run that starts anywhere. -/
def runFrom (v : Verifiers) (vs : StreamVerifierState) (hosts : List StreamEvent) :
    StreamVerifierState :=
  hosts.foldl (fun vs ev => (runOnStreamChunkVerified v vs ev).1) vs

lemma run_append (xs ys : List StreamEvent) :
    run v plugins (xs ++ ys) = runFrom v (run v plugins xs) ys := foldl_append

lemma run_concat (xs : List StreamEvent) (ev : StreamEvent) :
    run v plugins (xs ++ [ev]) = (runOnStreamChunkVerified v (run v plugins xs) ev).1 :=
  run_append xs [ev]

lemma runCallsFrom_append (vs : StreamVerifierState) (xs ys : List StreamEvent) :
    runCallsFrom v vs (xs ++ ys) = runCallsFrom v vs xs ++ runCallsFrom v (runFrom v vs xs) ys := by
  induction xs generalizing vs with
  | nil => rfl
  | cons ev xs ih =>
  show chunkCalls v vs ev ++ runCallsFrom v (runOnStreamChunkVerified v vs ev).1 (xs ++ ys) = _
  rw [ih, ← append_assoc]
  rfl

lemma runCalls_append (xs ys : List StreamEvent) :
    runCalls v plugins (xs ++ ys) = runCalls v plugins xs ++ runCallsFrom v (run v plugins xs) ys :=
  runCallsFrom_append (newStreamVerifierState plugins) xs ys

variable {c : StageCall} {vs : StreamVerifierState}

/-- A turn of a run belongs to one of its events. -/
lemma mem_runCallsFrom (h : c ∈ runCallsFrom v vs hosts) :
    ∃ before ev after, hosts = before ++ ev :: after ∧ c ∈ chunkCalls v (runFrom v vs before) ev := by
  induction hosts generalizing vs with
  | nil => cases h
  | cons ev rest ih =>
  rcases mem_append.mp h with hchunk | hrest
  · exact ⟨[], ev, rest, rfl, hchunk⟩
  · obtain ⟨before, ev', after, hsplit, hmem⟩ := ih hrest
    exact ⟨ev :: before, ev', after, by rw [hsplit]; rfl, hmem⟩

lemma mem_runCalls (h : c ∈ runCalls v plugins hosts) :
    ∃ before ev after, hosts = before ++ ev :: after ∧ c ∈ chunkCalls v (run v plugins before) ev :=
  mem_runCallsFrom h

/-- A turn, against the stages around it. -/
structure Turn (v : Verifiers) (stages stages' : List Stage) (n : Nat) (c : StageCall) : Prop where
  ran : runStage v c.plugin c.before c.batch = (c.after, c.outcome)
  found : ∃ k, c.stage = n + k ∧ stages[k]? = some ⟨c.plugin, c.before, c.released⟩ ∧
    stages'[k]? = some c.result

lemma turn_of_mem_stageCalls {n : Nat} {stages : List Stage} {batch : List StreamEvent}
    (h : c ∈ stageCalls v n stages batch) : Turn v stages (runStages v stages batch).1 n c := by
  induction stages generalizing n batch with
  | nil => cases h
  | cons st rest ih =>
  rcases mem_cons.mp h with hhead | htail
  · subst hhead
    refine ⟨rfl, 0, rfl, rfl, ?_⟩
    unfold runStages
    split <;> next hrun => rw [hrun]; rfl
  unfold runStages
  split at htail
  · next out hout =>
    obtain ⟨hran, k, hstage, hbefore, hafter⟩ := ih htail
    refine ⟨hran, k + 1, by omega, hbefore, ?_⟩
    split <;> next hrun =>
      rw [hrun] at hout
      first
      | cases hout; done
      | cases hout; exact hafter
  · cases htail

/-- A chunk leaves the stages, unless the stream is live and the host may send it. -/
lemma chunk_cases (v : Verifiers) (vs : StreamVerifierState) (ev : StreamEvent) :
    (runOnStreamChunkVerified v vs ev).1.stages = vs.stages ∨
      ∃ host, vs.terminal = none ∧ vs.host.walk ev = .ok host := by
  unfold runOnStreamChunkVerified
  split
  · exact .inl rfl
  next hnone =>
  split
  · exact .inl rfl
  unfold runOnStreamChunk
  split
  · exact .inl rfl
  · next host hwalk => exact .inr ⟨host, hnone, hwalk⟩

/-- Such a chunk runs the stages, and their error ends the stream. -/
lemma chunk_ran {ev : StreamEvent} {host : StreamDisciplineWalker} (hnone : vs.terminal = none)
    (hwalk : vs.host.walk ev = .ok host) :
    (runOnStreamChunkVerified v vs ev).1.stages = (runStages v vs.stages [ev]).1 ∧
      ∀ t, (runStages v vs.stages [ev]).2 = .error t ↔
        (runOnStreamChunkVerified v vs ev).1.terminal = some t := by
  unfold runOnStreamChunkVerified runOnStreamChunk
  rw [hnone, hwalk]
  dsimp only
  split
  · next hempty =>
    simp [runStages, hnone, isEmpty_iff.mp hempty]
  · split <;> next hrun => simp [hrun]

/-- The turns of a chunk are those of a live stream. -/
lemma turn_of_mem_chunkCalls {ev : StreamEvent} (h : c ∈ chunkCalls v vs ev) :
    vs.terminal = none ∧ Turn v vs.stages (runOnStreamChunkVerified v vs ev).1.stages 0 c := by
  unfold chunkCalls at h
  split at h
  · next host hnone hwalk =>
    rw [(chunk_ran hnone hwalk).1]
    exact ⟨hnone, turn_of_mem_stageCalls h⟩
  · cases h

end calls

/-! ## Deferred tools are open -/

/-- The tool block is open at the end of the accepted stream. -/
def OpenTool (i : Int32) (accepted : List StreamEvent) : Prop :=
  ∃ w, walkAll {} accepted = .ok w ∧ w.sawError = false ∧ i ∈ w.openTools.map Prod.fst

variable {ev : StreamEvent} {w w' : StreamDisciplineWalker}

variable {i : Int32}

lemma walk_startTool (h : w.walk ev = .ok w') (hi : toolStartIndex ev = some i) :
    w'.sawError = false ∧ i ∈ w'.openTools.map Prod.fst := by
  obtain ⟨start, call, hev, hblock, rfl⟩ : ∃ start call, ev.event = some (.contentBlockStart start) ∧
      start.block = some (.toolCall call) ∧ start.index = i := by
    unfold toolStartIndex at hi
    split at hi
    · next start hev =>
      split at hi
      · next call hblock => exact ⟨start, call, hev, hblock, Option.some.inj hi⟩
      · cases hi
    · cases hi
  obtain ⟨-, hspec⟩ := walk_spec h
  rw [hev] at hspec
  obtain ⟨-, herror, -, -, -, htools⟩ := hspec
  rw [hblock] at htools
  rw [htools.2.2]
  exact ⟨herror, mem_cons_self⟩

/-- An open tool stays open until its stop or an error. -/
lemma walk_openTools (h : w.walk ev = .ok w') (hi : i ∈ w.openTools.map Prod.fst)
    (hkept : i ∈ resolvePending ev [i]) : w'.sawError = false ∧ i ∈ w'.openTools.map Prod.fst := by
  obtain ⟨v, v', pos, rfl, rfl, herror, -, hmoves⟩ := walk_moves h
  obtain ⟨arm, unknown⟩ := ev
  cases hmoves with
  | error _ => simp [resolvePending] at hkept
  | toolCall _ _ _ => exact ⟨herror, mem_cons_of_mem _ hi⟩
  | @toolStop stop _ =>
    -- a stop, of another block
    have hne : i ≠ stop.index := by
      intro heq
      simp [resolvePending, heq] at hkept
    refine ⟨herror, ?_⟩
    obtain ⟨u, hu, rfl⟩ := mem_map.mp hi
    exact mem_map_of_mem (mem_filter.mpr ⟨hu, by simpa using hne⟩)
  | absent | usage _ | messageStart _ | messageStop _ _ _ | block _ _ _ _ _ | armless _ _
  | blockStop _ _ | textDelta _ _ | thinkingDelta _ _ | current _ _ | trailing _ _ _ _ _
  | fragment _ _ => exact ⟨herror, hi⟩

/-- Every deferred decision is about a tool that is still open. -/
def Deferred (s : PluginStreamState) : Prop :=
  ∀ j, s.journal = some j → ∀ i ∈ j.pending, OpenTool i s.accepted

variable {out : List StreamEvent}

section stage

variable {v : Verifiers} {lp : StreamPlugin} {pvs pvs' : PluginStreamState} {ev : StreamEvent}

lemma mem_resolvePending {pending : List Int32}
    (h : i ∈ resolvePending ev pending) : i ∈ pending ∧ i ∈ resolvePending ev [i] := by
  unfold resolvePending at h ⊢
  split at h
  · obtain ⟨hmem, hne⟩ := mem_filter.mp h
    exact ⟨hmem, mem_filter.mpr ⟨mem_cons_self, hne⟩⟩
  · cases h
  · exact ⟨h, mem_cons_self⟩

lemma handleEvent_deferred (h : Deferred pvs)
    (hwalk : ∃ w, walkAll {} (pvs.accepted ++ [ev]) = .ok w)
    (hstep : handleEvent v lp pvs ev = (pvs', .ok out)) : Deferred pvs' := by
  have hp := propose_proposed v lp pvs ev
  cases handleEvent_ok hstep with
  | rolledBack hcall hmode hj hback =>
    intro j' hj'
    cases hback.journal.symm.trans hj'
  | replaced hcall hmode hj hwalk =>
    intro j' hj'
    cases hj.symm.trans hj'
  | published hcall =>
  intro j' hj' i hi
  have haccepted := (publish_history (propose v lp pvs ev).state ev
    (propose v lp pvs ev).emitted).accepted.trans hp.accepted
  rw [haccepted]
  unfold publish at hj'
  dsimp only at hj'
  split at hj'
  · next j₁ hj₁ =>
    cases hj'
    obtain ⟨hmem, hkept⟩ := mem_resolvePending hi
    obtain ⟨w, hw⟩ := hwalk
    obtain ⟨u, hu, hlast⟩ := walkAll_prefix hw
    have hstepw : u.walk ev = .ok w := walkAll_singleton.mp hlast
    -- the index is that of the event, or was deferred before
    have hcases : toolStartIndex ev = some i ∨ OpenTool i pvs.accepted := by
      cases hold : pvs.journal with
      | none =>
        obtain ⟨hopen, -⟩ := hp.opened j₁ hj₁ hold
        obtain ⟨i', hstart, hpending⟩ := hopen.pending
        rw [hpending, mem_singleton] at hmem
        exact .inl (hmem ▸ hstart)
      | some j₀ =>
      rcases (hp.extended j₀ j₁ hj₁ hold).pending with hpending | ⟨i', hstart, hpending⟩
      · exact .inr (h j₀ hold i (hpending ▸ hmem))
      rw [hpending] at hmem
      rcases mem_cons.mp hmem with rfl | hmem
      · exact .inl hstart
      · exact .inr (h j₀ hold i hmem)
    rcases hcases with hstart | ⟨u', hu', -, hopen⟩
    · exact ⟨w, hw, walk_startTool hstepw hstart⟩
    cases hu.symm.trans hu'
    exact ⟨w, hw, walk_openTools hstepw hopen hkept⟩
  · next hnone =>
    cases hnone.symm.trans hj'

lemma runStage_deferred {batch out : List StreamEvent} (hd : Deferred pvs)
    (hwalk : ∃ w, walkAll {} (pvs.accepted ++ batch) = .ok w)
    (h : runStage v lp pvs batch = (pvs', .ok out)) : Deferred pvs' := by
  unfold runStage at h
  split at h
  · cases h
  next s₁ next hbatch =>
  -- along the loop, as far as the accepted events are disciplined
  have hloop : s₁.accepted = pvs.accepted ++ batch ∧
      ((∃ w, walkAll {} (pvs.accepted ++ batch) = .ok w) → Deferred s₁) := by
    refine handleBatch_induct (P := fun s done _ => s.accepted = pvs.accepted ++ done ∧
      ((∃ w, walkAll {} (pvs.accepted ++ done) = .ok w) → Deferred s)) ?_ ?_ hbatch
    · exact ⟨by simp, fun _ => hd⟩
    · rintro s done next e s' o ⟨hacc, hdeferred⟩ hstep
      have hnew := handleEvent_accepted v lp s e
      rw [hstep] at hnew
      refine ⟨by rw [hnew, hacc, append_assoc], ?_⟩
      rintro ⟨w, hw⟩
      rw [← append_assoc] at hw
      obtain ⟨u, hu, -⟩ := walkAll_prefix hw
      exact handleEvent_deferred (hdeferred ⟨u, hu⟩) ⟨w, hacc ▸ hw⟩ hstep
  have hdeferred := hloop.2 hwalk
  cases (settleScopes_ok h).1 with
  | kept hsame _ =>
    intro j hj i hi
    rw [hsame.accepted]
    exact hdeferred j (hsame.journal ▸ hj) i hi
  | flushed _ _ hsame =>
    intro j hj
    cases hsame.journal.symm.trans hj
  | rolledBack _ _ _ _ hback hsame =>
  intro j hj
  rw [hsame.journal, hback.journal] at hj
  cases hj

end stage

/-! ## The chain -/

/-- Each stage has accepted what the one before released, the first one the host
stream. -/
def Linked : List StreamEvent → List Stage → Prop
  | _, [] => True
  | input, st :: rest => st.state.accepted = input ∧ Linked st.released rest

instance decidableLinked : (input : List StreamEvent) → (stages : List Stage) →
    Decidable (Linked input stages)
  | _, [] => isTrue trivial
  | _, st :: rest =>
    have := decidableLinked st.released rest
    inferInstanceAs (Decidable (_ ∧ _))

/-- The same up to what a terminated stage left unread. -/
def PrefixLinked : List StreamEvent → List Stage → Prop
  | _, [] => True
  | input, st :: rest => st.state.accepted <+: input ∧ PrefixLinked st.released rest

variable {stages : List Stage} {input : List StreamEvent}

lemma Linked.prefixLinked (h : Linked input stages) : PrefixLinked input stages := by
  induction stages generalizing input with
  | nil => trivial
  | cons st rest ih => exact ⟨h.1 ▸ prefix_rfl, ih h.2⟩

lemma PrefixLinked.mono {input' : List StreamEvent} (h : PrefixLinked input stages)
    (hinput : input <+: input') : PrefixLinked input' stages := by
  cases stages with
  | nil => trivial
  | cons st rest => exact ⟨h.1.trans hinput, h.2⟩

/-- A sequence of events a fresh walker takes. -/
def Disciplined (events : List StreamEvent) : Prop := ∃ w, walkAll {} events = .ok w

lemma Disciplined.of_isPrefix {xs ys : List StreamEvent} (h : Disciplined ys) (hpre : xs <+: ys) :
    Disciplined xs := by
  obtain ⟨w, hw⟩ := h
  obtain ⟨rest, rfl⟩ := hpre
  obtain ⟨u, hu, -⟩ := walkAll_prefix hw
  exact ⟨u, hu⟩

/-- The accepted streams are disciplined, stage by stage. -/
lemma PrefixLinked.accepted_disciplined (h : PrefixLinked input stages)
    (hinput : Disciplined input) (hreleased : ∀ st ∈ stages, Disciplined st.released) :
    ∀ st ∈ stages, Disciplined st.state.accepted := by
  induction stages generalizing input with
  | nil => intro st hst; cases hst
  | cons st rest ih =>
    rw [forall_mem_cons] at hreleased ⊢
    exact ⟨hinput.of_isPrefix h.1, ih h.2 hreleased.1 hreleased.2⟩

/-- **The invariant of a live stage.** -/
structure StageInv (st : Stage) : Prop where
  coherent : Coherent st.state st.released
  undecided : ∀ j, st.state.journal = some j → j.pending ≠ []
  deferred : Deferred st.state

lemma StageInv.init (plugin : StreamPlugin) : StageInv { plugin } :=
  ⟨.init, fun _ h => (nomatch h), fun _ h => (nomatch h)⟩

section chain

variable {v : Verifiers} {stages stages' : List Stage} {input batch : List StreamEvent}

lemma StageInv.next {st : Stage} {state : PluginStreamState}
    (h : StageInv st) (hwalk : Disciplined (st.state.accepted ++ batch))
    (hrun : runStage v st.plugin st.state batch = (state, .ok out)) :
    StageInv { st with state, released := st.released ++ out } ∧
      state.accepted = st.state.accepted ++ batch := by
  obtain ⟨hcoherent, hundecided, haccepted⟩ := runStage_ok h.coherent hrun
  exact ⟨⟨hcoherent, hundecided, runStage_deferred h.deferred hwalk hrun⟩, haccepted⟩

/-- A chain that takes the batch stays linked. -/
lemma runStages_ok (hinv : ∀ st ∈ stages, StageInv st)
    (hlinked : Linked input stages) (hwalk : Disciplined (input ++ batch))
    (h : runStages v stages batch = (stages', .ok out)) :
    Linked (input ++ batch) stages' ∧ ∀ st ∈ stages', StageInv st := by
  induction stages generalizing input batch stages' with
  | nil =>
    cases h
    exact ⟨trivial, fun st hst => (nomatch hst)⟩
  | cons st rest ih =>
  obtain ⟨hfirst, hrest⟩ := hlinked
  subst hfirst
  rw [forall_mem_cons] at hinv
  unfold runStages at h
  split at h
  · cases h
  next state out₁ hrun =>
  obtain ⟨hstage, haccepted⟩ := hinv.1.next hwalk hrun
  obtain ⟨hstages, hout⟩ := Prod.mk.inj h
  subst hstages
  obtain ⟨hlinked', hinv'⟩ := ih hinv.2 hrest hstage.coherent.released_walks (Prod.ext rfl hout)
  exact ⟨⟨haccepted, hlinked'⟩, forall_mem_cons.mpr ⟨hstage, hinv'⟩⟩

/-- A chain that terminates: the stages before the culprit took their batch, it
took part of its own, those behind it saw nothing. -/
lemma runStages_error {term : StreamTerminalError} (hinv : ∀ st ∈ stages, StageInv st)
    (hlinked : Linked input stages) (hwalk : Disciplined (input ++ batch))
    (h : runStages v stages batch = (stages', .error term)) :
    PrefixLinked (input ++ batch) stages' ∧ (∀ st ∈ stages', Disciplined st.released) ∧
      term.kind = .plugin := by
  induction stages generalizing input batch stages' with
  | nil => cases h
  | cons st rest ih =>
  obtain ⟨hfirst, hrest⟩ := hlinked
  subst hfirst
  obtain ⟨hst, hbehind⟩ := forall_mem_cons.mp hinv
  unfold runStages at h
  split at h
  · next state t hrun =>
    cases h
    obtain ⟨⟨done, hdone, haccepted⟩, hkind⟩ := runStage_error hst.coherent hwalk hrun
    refine ⟨⟨?_, hrest.prefixLinked⟩, ?_, hkind⟩
    · rw [haccepted]
      exact (prefix_append_right_inj _).mpr hdone
    · rw [forall_mem_cons]
      exact ⟨hst.coherent.released_walks, fun s hs => (hbehind s hs).coherent.released_walks⟩
  next state out₁ hrun =>
  obtain ⟨hstage, haccepted⟩ := hst.next hwalk hrun
  obtain ⟨hstages, hout⟩ := Prod.mk.inj h
  subst hstages
  obtain ⟨hlinked', hreleased, hkind⟩ := ih hbehind hrest hstage.coherent.released_walks
    (Prod.ext rfl hout)
  exact ⟨⟨haccepted ▸ prefix_rfl, hlinked'⟩,
    forall_mem_cons.mpr ⟨hstage.coherent.released_walks, hreleased⟩, hkind⟩

end chain

/-! ## Every run -/

/-- The invariant of a verified stream that has been sent the host's events. -/
structure RunInv (hosts : List StreamEvent) (vs : StreamVerifierState) : Prop where
  linked : PrefixLinked hosts vs.stages
  released : ∀ st ∈ vs.stages, Disciplined st.released
  accepted : ∀ st ∈ vs.stages, Disciplined st.state.accepted
  live : vs.terminal = none → Linked hosts vs.stages ∧ (∀ st ∈ vs.stages, StageInv st) ∧
    (vs.stages ≠ [] → walkAll {} hosts = .ok vs.host)

section run

variable {v : Verifiers} {plugins : List StreamPlugin} {hosts : List StreamEvent}
  {vs : StreamVerifierState} {ev : StreamEvent}

lemma RunInv.init (plugins : List StreamPlugin) : RunInv [] (newStreamVerifierState plugins) := by
  have hstages : ∀ st ∈ (newStreamVerifierState plugins).stages, ∃ plugin, st = { plugin } := by
    intro st hst
    obtain ⟨plugin, -, rfl⟩ := mem_map.mp hst
    exact ⟨plugin, rfl⟩
  have hlinked : ∀ ps : List StreamPlugin, Linked [] (ps.map fun plugin => ({ plugin } : Stage)) := by
    intro ps
    induction ps with
    | nil => trivial
    | cons p ps ih => exact ⟨rfl, ih⟩
  refine ⟨(hlinked plugins).prefixLinked, ?_, ?_, fun _ => ⟨hlinked plugins, ?_, fun _ => rfl⟩⟩
  all_goals
    intro st hst
    obtain ⟨plugin, rfl⟩ := hstages st hst
  · exact ⟨{}, rfl⟩
  · exact ⟨{}, rfl⟩
  · exact .init plugin

/-- A stream with no stage, or a terminated one, is left alone. -/
lemma chunk_idle (h : vs.terminal ≠ none ∨ vs.stages = []) :
    (runOnStreamChunkVerified v vs ev).1 = vs := by
  unfold runOnStreamChunkVerified
  split
  · rfl
  next hnone =>
  rcases h with h | h
  · exact absurd hnone h
  · rw [h]
    rfl

lemma RunInv.step (h : RunInv hosts vs) :
    RunInv (hosts ++ [ev]) (runOnStreamChunkVerified v vs ev).1 := by
  have hmore : hosts <+: hosts ++ [ev] := prefix_append hosts [ev]
  by_cases hidle : vs.terminal ≠ none ∨ vs.stages = []
  · rw [chunk_idle hidle]
    refine ⟨h.linked.mono hmore, h.released, h.accepted, ?_⟩
    intro hnone
    rcases hidle with hidle | hidle
    · exact absurd hnone hidle
    · rw [hidle]
      exact ⟨trivial, fun st hst => (nomatch hst), fun hne => absurd rfl hne⟩
  push Not at hidle
  obtain ⟨hnone, hstages⟩ := hidle
  obtain ⟨hlinked, hinv, hhost⟩ := h.live hnone
  unfold runOnStreamChunkVerified runOnStreamChunk
  rw [hnone]
  dsimp only
  rw [if_neg (by simpa using hstages)]
  split
  · -- the host may not send this event
    exact ⟨h.linked.mono hmore, h.released, h.accepted, fun hterm => (nomatch hterm)⟩
  next host hwalk =>
  have hwalked : walkAll {} (hosts ++ [ev]) = .ok host :=
    walkAll_concat (hhost hstages) (walkAll_singleton.mpr hwalk)
  split
  · next stages' term hrun =>
    obtain ⟨hlinked', hreleased, -⟩ := runStages_error hinv hlinked ⟨host, hwalked⟩ hrun
    exact ⟨hlinked', hreleased, hlinked'.accepted_disciplined ⟨host, hwalked⟩ hreleased,
      fun hterm => (nomatch hterm)⟩
  next stages' out hrun =>
  obtain ⟨hlinked', hinv'⟩ := runStages_ok hinv hlinked ⟨host, hwalked⟩ hrun
  have hreleased : ∀ st ∈ stages', Disciplined st.released :=
    fun st hst => (hinv' st hst).coherent.released_walks
  exact ⟨hlinked'.prefixLinked, hreleased,
    hlinked'.prefixLinked.accepted_disciplined ⟨host, hwalked⟩ hreleased,
    fun _ => ⟨hlinked', hinv', fun _ => hwalked⟩⟩

/-- **Every run keeps the invariant.** -/
theorem run_inv (v : Verifiers) (plugins : List StreamPlugin) (hosts : List StreamEvent) :
    RunInv hosts (run v plugins hosts) := by
  induction hosts using reverseRecOn with
  | nil => exact .init plugins
  | append_singleton xs ev ih =>
    rw [run_concat]
    exact ih.step

/-- What a chunk can do to one stage; a stage that stops ends the stream. -/
inductive Moved (v : Verifiers) (ended : Bool) (st : Stage) : Stage → Prop where
  | idle : Moved v ended st st
  | took {batch out : List StreamEvent} {state : PluginStreamState}
    (h : runStage v st.plugin st.state batch = (state, .ok out)) :
    Moved v ended st { st with state, released := st.released ++ out }
  | stopped {batch : List StreamEvent} {state : PluginStreamState} {term : StreamTerminalError}
    (h : runStage v st.plugin st.state batch = (state, .error term)) (hended : ended = true) :
    Moved v ended st { st with state }

lemma runStages_moved (ended : Bool) (stages : List Stage) (batch : List StreamEvent)
    (hended : ∀ term, (runStages v stages batch).2 = .error term → ended = true) :
    Forall₂ (Moved v ended) stages (runStages v stages batch).1 := by
  induction stages generalizing batch with
  | nil => exact .nil
  | cons st rest ih =>
  unfold runStages at hended ⊢
  split at hended
  · next state term hrun =>
    exact .cons (.stopped hrun (hended term rfl)) (forall₂_same.mpr fun _ _ => .idle)
  · next state out hrun =>
    exact .cons (.took hrun) (ih out hended)

lemma chunk_moved (v : Verifiers) (vs : StreamVerifierState) (ev : StreamEvent) :
    Forall₂ (Moved v (runOnStreamChunkVerified v vs ev).1.terminal.isSome) vs.stages
      (runOnStreamChunkVerified v vs ev).1.stages := by
  rcases chunk_cases v vs ev with hsame | ⟨host, hnone, hwalk⟩
  · rw [hsame]
    exact forall₂_same.mpr fun _ _ => .idle
  obtain ⟨hstages, hterm⟩ := chunk_ran (v := v) hnone hwalk
  rw [hstages]
  refine runStages_moved _ _ _ fun term herror => ?_
  rw [(hterm term).mp herror]
  rfl

lemma Moved.released {ended : Bool} {st st' : Stage} (h : Moved v ended st st') :
    st.released <+: st'.released := by
  cases h with
  | idle => exact prefix_rfl
  | took _ => exact prefix_append _ _
  | stopped _ _ => exact prefix_rfl

end run

def sampleVerifiers : Verifiers where
  classifier := standardClassifier
  registry := streamRegistry
  protobuf := sampleProtobuf
  size _ := 0

/-- Usage is the host's even with every grant, text needs the assistant's, and
dropping it needs topology as well. -/
example :
    let verify (accepted returned : List StreamEvent) (grants : List String) :=
      (verifyStreamPolicy streamRegistry sampleProtobuf accepted returned
        (some fun grant => grants.contains grant)).isOk
    verify [{ event := some (.usage { inputTokens := 1 }) }]
        [{ event := some (.usage { inputTokens := 2 }) }]
        [streamWriteGrant, assistantGrant] = false ∧
      verify [.textDelta "a"] [.textDelta "b"] [assistantGrant] = true ∧
      verify [.textDelta "a"] [] [streamWriteGrant] = false ∧
      verify [.textDelta "a"] [] [streamWriteGrant, assistantGrant] = true ∧
      verify [.textDelta "a", .textDelta "b"] [.textDelta "b", .textDelta "a"]
        [streamWriteGrant] = true ∧
      verify [] [.startTool 0 { id := "x", name := "t" }] [streamWriteGrant] = false := by
  decide +kernel

/-- A plugin with every grant. -/
def grantedPlugin (failureMode : FailureMode)
    (invoke : Nat → StreamEvent → Except String (List StreamEvent)) : StreamPlugin where
  name := "sample"
  failureMode
  hasGrant _ := true
  streamBufferLimit := 100000
  invoke

def freeform (id : String) : ToolCallRef := { id, name := "t", invocationKind := .freeform }

section ending

variable {v : Verifiers} {stages stages' : List Stage} {input : List StreamEvent}

lemma endWalkers_ok (h : endWalkers stages = .ok ()) :
    ∀ st ∈ stages, st.state.walker.finish = .ok () := by
  induction stages with
  | nil => intro st hst; cases hst
  | cons st rest ih =>
  unfold endWalkers at h
  split at h
  · cases h
  next hfinish =>
  exact forall_mem_cons.mpr ⟨hfinish, ih h⟩

/-- The last scope checks move no event. -/
lemma endScopes_frame (v : Verifiers) (stages : List Stage) :
    Forall₂ (fun st st' => SameBuffers st.state st'.state ∧ st'.released = st.released) stages
      (endScopes v stages).1 := by
  induction stages with
  | nil => exact .nil
  | cons st rest ih =>
  have hcheck := (checkScope_spec v st.plugin st.state (st.state.scopeNum + 1)).1
  have hrest : Forall₂ (fun st st' => SameBuffers st.state st'.state ∧
      st'.released = st.released) rest rest := forall₂_same.mpr fun s _ => ⟨.refl s.state, rfl⟩
  unfold endScopes
  split
  · exact .cons ⟨.refl st.state, rfl⟩ ih
  split
  · next state term heq =>
    rw [heq] at hcheck
    exact .cons ⟨hcheck, rfl⟩ hrest
  next state heq =>
  rw [heq] at hcheck
  exact .cons ⟨hcheck, rfl⟩ ih

/-- A tool that is open at the end of a stream is reported. -/
lemma finish_openTool (hseen : w.sawError = false)
    (hi : i ∈ w.openTools.map Prod.fst) : w.finish ≠ .ok () := by
  obtain ⟨tool, htool, -⟩ := mem_map.mp hi
  have hopen : w.openTools.isEmpty = false := isEmpty_eq_false_iff.mpr (ne_nil_of_mem htool)
  unfold finish
  rw [hseen, hopen]
  simp

/-- From the host's end to the last stage: a stage whose accepted stream is
complete has resolved every decision, so it has released its whole output, which
is the next stage's accepted stream. -/
lemma unheld_of_finish (hinv : ∀ st ∈ stages, StageInv st)
    (hlinked : Linked input stages) (hinput : walkAll {} input = .ok w) (hw : w.finish = .ok ())
    (hfinish : ∀ st ∈ stages, st.state.walker.finish = .ok ()) :
    ∀ st ∈ stages, st.state.journal = none := by
  induction stages generalizing input w with
  | nil => intro st hst; cases hst
  | cons st rest ih =>
  obtain ⟨hfirst, hrest⟩ := hlinked
  rw [forall_mem_cons] at hfinish ⊢
  obtain ⟨hst, hbehind⟩ := forall_mem_cons.mp hinv
  have hnone : st.state.journal = none := by
    cases hj : st.state.journal with
    | none => rfl
    | some j =>
    exfalso
    -- a pending index is an open tool of a complete stream
    obtain ⟨i, hi⟩ := exists_mem_of_ne_nil _ (hst.undecided j hj)
    obtain ⟨u, hu, hseen, hopen⟩ := hst.deferred j hj i hi
    rw [hfirst, hinput] at hu
    cases hu
    exact finish_openTool hseen hopen hw
  have hreleased : walkAll {} st.released = .ok st.state.walker :=
    hst.coherent.unheld hnone ▸ hst.coherent.walker
  exact ⟨hnone, ih hbehind hrest hreleased hfinish.1 hfinish.2⟩

end ending

/-- **No event is stranded.**  If the stream ends well, no stage holds a journal and
every stage has released all it returned. -/
theorem endStreamVerified_unheld (v : Verifiers) (plugins : List StreamPlugin)
    (hosts : List StreamEvent) (vs : StreamVerifierState)
    (h : endStreamVerified v (run v plugins hosts) = (vs, .ok ())) :
    ∀ st ∈ vs.stages, st.state.journal = none ∧ st.released = st.state.returned := by
  have hrun := run_inv v plugins hosts
  unfold endStreamVerified at h
  split at h
  · cases h
  next hnone =>
  split at h
  · cases h
  next hfinish =>
  split at h
  · cases h
  next hwalkers =>
  obtain ⟨hlinked, hinv, hhost⟩ := hrun.live hnone
  have hframe := endScopes_frame v (run v plugins hosts).stages
  split at h
  · cases h
  next stages heq =>
  cases h
  rw [heq] at hframe
  intro st' hst'
  -- a stage of the final state is one of the run, up to its scope counter
  obtain ⟨k, hk⟩ := mem_iff_getElem?.mp hst'
  obtain ⟨st, hst, hsame, hreleased⟩ := Align.forall₂_getElem? hframe.flip hk
  have hmem := mem_of_getElem? hst
  have hstages : (run v plugins hosts).stages ≠ [] := ne_nil_of_mem hmem
  have hjournal := unheld_of_finish hinv hlinked (hhost hstages) hfinish (endWalkers_ok hwalkers)
    st hmem
  refine ⟨hsame.journal.trans hjournal, ?_⟩
  rw [hreleased, hsame.returned]
  exact ((hinv st hmem).coherent.unheld hjournal).symm

/-- A stream whose only tool is deferred and finally suppressed. -/
def suppressedTool : StreamVerifierState :=
  run sampleVerifiers [grantedPlugin .pass fun _ _ => .ok []]
    [.startTool 0 { id := "x", name := "t" }, .stop 0]

theorem endStreamVerified_unheld_suppressed :
    (endStreamVerified sampleVerifiers suppressedTool).2 = .ok () ∧
      ∀ st ∈ (endStreamVerified sampleVerifiers suppressedTool).1.stages,
        st.state.journal = none ∧ st.released = st.state.returned := by
  have hok : (endStreamVerified sampleVerifiers suppressedTool).2 = .ok () := by decide +kernel
  exact ⟨hok, endStreamVerified_unheld _ _ _ _ (Prod.ext rfl hok)⟩

end ToranaEdge.Enforce
