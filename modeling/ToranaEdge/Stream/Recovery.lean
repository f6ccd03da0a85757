import ToranaEdge.Stream.EnforceRun

/-! # Recovery of a failing plugin

In failure mode `pass` a stage whose plugin fails goes on without it.  With a
journal open the whole transaction is undone: the accepted events since the
journal began take the place of what the plugin returned, and the plugin is
not called again.  Without one, the event itself stands in for the answer. -/

namespace ToranaEdge.Enforce

open StreamDisciplineWalker List

/-! ## Where a journal began -/

variable (v : Verifiers)

/-- The points of the event loop: each state with the event handled there. -/
def visits (lp : StreamPlugin) :
    PluginStreamState → List StreamEvent → List (PluginStreamState × StreamEvent)
  | _, [] => []
  | pvs, ev :: rest =>
    (pvs, ev) ::
      match handleEvent v lp pvs ev with
      | (pvs', .ok _) => visits lp pvs' rest
      | (_, .error _) => []

/-- The stage handles the event in this state during the run. -/
def Visited (plugins : List StreamPlugin) (hosts : List StreamEvent) (stage : Nat)
    (pvs : PluginStreamState) (ev : StreamEvent) : Prop :=
  ∃ c ∈ runCalls v plugins hosts, c.stage = stage ∧ (pvs, ev) ∈ visits v c.plugin c.before c.batch

variable (lp : StreamPlugin)

/-- The answer to this event opens a journal. -/
def Begins (pvs : PluginStreamState) (ev : StreamEvent) : Prop :=
  pvs.journal = none ∧ (propose v lp pvs ev).state.journal ≠ none

variable (R : PluginStreamState → StreamEvent → Prop)

/-- The journal began at a point that satisfies `R`: the stage had returned what it
has released, and the journal has every event it accepted since. -/
def BeganAt (released : List StreamEvent) (pvs : PluginStreamState) (j : StreamJournal) : Prop :=
  ∃ s₀ e₀, R s₀ e₀ ∧ Begins v lp s₀ e₀ ∧ s₀.returned = released ∧
    pvs.accepted = s₀.accepted ++ j.originals

/-- An open journal began somewhere. -/
def Ledger (released : List StreamEvent) (pvs : PluginStreamState) : Prop :=
  ∀ j, pvs.journal = some j → BeganAt v lp R released pvs j

section stage

variable {v : Verifiers} {lp : StreamPlugin} {pvs pvs' : PluginStreamState} {ev : StreamEvent}
  {R : PluginStreamState → StreamEvent → Prop} {released : List StreamEvent}

lemma Ledger.mono {R' : PluginStreamState → StreamEvent → Prop} (h : Ledger v lp R released pvs)
    (hR : ∀ s e, R s e → R' s e) : Ledger v lp R' released pvs := by
  intro j hj
  obtain ⟨s₀, e₀, hpoint, hrest⟩ := h j hj
  exact ⟨s₀, e₀, hR s₀ e₀ hpoint, hrest⟩

lemma ledger_of_none (h : pvs.journal = none) : Ledger v lp R released pvs := by
  intro j hj
  cases h.symm.trans hj

lemma Ledger.sameBuffers (h : Ledger v lp R released pvs) (hsame : SameBuffers pvs pvs') :
    Ledger v lp R released pvs' := by
  intro j hj
  obtain ⟨s₀, e₀, hpoint, hbegins, hreturned, haccepted⟩ := h j (hsame.journal ▸ hj)
  exact ⟨s₀, e₀, hpoint, hbegins, hreturned, hsame.accepted.trans haccepted⟩

section

variable (h : Ledger v lp R released pvs) (hs : Coherent pvs released)
include h hs

/-- The journal of a proposal began before, or begins with it. -/
lemma Ledger.propose (hR : R pvs ev) : Ledger v lp R released (propose v lp pvs ev).state := by
  have hp := propose_proposed v lp pvs ev
  intro j hj
  cases hold : pvs.journal with
  | none =>
    obtain ⟨hopen, -⟩ := hp.opened j hj hold
    refine ⟨pvs, ev, hR, ⟨hold, ?_⟩, hs.unheld hold, ?_⟩
    · rw [hj]
      exact Option.some_ne_none j
    · rw [hp.accepted, hopen.originals]
  | some j₀ =>
  obtain ⟨s₀, e₀, hpoint, hbegins, hreturned, haccepted⟩ := h j₀ hold
  refine ⟨s₀, e₀, hpoint, hbegins, hreturned, ?_⟩
  rw [hp.accepted, haccepted, (hp.extended j₀ j hj hold).originals, append_assoc]

variable {out : List StreamEvent}

lemma handleEvent_ledger (hR : R pvs ev) (hstep : handleEvent v lp pvs ev = (pvs', .ok out)) :
    Ledger v lp R (released ++ out) pvs' := by
  have hpropose := h.propose hs hR
  cases handleEvent_ok hstep with
  | published hcall =>
    intro j hj
    unfold publish at hj ⊢
    dsimp only at hj ⊢
    split at hj
    · next j₁ hj₁ =>
      -- the answer is held: the released events stay, and so do the originals
      cases hj
      obtain ⟨s₀, e₀, hpoint, hbegins, hreturned, haccepted⟩ := hpropose j₁ hj₁
      exact ⟨s₀, e₀, hpoint, hbegins, by rw [append_nil]; exact hreturned, haccepted⟩
    next hnone =>
    cases hnone.symm.trans hj
  | rolledBack hcall hmode hj hback => exact ledger_of_none hback.journal
  | replaced hcall hmode hj hwalk => exact ledger_of_none hj

variable {batch : List StreamEvent} (hR : ∀ p ∈ visits v lp pvs batch, R p.1 p.2)
include hR

/-- At every point of the loop the buffers agree and an open journal has a beginning. -/
lemma visits_ledger : ∀ p ∈ visits v lp pvs batch, ∃ outs, Coherent p.1 (released ++ outs) ∧
      Ledger v lp R (released ++ outs) p.1 := by
  induction batch generalizing pvs released with
  | nil => intro p hp; cases hp
  | cons e rest ih =>
  intro p hp
  unfold visits at hp hR
  have hhead : R pvs e := hR (pvs, e) mem_cons_self
  rcases mem_cons.mp hp with rfl | hp
  · exact ⟨[], by simpa using hs, by simpa using h⟩
  split at hp
  · next s' o hstep =>
    rw [hstep] at hR
    obtain ⟨outs, hcoherent, hledger⟩ := ih (handleEvent_ledger h hs hhead hstep)
      (handleEvent_coherent hs hstep) (fun q hq => hR q (mem_cons_of_mem _ hq)) p hp
    exact ⟨o ++ outs, by rw [← append_assoc]; exact hcoherent,
      by rw [← append_assoc]; exact hledger⟩
  · cases hp

lemma handleBatch_ledger (hrun : handleBatch v lp pvs batch = (pvs', .ok out)) :
    Ledger v lp R (released ++ out) pvs' := by
  induction batch generalizing pvs released out with
  | nil =>
    cases hrun
    simpa using h
  | cons e rest ih =>
  unfold visits at hR
  have hhead : R pvs e := hR (pvs, e) mem_cons_self
  unfold handleBatch at hrun
  split at hrun
  · cases hrun
  next s₁ o hstep =>
  split at hrun
  · cases hrun
  next s₂ outs hrest =>
  cases hrun
  rw [hstep] at hR
  rw [← append_assoc]
  exact ih (handleEvent_ledger h hs hhead hstep) (handleEvent_coherent hs hstep)
    (fun q hq => hR q (mem_cons_of_mem _ hq)) hrest

lemma runStage_ledger
    (hrun : runStage v lp pvs batch = (pvs', .ok out)) : Ledger v lp R (released ++ out) pvs' := by
  unfold runStage at hrun
  split at hrun
  · cases hrun
  next s₁ next hbatch =>
  have hledger := handleBatch_ledger h hs hR hbatch
  cases (settleScopes_ok hrun).1 with
  | kept hsame _ => exact hledger.sameBuffers hsame
  | flushed _ _ hsame => exact ledger_of_none hsame.journal
  | rolledBack _ _ _ _ hback hsame => exact ledger_of_none (hsame.journal.trans hback.journal)

end

/-! ## A disabled stage passes events through -/

variable {out batch : List StreamEvent}

/-- The plugin is out of the stage and nothing is held. -/
structure Out (pvs : PluginStreamState) : Prop where
  journal : pvs.journal = none
  disabled : pvs.disabled = true

/-- The stage took the events and passed them on, without its plugin. -/
structure Through (es : List StreamEvent) (s s' : PluginStreamState) : Prop where
  out : Out s'
  accepted : s'.accepted = s.accepted ++ es
  returned : s'.returned = s.returned ++ es

lemma Out.proposal (h : Out pvs) : (propose v lp pvs ev).state.journal = none := by
  have hp := propose_proposed v lp pvs ev
  cases hj : (propose v lp pvs ev).state.journal with
  | none => rfl
  | some j =>
  -- a journal begins with an empty answer, but the event passes
  obtain ⟨-, hempty⟩ := hp.opened j hj h.journal
  rw [hp.passed h.disabled] at hempty
  cases hempty

lemma handleEvent_through (h : Out pvs)
    (hstep : handleEvent v lp pvs ev = (pvs', .ok out)) : Through [ev] pvs pvs' ∧ out = [ev] := by
  have hp := propose_proposed v lp pvs ev
  have hnone : (propose v lp pvs ev).state.journal = none := h.proposal
  have hdisabled : (propose v lp pvs ev).state.disabled = true := hp.disabled.trans h.disabled
  cases handleEvent_ok hstep with
  | published hcall =>
    have hemitted := hp.passed h.disabled
    unfold publish
    rw [hemitted]
    dsimp only
    split
    · next j hj =>
      cases hnone.symm.trans hj
    · exact ⟨⟨⟨hnone, hdisabled⟩, hp.accepted, by rw [hp.returned]⟩, rfl⟩
  | rolledBack hcall hmode hj hback =>
    cases hnone.symm.trans hj
  | replaced hcall hmode hj hwalk =>
    exact ⟨⟨⟨hnone, hdisabled⟩, hp.accepted, by rw [hp.returned]⟩, rfl⟩

lemma handleBatch_through (h : Out pvs) (hrun : handleBatch v lp pvs batch = (pvs', .ok out)) :
    Through batch pvs pvs' ∧ out = batch := by
  refine handleBatch_induct (P := fun s done next => Through done pvs s ∧ next = done) ?_ ?_ hrun
  · exact ⟨⟨h, by simp, by simp⟩, rfl⟩
  · rintro s done next e s' o ⟨hthrough, rfl⟩ hstep
    obtain ⟨hone, rfl⟩ := handleEvent_through hthrough.out hstep
    refine ⟨⟨hone.out, ?_, ?_⟩, rfl⟩
    · rw [hone.accepted, hthrough.accepted, append_assoc]
    · rw [hone.returned, hthrough.returned, append_assoc]

/-- Whatever becomes of the batch, a plugin that is out is not called. -/
lemma handleBatch_invocations (h : Out pvs) (batch : List StreamEvent) :
    (handleBatch v lp pvs batch).1.invocations = pvs.invocations := by
  induction batch generalizing pvs with
  | nil => rfl
  | cons e rest ih =>
  have hfirst := handleEvent_invocations v lp pvs e h.disabled
  unfold handleBatch
  split
  · next s₁ t hstep =>
    rw [hstep] at hfirst
    exact hfirst
  next s₁ o hstep =>
  rw [hstep] at hfirst
  have hrest := ih (handleEvent_through h hstep).1.out
  split <;> next hbatch =>
    rw [hbatch] at hrest
    exact hrest.trans hfirst

/-- The accepted events only grow. -/
lemma handleBatch_accepted (v : Verifiers) (lp : StreamPlugin) (pvs : PluginStreamState)
    (batch : List StreamEvent) :
    ∃ done, (handleBatch v lp pvs batch).1.accepted = pvs.accepted ++ done := by
  induction batch generalizing pvs with
  | nil => exact ⟨[], (append_nil _).symm⟩
  | cons e rest ih =>
  have hfirst := handleEvent_accepted v lp pvs e
  unfold handleBatch
  split
  · next s₁ t hstep =>
    rw [hstep] at hfirst
    exact ⟨[e], hfirst⟩
  next s₁ o hstep =>
  rw [hstep] at hfirst
  obtain ⟨done, hdone⟩ := ih s₁
  split <;> next hbatch =>
    rw [hbatch] at hdone
    exact ⟨e :: done, by rw [hdone, hfirst, append_assoc]; rfl⟩

lemma runStage_history (v : Verifiers) (lp : StreamPlugin) (pvs : PluginStreamState)
    (batch : List StreamEvent) :
    SameHistory (handleBatch v lp pvs batch).1 (runStage v lp pvs batch).1 := by
  unfold runStage
  split
  · next s₁ t hbatch =>
    rw [hbatch]
    exact ⟨rfl, rfl⟩
  next s₁ next hbatch =>
  rw [hbatch]
  exact settleScopes_history v lp _ _ s₁ next

/-- **A stage without its plugin** releases its batch as it is. -/
theorem runStage_through (h : Out pvs) (hrun : runStage v lp pvs batch = (pvs', .ok out)) :
    Through batch pvs pvs' ∧ out = batch := by
  unfold runStage at hrun
  split at hrun
  · cases hrun
  next s₁ next hbatch =>
  obtain ⟨hthrough, rfl⟩ := handleBatch_through h hbatch
  cases (settleScopes_ok hrun).1 with
  | kept hsame _ =>
    exact ⟨⟨⟨hsame.journal.trans hthrough.out.journal, hsame.disabled.trans hthrough.out.disabled⟩,
      hsame.accepted.trans hthrough.accepted, hsame.returned.trans hthrough.returned⟩, rfl⟩
  | flushed hjournal _ _ | rolledBack _ _ hjournal _ _ _ =>
    rw [hthrough.out.journal] at hjournal
    cases hjournal

end stage

/-! ## After a rollback -/

/-- The stage was taken back to `s₀`, after `n` calls of its plugin: what it has
released is what it had returned there and then the events it accepted since,
all of them while the stream is live. -/
def Undone (s₀ : PluginStreamState) (n : Nat) (live : Prop) (st : Stage) : Prop :=
  st.state.invocations = n ∧ ∃ since, st.state.accepted = s₀.accepted ++ since ∧
    st.released <+: s₀.returned ++ since ∧ (live → st.released = s₀.returned ++ since)

/-- The same in a form that every chunk preserves: a live stage is out. -/
structure UndoneInv (s₀ : PluginStreamState) (n : Nat) (vs : StreamVerifierState) (st : Stage) :
    Prop where
  undone : Undone s₀ n (vs.terminal = none) st
  out : vs.terminal = none → Out st.state

section run

variable {v : Verifiers} {s₀ : PluginStreamState} {n k : Nat} {vs : StreamVerifierState} {st : Stage}

lemma UndoneInv.step (h : UndoneInv s₀ n vs st) (hst : vs.stages[k]? = some st)
    (ev : StreamEvent) : ∃ st', (runOnStreamChunkVerified v vs ev).1.stages[k]? = some st' ∧
      UndoneInv s₀ n (runOnStreamChunkVerified v vs ev).1 st' := by
  cases hterm : vs.terminal with
  | some t =>
    rw [chunk_idle (.inl (by rw [hterm]; simp))]
    exact ⟨st, hst, h⟩
  | none =>
  have hout := h.out hterm
  obtain ⟨hcalls, since, haccepted, -, hreleased⟩ := h.undone
  have hreleased := hreleased hterm
  obtain ⟨st', hst', hmoved⟩ := Align.forall₂_getElem? (chunk_moved v vs ev) hst
  refine ⟨st', hst', ?_⟩
  cases hmoved with
  | idle => exact ⟨⟨hcalls, since, haccepted, hreleased ▸ prefix_rfl, fun _ => hreleased⟩,
      fun _ => hout⟩
  | @took batch out state hrun =>
    obtain ⟨hthrough, rfl⟩ := runStage_through hout hrun
    have hinvocations := (runStage_history v st.plugin st.state out).invocations.trans
      (handleBatch_invocations hout out)
    rw [hrun] at hinvocations
    have hwhole : st.released ++ out = s₀.returned ++ (since ++ out) := by
      rw [hreleased, append_assoc]
    refine ⟨⟨hinvocations.trans hcalls, since ++ out, ?_, hwhole ▸ prefix_rfl, fun _ => hwhole⟩,
      fun _ => hthrough.out⟩
    rw [← append_assoc, ← haccepted]
    exact hthrough.accepted
  | @stopped batch state term hrun hover =>
    have hhistory := runStage_history v st.plugin st.state batch
    have hinvocations := hhistory.invocations.trans (handleBatch_invocations hout batch)
    obtain ⟨done, hdone⟩ := handleBatch_accepted v st.plugin st.state batch
    have hmore := hhistory.accepted.trans hdone
    rw [hrun] at hinvocations hmore
    -- the stream is over, and nothing of the last batch is released
    have hdead : ¬ (runOnStreamChunkVerified v vs ev).1.terminal = none := by
      intro hnone
      rw [hnone] at hover
      cases hover
    refine ⟨⟨hinvocations.trans hcalls, since ++ done, ?_, ?_, fun hlive => absurd hlive hdead⟩,
      fun hlive => absurd hlive hdead⟩
    · rw [← append_assoc, ← haccepted]
      exact hmore
    · rw [← append_assoc, ← hreleased]
      exact prefix_append _ _

lemma UndoneInv.runFrom (h : UndoneInv s₀ n vs st) (hst : vs.stages[k]? = some st)
    (more : List StreamEvent) : ∃ st', (runFrom v vs more).stages[k]? = some st' ∧
      Undone s₀ n ((runFrom v vs more).terminal = none) st' := by
  induction more generalizing vs st with
  | nil => exact ⟨st, hst, h.undone⟩
  | cons ev rest ih =>
    obtain ⟨st', hst', h'⟩ := h.step hst ev
    exact ih h' hst'

/-! ## Along a run -/

variable {plugins : List StreamPlugin} {hosts batch : List StreamEvent} {ev : StreamEvent}
  {c : StageCall} {t : StreamTerminalError} {stages : List Stage}

lemma outcome_error_of_mem_stageCalls {n : Nat} (h : c ∈ stageCalls v n stages batch)
    (ht : c.outcome = .error t) : (runStages v stages batch).2 = .error t := by
  induction stages generalizing n batch with
  | nil => cases h
  | cons st rest ih =>
  unfold runStages
  rcases mem_cons.mp h with rfl | htail
  · split
    · next hrun => rw [hrun] at ht; exact ht
    · next hrun => rw [hrun] at ht; cases ht
  split at htail
  · next out hout =>
    split
    · next hrun => rw [hrun] at hout; cases hout
    next hrun =>
    rw [hrun] at hout
    cases hout
    exact ih htail
  · cases htail

/-- A turn that fails ends the stream. -/
lemma terminal_of_mem_chunkCalls (h : c ∈ chunkCalls v vs ev) (ht : c.outcome = .error t) :
    (runOnStreamChunkVerified v vs ev).1.terminal = some t := by
  unfold chunkCalls at h
  split at h
  · next host hnone hwalk =>
    exact ((chunk_ran hnone hwalk).2 t).mp (outcome_error_of_mem_stageCalls h ht)
  · cases h

lemma stage_or_call_of_stages {n : Nat} (h : (runStages v stages batch).1[k]? = some st) :
    stages[k]? = some st ∨ ∃ c ∈ stageCalls v n stages batch, c.stage = n + k := by
  induction stages generalizing n k batch with
  | nil => exact .inl h
  | cons head rest ih =>
  cases k with
  | zero => exact .inr ⟨_, mem_cons_self, rfl⟩
  | succ k =>
  unfold runStages at h
  split at h
  · exact .inl h
  next state out hrun =>
  rcases ih (n := n + 1) h with hsame | ⟨c, hc, hstage⟩
  · exact .inl hsame
  refine .inr ⟨c, ?_, by omega⟩
  unfold stageCalls
  rw [hrun]
  exact mem_cons_of_mem _ hc

/-- After a chunk a stage is what it was, or had a turn. -/
lemma stage_or_call (h : (runOnStreamChunkVerified v vs ev).1.stages[k]? = some st) :
    vs.stages[k]? = some st ∨ ∃ c ∈ chunkCalls v vs ev, c.stage = k := by
  rcases chunk_cases v vs ev with hsame | ⟨host, hnone, hwalk⟩
  · exact .inl (hsame ▸ h)
  rw [(chunk_ran hnone hwalk).1] at h
  rcases stage_or_call_of_stages (n := 0) h with hsame | ⟨c, hc, hstage⟩
  · exact .inl hsame
  refine .inr ⟨c, ?_, by omega⟩
  unfold chunkCalls
  rw [hnone, hwalk]
  exact hc

lemma Visited.more {k : Nat} {s : PluginStreamState} {e : StreamEvent}
    (h : Visited v plugins hosts k s e) (more : List StreamEvent) :
    Visited v plugins (hosts ++ more) k s e := by
  obtain ⟨c, hc, hrest⟩ := h
  refine ⟨c, ?_, hrest⟩
  rw [runCalls_append]
  exact mem_append_left _ hc

lemma mem_runCalls_concat (h : c ∈ chunkCalls v (run v plugins hosts) ev) :
    c ∈ runCalls v plugins (hosts ++ [ev]) := by
  rw [runCalls_append]
  apply mem_append_right
  show c ∈ chunkCalls v (run v plugins hosts) ev ++ []
  rw [append_nil]
  exact h

/-- **Every open journal of a run began in the run.** -/
theorem run_ledger (v : Verifiers) (plugins : List StreamPlugin) (hosts : List StreamEvent) :
    ∀ k st, (run v plugins hosts).stages[k]? = some st → (run v plugins hosts).terminal = none →
      Ledger v st.plugin (Visited v plugins hosts k) st.released st.state := by
  induction hosts using reverseRecOn with
  | nil =>
    intro k st hst _
    obtain ⟨plugin, -, rfl⟩ := mem_map.mp (mem_of_getElem? hst)
    exact ledger_of_none rfl
  | append_singleton xs ev ih =>
  intro k st hst hlive
  rw [run_concat] at hst hlive
  have hbefore : (run v plugins xs).terminal = none := by
    by_contra hterm
    rw [chunk_idle (.inl hterm)] at hlive
    exact hterm hlive
  rcases stage_or_call hst with hsame | ⟨c, hc, rfl⟩
  · exact (ih k st hsame hbefore).mono fun s e h => h.more [ev]
  -- the stage had its turn: the ledger of the state before carries over
  obtain ⟨-, hran, k', hstage, hfound, hresult⟩ := turn_of_mem_chunkCalls hc
  obtain rfl : c.stage = k' := by omega
  cases hst.symm.trans hresult
  cases hout : c.outcome with
  | error t =>
    rw [terminal_of_mem_chunkCalls hc hout] at hlive
    cases hlive
  | ok out =>
  have hledger := (ih c.stage _ hfound hbefore).mono fun s e h => h.more [ev]
  have hcoherent := (((run_inv v plugins xs).live hbefore).2.1 _ (mem_of_getElem? hfound)).coherent
  have hvisited : ∀ p ∈ visits v c.plugin c.before c.batch,
      Visited v plugins (xs ++ [ev]) c.stage p.1 p.2 :=
    fun p hp => ⟨c, mem_runCalls_concat hc, rfl, hp⟩
  rw [hout] at hran
  unfold StageCall.result
  rw [hout]
  exact runStage_ledger hledger hcoherent hvisited hran

end run

/-! ## Recovery -/

/-- The check of the closed scopes fails, after the event loop went from `pvs` to
`s₁`. -/
def ScopeFails (v : Verifiers) (lp : StreamPlugin) (pvs s₁ : PluginStreamState) : Prop :=
  Closes pvs.accepted.length pvs.returned.length s₁ = true ∧ s₁.recountCloses.resolved = true ∧
    ∃ term, (scopeVerdict v lp s₁.recountCloses
      ((s₁.accepted.drop pvs.accepted.length).any isTerminalEvent ||
        (s₁.returned.drop pvs.returned.length).any isTerminalEvent)).2 = .error term

/-- The stage's journal was undone and its plugin is out for the rest of the run. -/
def Recovered (v : Verifiers) (plugins : List StreamPlugin) (hosts : List StreamEvent)
    (c : StageCall) (j : StreamJournal) (s : PluginStreamState) : Prop :=
  ∃ s₀ e₀, Visited v plugins hosts c.stage s₀ e₀ ∧ Begins v c.plugin s₀ e₀ ∧ s.journal = none ∧
    s.accepted = s₀.accepted ++ j.originals ∧ s.returned = s₀.returned ++ j.originals ∧
    ∃ st, (run v plugins hosts).stages[c.stage]? = some st ∧
      Undone s₀ s.invocations ((run v plugins hosts).terminal = none) st

section recovery

variable {v : Verifiers} {lp : StreamPlugin} {pvs mid s : PluginStreamState} {e : StreamEvent}
  {plugins : List StreamPlugin} {hosts : List StreamEvent} {c : StageCall}

/-- From a point of the loop on, the loop is that of the state after it. -/
lemma visits_rest {batch out : List StreamEvent} (h : (mid, e) ∈ visits v lp pvs batch)
    (hstep : handleEvent v lp mid e = (s, .ok out)) :
    ∃ rest, (handleBatch v lp pvs batch).1 = (handleBatch v lp s rest).1 ∧
      ∀ outs, (handleBatch v lp pvs batch).2 = .ok outs →
        ∃ outs', (handleBatch v lp s rest).2 = .ok outs' := by
  induction batch generalizing pvs with
  | nil => cases h
  | cons e' rest ih =>
  rcases mem_cons.mp h with hhead | htail
  · cases hhead
    rw [handleBatch_cons rest hstep]
    refine ⟨rest, rfl, ?_⟩
    intro outs houts
    obtain ⟨outs', hok, -⟩ := Attempt.map_eq_ok.mp houts
    exact ⟨outs', hok⟩
  split at htail
  · next s' o hfirst =>
    obtain ⟨rest', hstate, hok⟩ := ih htail
    rw [handleBatch_cons rest hfirst]
    refine ⟨rest', hstate, ?_⟩
    intro outs houts
    obtain ⟨outs', houts', -⟩ := Attempt.map_eq_ok.mp houts
    exact hok outs' houts'
  · cases htail

/-- A failed scope check of a stage that goes on was a rollback. -/
lemma settleScopes_fails {s₁ s' : PluginStreamState} {next out : List StreamEvent}
    (hfails : ScopeFails v lp pvs s₁)
    (h : settleScopes v lp pvs.accepted.length pvs.returned.length s₁ next = (s', .ok out)) :
    ∃ j mid, s₁.journal = some j ∧ RolledBack v lp j s₁ mid ∧ SameBuffers mid s' ∧
      out = next ++ j.originals := by
  obtain ⟨hcloses, hresolved, term, hverdict⟩ := hfails
  unfold Closes at hcloses
  unfold settleScopes at h
  dsimp only at h
  rw [if_pos hcloses, if_pos hresolved] at h
  split at h
  · cases h
  next s₂ next₂ hverified =>
  cases h
  have hchecked := verifyScopes_spec v lp s₁.recountCloses
    ((s₁.accepted.drop pvs.accepted.length).any isTerminalEvent ||
      (s₁.returned.drop pvs.returned.length).any isTerminalEvent) next
  rw [hverified] at hchecked
  cases hchecked with
  | passed hpassed hsame hok =>
    cases hpassed.symm.trans hverdict
  | @rolledBack j mid _ term' _ hmode hjournal hback hsame =>
  have hnone : s₂.journal = none := by rw [hsame.journal, hback.journal]
  refine ⟨j, mid, hjournal, (sameBuffers_recountCloses s₁).rolledBack hback, ?_, ?_⟩ <;>
    unfold releaseJournal <;> rw [hnone]
  exact hsame

/-- What a turn of a run can rely on. -/
structure InRun (v : Verifiers) (plugins : List StreamPlugin) (hosts : List StreamEvent)
    (c : StageCall) : Prop where
  coherent : Coherent c.before c.released
  ledger : Ledger v c.plugin (Visited v plugins hosts c.stage) c.released c.before
  visited : ∀ p ∈ visits v c.plugin c.before c.batch, Visited v plugins hosts c.stage p.1 p.2
  ran : runStage v c.plugin c.before c.batch = (c.after, c.outcome)
  later : ∀ s₀ n, (∀ vs : StreamVerifierState, (∀ t, c.outcome = .error t → vs.terminal = some t) →
      UndoneInv s₀ n vs c.result) →
    ∃ st, (run v plugins hosts).stages[c.stage]? = some st ∧
      Undone s₀ n ((run v plugins hosts).terminal = none) st

lemma inRun_of_mem (h : c ∈ runCalls v plugins hosts) : InRun v plugins hosts c := by
  have hvisited : ∀ p ∈ visits v c.plugin c.before c.batch, Visited v plugins hosts c.stage p.1 p.2 :=
    fun p hp => ⟨c, h, rfl, hp⟩
  obtain ⟨xs, ev, ys, rfl, hc⟩ := mem_runCalls h
  obtain ⟨hlive, hran, k, hstage, hfound, hresult⟩ := turn_of_mem_chunkCalls hc
  obtain rfl : c.stage = k := by omega
  have hmem := mem_of_getElem? hfound
  refine ⟨(((run_inv v plugins xs).live hlive).2.1 _ hmem).coherent,
    (run_ledger v plugins xs c.stage _ hfound hlive).mono fun s e hpoint => hpoint.more (ev :: ys),
    hvisited, hran, ?_⟩
  intro s₀ n hundone
  -- from the chunk of the turn to the end of the run
  have hinv := hundone (runOnStreamChunkVerified v (run v plugins xs) ev).1
    fun t ht => terminal_of_mem_chunkCalls hc ht
  rw [run_append]
  exact hinv.runFrom hresult ys

/-- A stage that leaves the loop without its plugin stays without it. -/
lemma InRun.undone_of_point (h : InRun v plugins hosts c) {s₀ : PluginStreamState}
    {out since outs : List StreamEvent} (hvisit : (mid, e) ∈ visits v c.plugin c.before c.batch)
    (hstep : handleEvent v c.plugin mid e = (s, .ok out)) (hout : Out s)
    (haccepted : s.accepted = s₀.accepted ++ since) (hreturned : s.returned = s₀.returned ++ since)
    (hreleased : s₀.returned = c.released ++ outs) :
    ∃ st, (run v plugins hosts).stages[c.stage]? = some st ∧
      Undone s₀ s.invocations ((run v plugins hosts).terminal = none) st := by
  apply h.later
  intro vs hterm
  obtain ⟨rest, hstate, hrest⟩ := visits_rest hvisit hstep
  have hhistory := runStage_history v c.plugin c.before c.batch
  rw [h.ran, hstate] at hhistory
  have hinvocations : c.after.invocations = s.invocations :=
    hhistory.invocations.trans (handleBatch_invocations hout rest)
  cases houtcome : c.outcome with
  | error t =>
    -- nothing of this turn is released, and the stream is over
    obtain ⟨done, hdone⟩ := handleBatch_accepted v c.plugin s rest
    have hdead : ¬ vs.terminal = none := by
      rw [hterm t houtcome]
      exact Option.some_ne_none t
    refine ⟨⟨hinvocations, since ++ done, ?_, ?_, fun hlive => absurd hlive hdead⟩,
      fun hlive => absurd hlive hdead⟩
    · rw [← append_assoc, ← haccepted]
      exact hhistory.accepted.trans hdone
    · unfold StageCall.result
      rw [houtcome, hreleased, append_assoc]
      exact prefix_append _ _
  | ok result =>
    have hran := h.ran
    rw [houtcome] at hran
    -- the rest of the batch passes, and there is no journal to settle
    have hbatch : ∃ s₁ next, handleBatch v c.plugin c.before c.batch = (s₁, .ok next) ∧
        settleScopes v c.plugin c.before.accepted.length c.before.returned.length s₁ next =
          (c.after, .ok result) := by
      unfold runStage at hran
      split at hran
      · cases hran
      · next s₁ next hloop => exact ⟨s₁, next, hloop, hran⟩
    obtain ⟨s₁, next, hloop, hsettle⟩ := hbatch
    rw [hloop] at hstate hrest
    obtain ⟨outs', houts'⟩ := hrest next rfl
    have hpassed : handleBatch v c.plugin s rest = (s₁, .ok outs') := Prod.ext hstate.symm houts'
    obtain ⟨hthrough, -⟩ := handleBatch_through hout hpassed
    have hafter : SameBuffers s₁ c.after := by
      cases (settleScopes_ok hsettle).1 with
      | kept hsame _ => exact hsame
      | flushed hjournal _ _ | rolledBack _ _ hjournal _ _ _ =>
        cases hthrough.out.journal.symm.trans hjournal
    have hnone : c.after.journal = none := hafter.journal.trans hthrough.out.journal
    obtain ⟨hcoherent, -⟩ := runStage_ok h.coherent hran
    have hwhole : c.released ++ result = s₀.returned ++ (since ++ rest) := by
      rw [← hcoherent.unheld hnone, hafter.returned, hthrough.returned, hreturned, append_assoc]
    have hresult : c.result.released = s₀.returned ++ (since ++ rest) := by
      unfold StageCall.result
      rw [houtcome]
      exact hwhole
    refine ⟨⟨hinvocations, since ++ rest, ?_, hresult ▸ prefix_rfl, fun _ => hresult⟩,
      fun _ => ⟨hnone, hafter.disabled.trans hthrough.out.disabled⟩⟩
    rw [← append_assoc, ← haccepted]
    exact hafter.accepted.trans hthrough.accepted

end recovery

/-- **Atomic recovery in failure mode `pass`.**  When the call, the discipline, the
field policy, the byte limit or the scope check fails and the stream goes on,
which it does in this mode only: with a journal open, the stage's returned events
become those it had returned when the journal began, then the events it accepted
since; the held output is never released and the plugin never called again.
Without a journal exactly the accepted event is released, and the walker is the
one before the call advanced by it. -/
theorem pass_recovery (v : Verifiers) (plugins : List StreamPlugin) (hosts : List StreamEvent)
    (c : StageCall) (hc : c ∈ runCalls v plugins hosts) :
    (∀ mid e err s out, (mid, e) ∈ visits v c.plugin c.before c.batch →
      (propose v c.plugin mid e).callErr = some err → handleEvent v c.plugin mid e = (s, .ok out) →
      (∀ j, (propose v c.plugin mid e).state.journal = some j →
        out = j.originals ∧ Recovered v plugins hosts c j s) ∧
      ((propose v c.plugin mid e).state.journal = none →
        out = [e] ∧ s.returned = mid.returned ++ [e] ∧ mid.walker.walk e = .ok s.walker)) ∧
    (∀ s₁ next out, handleBatch v c.plugin c.before c.batch = (s₁, .ok next) →
      ScopeFails v c.plugin c.before s₁ → c.outcome = .ok out →
      ∃ j, s₁.journal = some j ∧ out = next ++ j.originals ∧
        Recovered v plugins hosts c j c.after) := by
  have hrun := inRun_of_mem hc
  constructor
  · intro mid e err s out hvisit hcall hstep
    obtain ⟨outs, hcoherent, hledger⟩ := visits_ledger hrun.ledger hrun.coherent hrun.visited _ hvisit
    have hp := propose_proposed v c.plugin mid e
    cases handleEvent_ok hstep with
    | published hnone =>
      cases hnone.symm.trans hcall
    | @rolledBack _ j _ _ hmode hj hback =>
      refine ⟨?_, fun hnone => by rw [hj] at hnone; cases hnone⟩
      intro j' hj'
      cases hj.symm.trans hj'
      refine ⟨rfl, ?_⟩
      obtain ⟨s₀, e₀, hpoint, hbegins, hreturned₀, haccepted₀⟩ :=
        hledger.propose hcoherent (hrun.visited _ hvisit) j hj
      have haccepted : s.accepted = s₀.accepted ++ j.originals := hback.accepted.trans haccepted₀
      have hreturned : s.returned = s₀.returned ++ j.originals := by
        rw [RolledBack.returned_eq (hcoherent.held_proposal hp hj) hback, hreturned₀]
      exact ⟨s₀, e₀, hpoint, hbegins, hback.journal, haccepted, hreturned,
        hrun.undone_of_point hvisit hstep ⟨hback.journal, hback.disabled⟩ haccepted hreturned
          hreturned₀⟩
    | replaced _ hmode hj hwalk =>
      refine ⟨fun j hj' => (by rw [hj] at hj'; cases hj'), fun _ => ⟨rfl, ?_, ?_⟩⟩
      · rw [hp.returned]
      · rw [hp.unwalked (by rw [hcall]; exact Option.some_ne_none err) hj] at hwalk
        exact hwalk
  · intro s₁ next out hloop hfails hout
    have hran := hrun.ran
    rw [hout] at hran
    obtain ⟨hafter, -⟩ := runStage_ok hrun.coherent hran
    unfold runStage at hran
    rw [hloop] at hran
    obtain ⟨j, mid, hj, hback, hsame, rfl⟩ := settleScopes_fails hfails hran
    refine ⟨j, hj, rfl, ?_⟩
    obtain ⟨hcoherent, -⟩ := handleBatch_coherent hrun.coherent hloop
    obtain ⟨s₀, e₀, hpoint, hbegins, hreturned₀, haccepted₀⟩ :=
      handleBatch_ledger hrun.ledger hrun.coherent hrun.visited hloop j hj
    have hnone : c.after.journal = none := hsame.journal.trans hback.journal
    have haccepted : c.after.accepted = s₀.accepted ++ j.originals := by
      rw [hsame.accepted, hback.accepted, haccepted₀]
    have hreturned : c.after.returned = s₀.returned ++ j.originals := by
      rw [hsame.returned, RolledBack.returned_eq (hcoherent.held j hj) hback, hreturned₀]
    refine ⟨s₀, e₀, hpoint, hbegins, hnone, haccepted, hreturned, ?_⟩
    apply hrun.later
    intro vs _
    have hresult : c.result.released = s₀.returned ++ j.originals := by
      unfold StageCall.result
      rw [hout, ← hreturned]
      exact (hafter.unheld hnone).symm
    exact ⟨⟨rfl, j.originals, haccepted, hresult ▸ prefix_rfl, fun _ => hresult⟩,
      fun _ => ⟨hnone, hsame.disabled.trans hback.disabled⟩⟩

/-- Defers a tool and traps on the next call. -/
def deferThenTrap : StreamPlugin :=
  grantedPlugin .pass fun n _ => if n = 0 then .ok [] else .error "trap"

def openedTool : List StreamEvent := [.startTool 0 { id := "x", name := "t" }, .toolDelta 0 "1"]

/-- The turn in which it traps. -/
def trappedTurn : StageCall :=
  (runCalls sampleVerifiers [deferThenTrap] openedTool).get ⟨1, by decide +kernel⟩

theorem pass_recovery_trap :
    (propose sampleVerifiers trappedTurn.plugin trappedTurn.before (.toolDelta 0 "1")).callErr =
      some "trap" ∧ (propose sampleVerifiers trappedTurn.plugin trappedTurn.before
      (.toolDelta 0 "1")).state.journal.isSome = true ∧
    ∀ j, (propose sampleVerifiers trappedTurn.plugin trappedTurn.before
        (.toolDelta 0 "1")).state.journal = some j →
      Recovered sampleVerifiers [deferThenTrap] openedTool trappedTurn j
        (handleEvent sampleVerifiers trappedTurn.plugin trappedTurn.before (.toolDelta 0 "1")).1 := by
  have hcall : (propose sampleVerifiers trappedTurn.plugin trappedTurn.before
      (.toolDelta 0 "1")).callErr = some "trap" := by decide +kernel
  have hok : (handleEvent sampleVerifiers trappedTurn.plugin trappedTurn.before
      (.toolDelta 0 "1")).2 = .ok openedTool := by decide +kernel
  have hvisit : (trappedTurn.before, .toolDelta 0 "1") ∈
      visits sampleVerifiers trappedTurn.plugin trappedTurn.before trappedTurn.batch := by
    decide +kernel
  refine ⟨hcall, by decide +kernel, ?_⟩
  intro j hj
  exact (((pass_recovery sampleVerifiers [deferThenTrap] openedTool trappedTurn
    (get_mem _ _)).1 _ _ _ _ _ hvisit hcall (Prod.ext rfl hok)).1 j hj).2

end ToranaEdge.Enforce
