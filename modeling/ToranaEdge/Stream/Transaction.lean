import ToranaEdge.Stream.Enforce

/-! # The stage transaction

What one stage of the chain does to its buffers.  Without a journal the
stage has released everything it returned.  With one, the released events
are what it had returned when the journal began, and everything returned
since is held; a rollback puts the accepted events of the transaction in
their place.

The per-event facts are collected once (`Proposed`, `rollbackStreamJournal`
and `handleEvent_cases`); the invariants are derived from them. -/

namespace ToranaEdge.Enforce

open Policy StreamDisciplineWalker List

/-! ## What a proposal can be -/

section stage

variable {v : Verifiers} {lp : StreamPlugin} {pvs pvs' : PluginStreamState} {ev : StreamEvent}
  {j : StreamJournal}

/-- The journal took in one more accepted event. -/
structure Extended (ev : StreamEvent) (j j' : StreamJournal) : Prop where
  originals : j'.originals = j.originals ++ [ev]
  outputs : j'.outputs = j.outputs
  walker : j'.walker = j.walker
  returnedStart : j'.returnedStart = j.returnedStart
  pending : j'.pending = j.pending ∨ ∃ i, toolStartIndex ev = some i ∧ j'.pending = i :: j.pending

/-- The journal began with a suppressed tool start. -/
structure Opened (pvs : PluginStreamState) (ev : StreamEvent) (j : StreamJournal) : Prop where
  originals : j.originals = [ev]
  outputs : j.outputs = []
  walker : j.walker = pvs.walker
  returnedStart : j.returnedStart = pvs.returned.length
  pending : ∃ i, toolStartIndex ev = some i ∧ j.pending = [i]

/-- Everything the loop relies on about a checked answer. -/
structure Proposed (pvs : PluginStreamState) (ev : StreamEvent) (p : Proposal) : Prop where
  accepted : p.state.accepted = pvs.accepted ++ [ev]
  returned : p.state.returned = pvs.returned
  disabled : p.state.disabled = pvs.disabled
  invocations : p.state.invocations =
    if pvs.disabled then pvs.invocations else pvs.invocations + 1
  passed : pvs.disabled = true → p.emitted = [ev]
  walked : p.callErr = none → pvs.walker.walkAll p.emitted = .ok p.state.walker
  unwalked : p.callErr ≠ none → p.state.journal = none → p.state.walker = pvs.walker
  closed : p.state.journal = none → pvs.journal = none
  opened : ∀ j', p.state.journal = some j' → pvs.journal = none → Opened pvs ev j' ∧ p.emitted = []
  extended : ∀ j j', p.state.journal = some j' → pvs.journal = some j → Extended ev j j'

variable {p : Proposal}

/-- The byte limit only looks at the journal's cost. -/
lemma Proposed.charge (h : Proposed pvs ev p) : Proposed pvs ev (chargeJournal v lp p) := by
  unfold chargeJournal
  split
  · exact h
  next j hj =>
  refine ⟨h.accepted, h.returned, h.disabled, h.invocations, h.passed, ?_, ?_, ?_, ?_, ?_⟩
  · intro hnone
    dsimp only at hnone
    split at hnone
    · cases hnone
    · exact h.walked hnone
  · intro _ hnone
    cases hnone
  · intro hnone
    cases hnone
  · intro j' hj' hnone
    cases hj'
    obtain ⟨ho, hemitted⟩ := h.opened j hj hnone
    exact ⟨⟨ho.originals, ho.outputs, ho.walker, ho.returnedStart, ho.pending⟩, hemitted⟩
  · intro j₀ j' hj' hj₀
    cases hj'
    have he := h.extended j₀ j hj hj₀
    exact ⟨he.originals, he.outputs, he.walker, he.returnedStart, he.pending⟩

/-- The state after acceptance and the guest's call. -/
lemma callGuest_accept (v : Verifiers) (lp : StreamPlugin) (pvs : PluginStreamState)
    (ev : StreamEvent) :
    (callGuest lp (pvs.accept v ev) ev).1 = { pvs.accept v ev with
      invocations := if pvs.disabled then pvs.invocations else pvs.invocations + 1 } ∧
    (pvs.disabled = true → (callGuest lp (pvs.accept v ev) ev).2 = .ok [ev]) := by
  unfold callGuest
  have hdisabled : (pvs.accept v ev).disabled = pvs.disabled := rfl
  rw [hdisabled]
  by_cases hd : pvs.disabled = true
  · rw [if_pos hd, if_pos hd]
    exact ⟨rfl, fun _ => rfl⟩
  · rw [if_neg hd, if_neg hd]
    exact ⟨rfl, fun h => absurd h hd⟩

/-- Acceptance extends an open journal and opens none. -/
lemma accept_extended {j' : StreamJournal} (h : (pvs.accept v ev).journal = some j') :
    ∃ j, pvs.journal = some j ∧ Extended ev j j' := by
  obtain ⟨j, hj, rfl⟩ := Option.map_eq_some_iff.mp h
  exact ⟨j, hj, rfl, rfl, rfl, rfl, .inl rfl⟩

/-- An answer that leaves the journal as acceptance left it. -/
lemma proposed_of_accept
    (hstate : p.state = { pvs.accept v ev with invocations := p.state.invocations
                                               walker := p.state.walker })
    (hn : p.state.invocations = if pvs.disabled then pvs.invocations else pvs.invocations + 1)
    (hpassed : pvs.disabled = true → p.emitted = [ev])
    (hwalked : p.callErr = none → pvs.walker.walkAll p.emitted = .ok p.state.walker)
    (hunwalked : p.callErr ≠ none → p.state.walker = pvs.walker) : Proposed pvs ev p := by
  have hjournal : p.state.journal = (pvs.accept v ev).journal := by rw [hstate]
  refine ⟨by rw [hstate]; rfl, by rw [hstate]; rfl, by rw [hstate]; rfl, hn, hpassed, hwalked,
    fun hne _ => hunwalked hne, ?_, ?_, ?_⟩
  · intro hnone
    rw [hjournal] at hnone
    exact Option.map_eq_none_iff.mp hnone
  · intro j' hj' hnone
    rw [hjournal] at hj'
    obtain ⟨j, hj, -⟩ := accept_extended hj'
    cases hnone.symm.trans hj
  · intro j₀ j' hj' hj₀
    rw [hjournal] at hj'
    obtain ⟨j, hj, hext⟩ := accept_extended hj'
    cases hj₀.symm.trans hj
    exact hext

/-- An answer that passed its checks, before the byte limit. -/
lemma proposed_checked {emitted : List StreamEvent} {w : StreamDisciplineWalker} {n : Nat}
    (hn : n = if pvs.disabled then pvs.invocations else pvs.invocations + 1)
    (hpassed : pvs.disabled = true → emitted = [ev]) (hwalk : pvs.walker.walkAll emitted = .ok w) :
    Proposed pvs ev { state := deferTool v { pvs.accept v ev with invocations := n, walker := w } ev
                        emitted
                      emitted, callErr := none } := by
  by_cases hdefer : ∃ i, toolStartIndex ev = some i ∧ emitted = []
  · obtain ⟨i, hi, rfl⟩ := hdefer
    have hw : w = pvs.walker := by
      cases hwalk
      rfl
    simp only [deferTool, hi]
    refine ⟨rfl, rfl, rfl, hn, hpassed, fun _ => hwalk, fun h => absurd rfl h,
      fun h => (nomatch h), ?_, ?_⟩
    · intro j' hj' hnone
      cases hj'
      simp only [PluginStreamState.accept, hnone]
      exact ⟨⟨rfl, rfl, hw, rfl, i, hi, rfl⟩, trivial⟩
    · intro j₀ j' hj' hj₀
      cases hj'
      simp only [PluginStreamState.accept, hj₀]
      exact ⟨rfl, rfl, rfl, rfl, .inr ⟨i, hi, rfl⟩⟩
  · have hsame : deferTool v { pvs.accept v ev with invocations := n, walker := w } ev emitted =
        { pvs.accept v ev with invocations := n, walker := w } := by
      unfold deferTool
      split
      · next i hi =>
        rw [if_neg]
        intro hempty
        exact hdefer ⟨i, hi, by simpa using hempty⟩
      · rfl
    rw [hsame]
    exact proposed_of_accept rfl hn hpassed (fun _ => hwalk) fun h => absurd rfl h

/-- **What a proposal can be.** -/
theorem propose_proposed (v : Verifiers) (lp : StreamPlugin) (pvs : PluginStreamState)
    (ev : StreamEvent) : Proposed pvs ev (propose v lp pvs ev) := by
  obtain ⟨hstate, hpass⟩ := callGuest_accept v lp pvs ev
  apply Proposed.charge
  cases hanswer : (callGuest lp (pvs.accept v ev) ev).2 with
  | error err =>
    refine proposed_of_accept (by rw [hstate]) (by rw [hstate]) ?_ (fun h => (nomatch h))
      fun _ => by rw [hstate]; rfl
    intro hd
    rw [hpass hd] at hanswer
    cases hanswer
  | ok emitted =>
  have hpassed : pvs.disabled = true → emitted = [ev] := by
    intro hd
    rw [hpass hd] at hanswer
    exact (Except.ok.inj hanswer).symm
  dsimp only
  cases hcheck : checkEmitted v lp (callGuest lp (pvs.accept v ev) ev).1 ev emitted with
  | error err =>
    exact proposed_of_accept (by rw [hstate]) (by rw [hstate]) hpassed (fun h => (nomatch h))
      fun _ => by rw [hstate]; rfl
  | ok w =>
  obtain ⟨_, -, hwalk⟩ := Attempt.bind_eq_ok.mp hcheck
  rw [hstate] at hwalk ⊢
  exact proposed_checked rfl hpassed hwalk

/-! ## What one event can do -/

/-- Signature and field policy hold between what a stage accepted and returned. -/
def Verified (v : Verifiers) (lp : StreamPlugin) (pvs : PluginStreamState) : Prop :=
  verifyStreamPrefix v.classifier pvs.accepted pvs.returned (some lp.hasGrant) = .ok () ∧
    verifyStreamPolicy v.registry v.protobuf pvs.accepted pvs.returned (some lp.hasGrant) = .ok ()

instance : Decidable (Verified v lp pvs) := inferInstanceAs (Decidable (_ ∧ _))

/-- A rollback that went through. -/
structure RolledBack (v : Verifiers) (lp : StreamPlugin) (j : StreamJournal)
    (pvs pvs' : PluginStreamState) : Prop where
  walker : j.walker.walkAll j.originals = .ok pvs'.walker
  returned : pvs'.returned = pvs.returned.take j.returnedStart ++ j.originals
  accepted : pvs'.accepted = pvs.accepted
  journal : pvs'.journal = none
  disabled : pvs'.disabled = true
  invocations : pvs'.invocations = pvs.invocations
  verified : Verified v lp pvs'

/-- Nothing was accepted and no guest was called. -/
structure SameHistory (s s' : PluginStreamState) : Prop where
  accepted : s'.accepted = s.accepted
  invocations : s'.invocations = s.invocations

variable {s s' s'' : PluginStreamState}

lemma SameHistory.trans (h : SameHistory s s') (h' : SameHistory s' s'') : SameHistory s s'' :=
  ⟨h'.accepted.trans h.accepted, h'.invocations.trans h.invocations⟩

lemma rollback_history (v : Verifiers) (lp : StreamPlugin) (pvs : PluginStreamState)
    (j : StreamJournal) : SameHistory pvs (rollbackStreamJournal v lp pvs j).1 := by
  unfold rollbackStreamJournal
  split
  · exact ⟨rfl, rfl⟩
  dsimp only
  split
  · exact ⟨rfl, rfl⟩
  · split <;> exact ⟨rfl, rfl⟩

lemma rollback_ok {replay : List StreamEvent}
    (h : rollbackStreamJournal v lp pvs j = (pvs', .ok replay)) :
    RolledBack v lp j pvs pvs' ∧ replay = j.originals := by
  unfold rollbackStreamJournal at h
  split at h
  · cases h
  next w hwalk =>
  dsimp only at h
  split at h
  · cases h
  next hsigned =>
  split at h
  · cases h
  next hpolicy =>
  cases h
  exact ⟨⟨hwalk, rfl, rfl, rfl, rfl, rfl, hsigned, hpolicy⟩, rfl⟩

/-- The cases of an event that did not terminate the stream. -/
inductive Handled (v : Verifiers) (lp : StreamPlugin) (pvs : PluginStreamState) (ev : StreamEvent)
    (p : Proposal) : PluginStreamState → List StreamEvent → Prop where
  | published (hcall : p.callErr = none) :
    Handled v lp pvs ev p (publish p.state ev p.emitted).1 (publish p.state ev p.emitted).2
  | rolledBack {err : String} {j : StreamJournal} {pvs' : PluginStreamState}
    (hcall : p.callErr = some err) (hmode : lp.failureMode = .pass)
    (hjournal : p.state.journal = some j) (hback : RolledBack v lp j p.state pvs') :
    Handled v lp pvs ev p pvs' j.originals
  | replaced {err : String} {w : StreamDisciplineWalker} (hcall : p.callErr = some err)
    (hmode : lp.failureMode = .pass) (hjournal : p.state.journal = none)
    (hwalk : p.state.walker.walk ev = .ok w) :
    Handled v lp pvs ev p { p.state with walker := w, returned := p.state.returned ++ [ev] } [ev]

variable {out : List StreamEvent}

lemma handleEvent_ok (h : handleEvent v lp pvs ev = (pvs', .ok out)) :
    Handled v lp pvs ev (propose v lp pvs ev) pvs' out := by
  unfold handleEvent at h
  dsimp only at h
  split at h
  · next hcall =>
    cases h
    exact .published hcall
  next err hcall =>
  split at h
  · cases h
  next hmode =>
  split at h
  · next j hjournal =>
    split at h <;> cases h
    next heq =>
    obtain ⟨hback, rfl⟩ := rollback_ok heq
    exact .rolledBack hcall hmode hjournal hback
  next hjournal =>
  split at h
  · cases h
  next w hwalk =>
  unfold publish at h
  dsimp only at h
  split at h
  · next j hj =>
    cases hjournal.symm.trans hj
  · cases h
    exact .replaced hcall hmode hjournal hwalk

lemma publish_history (s : PluginStreamState) (ev : StreamEvent) (es : List StreamEvent) :
    SameHistory s (publish s ev es).1 := by
  unfold publish
  dsimp only
  split <;> exact ⟨rfl, rfl⟩

section

variable (v lp pvs ev)

/-- Whatever happens, the history is that of the proposal. -/
lemma handleEvent_history :
    SameHistory (propose v lp pvs ev).state (handleEvent v lp pvs ev).1 := by
  unfold handleEvent
  dsimp only
  split
  · exact publish_history _ ev _
  split
  · exact ⟨rfl, rfl⟩
  split
  · next j hjournal =>
    have hback := rollback_history v lp (propose v lp pvs ev).state j
    split <;> next heq =>
      rw [heq] at hback
      exact hback
  split
  · exact ⟨rfl, rfl⟩
  next w hwalk =>
  have hsame := publish_history { (propose v lp pvs ev).state with walker := w } ev [ev]
  exact ⟨hsame.accepted, hsame.invocations⟩

lemma handleEvent_accepted : (handleEvent v lp pvs ev).1.accepted = pvs.accepted ++ [ev] :=
  (handleEvent_history v lp pvs ev).accepted.trans (propose_proposed v lp pvs ev).accepted

/-- A disabled plugin is not called. -/
lemma handleEvent_invocations (hd : pvs.disabled = true) :
    (handleEvent v lp pvs ev).1.invocations = pvs.invocations := by
  rw [(handleEvent_history v lp pvs ev).invocations, (propose_proposed v lp pvs ev).invocations,
    if_pos hd]

end

variable {term : StreamTerminalError}

/-- A plugin's violation is never the host's. -/
lemma handleEvent_kind
    (h : handleEvent v lp pvs ev = (pvs', .error term)) : term.kind = .plugin := by
  unfold handleEvent at h
  dsimp only at h
  split at h
  · cases h
  split at h
  · cases h
    rfl
  split at h
  all_goals
    split at h <;> cases h
    rfl

/-! ## Released and held -/

lemma walkAll_concat {w w' w'' : StreamDisciplineWalker} {xs ys : List StreamEvent}
    (hxs : w.walkAll xs = .ok w') (hys : w'.walkAll ys = .ok w'') :
    w.walkAll (xs ++ ys) = .ok w'' := by
  rw [walkAll_append, hxs]
  exact hys

/-- An open journal against what the stage has released: the released events are
those returned before the journal began. -/
structure Held (pvs : PluginStreamState) (released : List StreamEvent) (j : StreamJournal) :
    Prop where
  returned : pvs.returned = released ++ j.outputs
  returnedStart : j.returnedStart = released.length
  walker : walkAll {} released = .ok j.walker
  accepted : j.originals <:+ pvs.accepted
  enabled : pvs.disabled = false

/-- **The buffers of a stage agree** with what it has released. -/
structure Coherent (pvs : PluginStreamState) (released : List StreamEvent) : Prop where
  walker : walkAll {} pvs.returned = .ok pvs.walker
  unheld : pvs.journal = none → pvs.returned = released
  held : ∀ j, pvs.journal = some j → Held pvs released j

lemma Coherent.init : Coherent {} [] := ⟨rfl, fun _ => rfl, fun _ h => (nomatch h)⟩

variable {released : List StreamEvent}

/-- What is released is disciplined: it is a prefix of what was returned. -/
lemma Coherent.released_walks (h : Coherent pvs released) : ∃ w, walkAll {} released = .ok w := by
  cases hj : pvs.journal with
  | none => exact ⟨pvs.walker, h.unheld hj ▸ h.walker⟩
  | some j => exact ⟨j.walker, (h.held j hj).walker⟩

/-- The journal of a proposal, against the same released events. -/
lemma Coherent.held_proposal
    (h : Coherent pvs released) (hp : Proposed pvs ev p) (hj : p.state.journal = some j) :
    Held p.state released j := by
  cases hold : pvs.journal with
  | some j₀ =>
    have hext := hp.extended j₀ j hj hold
    have hheld := h.held j₀ hold
    refine ⟨?_, ?_, ?_, ?_, ?_⟩
    · rw [hp.returned, hheld.returned, hext.outputs]
    · rw [hext.returnedStart, hheld.returnedStart]
    · rw [hext.walker, hheld.walker]
    · rw [hext.originals, hp.accepted]
      obtain ⟨before, hbefore⟩ := hheld.accepted
      exact ⟨before, by rw [← append_assoc, hbefore]⟩
    · rw [hp.disabled, hheld.enabled]
  | none =>
    -- the journal began with this event, at the end of what was released
    obtain ⟨hopen, hemitted⟩ := hp.opened j hj hold
    have hreleased := h.unheld hold
    refine ⟨?_, ?_, ?_, ?_, ?_⟩
    · rw [hp.returned, hreleased, hopen.outputs, append_nil]
    · rw [hopen.returnedStart, hreleased]
    · rw [hopen.walker, ← hreleased, h.walker]
    · rw [hopen.originals, hp.accepted]
      exact suffix_append _ _
    · rw [hp.disabled]
      by_contra hdisabled
      have hone := hp.passed (by simpa using hdisabled)
      cases hemitted.symm.trans hone

variable {s s' : PluginStreamState}

lemma RolledBack.returned_eq (hheld : Held s released j) (hback : RolledBack v lp j s s') :
    s'.returned = released ++ j.originals := by
  rw [hback.returned, hheld.returned, hheld.returnedStart, take_left]

/-- A rollback releases the transaction's accepted events and holds nothing. -/
lemma RolledBack.coherent (hheld : Held s released j) (hback : RolledBack v lp j s s') :
    Coherent s' (released ++ j.originals) := by
  have hreturned := hback.returned_eq hheld
  refine ⟨?_, fun _ => hreturned, ?_⟩
  · rw [hreturned]
    exact walkAll_concat hheld.walker hback.walker
  · intro j' hj'
    cases hback.journal.symm.trans hj'

/-- **One event** keeps the buffers in agreement. -/
theorem handleEvent_coherent (h : Coherent pvs released)
    (hstep : handleEvent v lp pvs ev = (pvs', .ok out)) : Coherent pvs' (released ++ out) := by
  have hp := propose_proposed v lp pvs ev
  cases handleEvent_ok hstep with
  | published hcall =>
    have hwalker : walkAll {} (pvs.returned ++ (propose v lp pvs ev).emitted) =
        .ok (propose v lp pvs ev).state.walker := walkAll_concat h.walker (hp.walked hcall)
    unfold publish
    dsimp only
    split
    · next j hj =>
      -- held: the output joins the journal, nothing is released
      have hheld := h.held_proposal hp hj
      have hreturned := hheld.returned
      rw [append_nil]
      refine ⟨by rw [hp.returned]; exact hwalker, fun hnone => (nomatch hnone), ?_⟩
      intro j' hj'
      cases hj'
      exact ⟨by rw [hreturned, append_assoc], hheld.returnedStart, hheld.walker,
        hheld.accepted, hheld.enabled⟩
    next hj =>
    have hreleased := h.unheld (hp.closed hj)
    refine ⟨by rw [hp.returned]; exact hwalker, fun _ => by rw [hp.returned, hreleased], ?_⟩
    intro j' hj'
    cases hj.symm.trans hj'
  | rolledBack hcall hmode hj hback => exact hback.coherent (h.held_proposal hp hj)
  | @replaced err w hcall hmode hj hwalk =>
    have hreleased := h.unheld (hp.closed hj)
    rw [hp.unwalked (by rw [hcall]; simp) hj] at hwalk
    refine ⟨?_, fun _ => by rw [hp.returned, hreleased], ?_⟩
    · rw [hp.returned]
      exact walkAll_concat h.walker (walkAll_singleton.mpr hwalk)
    · intro j' hj'
      cases hj.symm.trans hj'

/-- The loop over the events is a run of single events. -/
lemma handleBatch_cons (rest : List StreamEvent) (h : handleEvent v lp pvs ev = (pvs', .ok out)) :
    handleBatch v lp pvs (ev :: rest) = ((handleBatch v lp pvs' rest).1,
      (handleBatch v lp pvs' rest).2.map fun outs => out ++ outs) := by
  rw [handleBatch, h]
  dsimp only
  split <;> next hrest => rw [hrest]; rfl

variable {batch : List StreamEvent}

lemma handleBatch_induct {P : PluginStreamState → List StreamEvent → List StreamEvent → Prop}
    (hnil : P pvs [] [])
    (hcons : ∀ s done next e s' o, P s done next → handleEvent v lp s e = (s', .ok o) →
      P s' (done ++ [e]) (next ++ o))
    (h : handleBatch v lp pvs batch = (pvs', .ok out)) : P pvs' batch out := by
  induction batch generalizing pvs out P with
  | nil =>
    cases h
    exact hnil
  | cons e rest ih =>
  unfold handleBatch at h
  split at h
  · cases h
  next s o heq =>
  split at h
  · cases h
  next more hrest =>
  cases h
  refine ih (P := fun s done next => P s (e :: done) (o ++ next)) ?_ ?_ hrest
  · simpa using hcons pvs [] [] e s o hnil heq
  · intro s' done next e' s'' o' hP hstep
    simpa using hcons s' (e :: done) (o ++ next) e' s'' o' hP hstep

lemma handleBatch_coherent (h : Coherent pvs released)
    (hrun : handleBatch v lp pvs batch = (pvs', .ok out)) :
    Coherent pvs' (released ++ out) ∧ pvs'.accepted = pvs.accepted ++ batch := by
  refine handleBatch_induct (P := fun s done next => Coherent s (released ++ next) ∧
    s.accepted = pvs.accepted ++ done) ⟨by simpa using h, by simp⟩ ?_ hrun
  rintro s done next e s' o ⟨hs, hacc⟩ hstep
  refine ⟨by rw [← append_assoc]; exact handleEvent_coherent hs hstep, ?_⟩
  have haccepted := handleEvent_accepted v lp s e
  rw [hstep] at haccepted
  rw [haccepted, hacc, append_assoc]

/-! ## The scope check -/

/-- The two states differ in counters only. -/
structure SameBuffers (s s' : PluginStreamState) : Prop where
  journal : s'.journal = s.journal
  disabled : s'.disabled = s.disabled
  accepted : s'.accepted = s.accepted
  returned : s'.returned = s.returned
  walker : s'.walker = s.walker
  invocations : s'.invocations = s.invocations

lemma SameBuffers.refl (s : PluginStreamState) : SameBuffers s s := ⟨rfl, rfl, rfl, rfl, rfl, rfl⟩

lemma SameBuffers.trans (h : SameBuffers s s') (h' : SameBuffers s' s'') : SameBuffers s s'' :=
  ⟨h'.journal.trans h.journal, h'.disabled.trans h.disabled, h'.accepted.trans h.accepted,
    h'.returned.trans h.returned, h'.walker.trans h.walker, h'.invocations.trans h.invocations⟩

lemma sameBuffers_recountCloses (s : PluginStreamState) : SameBuffers s s.recountCloses :=
  ⟨rfl, rfl, rfl, rfl, rfl, rfl⟩

lemma SameBuffers.history (h : SameBuffers s s') : SameHistory s s' := ⟨h.accepted, h.invocations⟩

lemma SameBuffers.coherent
    (h : SameBuffers s s') (hs : Coherent s released) : Coherent s' released := by
  refine ⟨by rw [h.returned, h.walker, hs.walker], ?_, ?_⟩
  · intro hnone
    rw [h.returned]
    exact hs.unheld (h.journal ▸ hnone)
  · intro j hj
    have hheld := hs.held j (h.journal ▸ hj)
    exact ⟨h.returned ▸ hheld.returned, hheld.returnedStart, hheld.walker,
      h.accepted ▸ hheld.accepted, h.disabled ▸ hheld.enabled⟩

lemma SameBuffers.verified (h : SameBuffers s s') (hs : Verified v lp s) : Verified v lp s' := by
  unfold Verified
  rw [h.accepted, h.returned]
  exact hs

lemma SameBuffers.rolledBack {s s' mid : PluginStreamState} (h : SameBuffers s s')
    (hback : RolledBack v lp j s' mid) : RolledBack v lp j s mid :=
  ⟨hback.walker, h.returned ▸ hback.returned, h.accepted ▸ hback.accepted, hback.journal,
    hback.disabled, h.invocations ▸ hback.invocations, hback.verified⟩

/-- On a disciplined accepted stream the verifier never blames the host. -/
lemma verifyStreamPrefix_ne_accepted {cls : SignatureClassifier} {accepted : List StreamEvent}
    (h : ∃ w, walkAll {} accepted = .ok w) (returned : List StreamEvent)
    (canWrite : Option (String → Bool)) (msg : String) :
    verifyStreamPrefix cls accepted returned canWrite ≠ .error (.accepted msg) := by
  obtain ⟨w, hw⟩ := h
  unfold verifyStreamPrefix verifySignatures
  rw [hw]
  dsimp only
  split
  · simp
  · split <;> simp

/-- A violation of a disciplined stream is the plugin's. -/
def Blames (s : PluginStreamState) (term : StreamTerminalError) : Prop :=
  (∃ w, walkAll {} s.accepted = .ok w) → term.kind = .plugin

/-- What the verification of closed scopes leaves behind. -/
inductive ScopesChecked (v : Verifiers) (lp : StreamPlugin) (s : PluginStreamState) (ends : Bool)
    (next : List StreamEvent) : PluginStreamState → List StreamEvent → Prop where
  | passed {s' : PluginStreamState} (hverdict : (scopeVerdict v lp s ends).2 = .ok ())
    (h : SameBuffers s s') (hverified : Verified v lp s') :
    ScopesChecked v lp s ends next s' next
  | rolledBack {j : StreamJournal} {mid s' : PluginStreamState} {term : StreamTerminalError}
    (hverdict : (scopeVerdict v lp s ends).2 = .error term) (hmode : lp.failureMode = .pass)
    (hjournal : s.journal = some j) (hback : RolledBack v lp j s mid) (h : SameBuffers mid s') :
    ScopesChecked v lp s ends next s' (next ++ j.originals)

section

variable (v lp s)

lemma checkScope_spec (scope : Nat) :
    SameBuffers s (checkScope v lp s scope).1 ∧ match (checkScope v lp s scope).2 with
      | .ok () => Verified v lp s
      | .error term => Blames s term := by
  unfold checkScope
  split
  · next msg hsigned =>
    exact ⟨.refl s, fun hwalk => absurd hsigned (verifyStreamPrefix_ne_accepted hwalk _ _ msg)⟩
  · exact ⟨.refl s, fun _ => rfl⟩
  next hsigned =>
  split
  · exact ⟨.refl s, fun _ => rfl⟩
  next hpolicy => exact ⟨⟨rfl, rfl, rfl, rfl, rfl, rfl⟩, hsigned, hpolicy⟩

lemma scopeVerdict_spec (ends : Bool) : SameBuffers s (scopeVerdict v lp s ends).1 ∧
      match (scopeVerdict v lp s ends).2 with
      | .ok () => Verified v lp s
      | .error term => Blames s term := by
  unfold scopeVerdict
  split
  · exact ⟨.refl s, fun _ => rfl⟩
  · exact checkScope_spec v lp s s.scopeNum

lemma verifyScopes_spec (ends : Bool) (next : List StreamEvent) :
    match verifyScopes v lp s ends next with
      | (s', .ok out) => ScopesChecked v lp s ends next s' out
      | (s', .error term) => SameHistory s s' ∧ Blames s term := by
  obtain ⟨hsame, hverdict⟩ := scopeVerdict_spec v lp s ends
  unfold verifyScopes
  cases hr : scopeVerdict v lp s ends with | mk s₁ result
  rw [hr] at hsame hverdict
  cases result with
  | ok _ => exact .passed (by rw [hr]) hsame (hsame.verified hverdict)
  | error term =>
  dsimp only
  cases hj : s₁.journal with
  | none => exact ⟨hsame.history, hverdict⟩
  | some j =>
  cases hmode : lp.failureMode with
  | block => exact ⟨hsame.history, hverdict⟩
  | pass =>
  dsimp only
  have hback := rollback_history v lp s₁ j
  cases hroll : rollbackStreamJournal v lp s₁ j with | mk s₂ result
  rw [hroll] at hback
  cases result with
  | error err => exact ⟨hsame.history.trans hback, fun _ => rfl⟩
  | ok replay =>
  dsimp only
  -- the replay is checked again, on the same buffers
  obtain ⟨hrolled, rfl⟩ := rollback_ok hroll
  have hcheck := (sameBuffers_recountCloses s₂).trans
    (checkScope_spec v lp s₂.recountCloses s₂.recountCloses.scopeNum).1
  cases hagain : checkScope v lp s₂.recountCloses s₂.recountCloses.scopeNum with | mk s₃ result
  rw [hagain] at hcheck
  cases result with
  | error err => exact ⟨(hsame.history.trans hback).trans hcheck.history, fun _ => rfl⟩
  | ok _ =>
    exact .rolledBack (by rw [hr]) hmode (hsame.journal ▸ hj) (hsame.rolledBack hrolled) hcheck

end

variable {next : List StreamEvent}

/-- The stage's transaction is settled one of three ways. -/
inductive Settled (v : Verifiers) (lp : StreamPlugin) (s : PluginStreamState)
    (next : List StreamEvent) : PluginStreamState → List StreamEvent → Prop where
  | kept {s' : PluginStreamState} (h : SameBuffers s s')
    (hopen : ∀ j, s.journal = some j → j.pending ≠ []) : Settled v lp s next s' next
  | flushed {j : StreamJournal} {s' : PluginStreamState} (hjournal : s.journal = some j)
    (hpending : j.pending = []) (h : SameBuffers { s with journal := none } s') :
    Settled v lp s next s' (next ++ j.outputs)
  | rolledBack {j : StreamJournal} {ends : Bool} {mid s' : PluginStreamState}
    {term : StreamTerminalError}
    (hverdict : (scopeVerdict v lp s.recountCloses ends).2 = .error term)
    (hmode : lp.failureMode = .pass) (hjournal : s.journal = some j) (hpending : j.pending = [])
    (hback : RolledBack v lp j s mid) (h : SameBuffers mid s') :
    Settled v lp s next s' (next ++ j.originals)

lemma releaseJournal_settled (h : SameBuffers s s') :
    Settled v lp s next (releaseJournal s' next).1 (releaseJournal s' next).2 := by
  unfold releaseJournal
  split
  · next j hj =>
    rw [h.journal] at hj
    split
    · next hempty =>
      exact .flushed hj (by simpa using hempty)
        ⟨rfl, h.disabled, h.accepted, h.returned, h.walker, h.invocations⟩
    next hempty =>
    refine .kept h ?_
    intro j' hj' hnil
    cases hj.symm.trans hj'
    simp [hnil] at hempty
  · next hj =>
    refine .kept h ?_
    intro j' hj'
    rw [h.journal] at hj
    cases hj.symm.trans hj'

/-- A scope closed on one side since the call began. -/
def Closes (acceptedStart returnedStart : Nat) (s : PluginStreamState) : Bool :=
  (s.accepted.drop acceptedStart).any isScopeCloseEvent ||
    (s.returned.drop returnedStart).any isScopeCloseEvent

/-- **The end of a stage**: its transaction is settled, and if a scope closed and
nothing stays deferred, the policies hold. -/
theorem settleScopes_spec (v : Verifiers) (lp : StreamPlugin) (a r : Nat) (s : PluginStreamState)
    (next : List StreamEvent) : match settleScopes v lp a r s next with
      | (s', .ok out) => Settled v lp s next s' out ∧
          (Closes a r s = true → s'.journal = none → Verified v lp s')
      | (s', .error term) => SameHistory s s' ∧ Blames s term := by
  have hcount := sameBuffers_recountCloses s
  unfold settleScopes
  dsimp only
  by_cases hcloses : ((s.accepted.drop a).any isScopeCloseEvent ||
      (s.returned.drop r).any isScopeCloseEvent) = true
  · rw [if_pos hcloses]
    by_cases hresolved : s.recountCloses.resolved = true
    · rw [if_pos hresolved]
      -- verified, and perhaps rolled back
      have hchecked := verifyScopes_spec v lp s.recountCloses
        ((s.accepted.drop a).any isTerminalEvent || (s.returned.drop r).any isTerminalEvent) next
      generalize verifyScopes v lp s.recountCloses _ next = result at hchecked ⊢
      obtain ⟨s₁, term | next₁⟩ := result
      · exact ⟨hcount.history.trans hchecked.1, hchecked.2⟩
      cases hchecked with
      | passed _ hsame hok =>
        refine ⟨releaseJournal_settled (hcount.trans hsame), fun _ _ => ?_⟩
        unfold releaseJournal
        split
        · split <;> exact hok
        · exact hok
      | @rolledBack j mid _ term hverdict hmode hjournal hback hsame =>
      have hnone : s₁.journal = none := by rw [hsame.journal, hback.journal]
      have hrelease : releaseJournal s₁ (next ++ j.originals) = (s₁, next ++ j.originals) := by
        unfold releaseJournal
        rw [hnone]
      dsimp only
      rw [hrelease]
      have hpending : j.pending = [] := by
        unfold PluginStreamState.resolved at hresolved
        rw [hjournal] at hresolved
        simpa using hresolved
      exact ⟨.rolledBack hverdict hmode hjournal hpending (hcount.rolledBack hback) hsame,
        fun _ _ => hsame.verified hback.verified⟩
    · rw [if_neg hresolved]
      -- a deferred decision remains, so the journal stays open
      refine ⟨releaseJournal_settled hcount, ?_⟩
      intro _ hnone
      exfalso
      unfold PluginStreamState.resolved at hresolved
      unfold releaseJournal at hnone
      split at hresolved
      · exact hresolved rfl
      next j hj =>
      rw [hj] at hnone
      dsimp only at hnone
      rw [if_neg hresolved, hj] at hnone
      cases hnone
  · rw [if_neg hcloses]
    exact ⟨releaseJournal_settled (.refl s), fun hc => absurd hc hcloses⟩

lemma settleScopes_ok {a r : Nat} (h : settleScopes v lp a r s next = (s', .ok out)) :
    Settled v lp s next s' out ∧ (Closes a r s = true → s'.journal = none → Verified v lp s') := by
  have hspec := settleScopes_spec v lp a r s next
  rw [h] at hspec
  exact hspec

lemma Settled.history (h : Settled v lp s next s' out) : SameHistory s s' := by
  cases h with
  | kept hsame _ => exact hsame.history
  | flushed _ _ hsame => exact ⟨hsame.accepted, hsame.invocations⟩
  | rolledBack _ _ _ _ hback hsame =>
    exact ⟨hsame.accepted.trans hback.accepted, hsame.invocations.trans hback.invocations⟩

lemma settleScopes_history (v : Verifiers) (lp : StreamPlugin) (a r : Nat)
    (s : PluginStreamState) (next : List StreamEvent) :
    SameHistory s (settleScopes v lp a r s next).1 := by
  have hspec := settleScopes_spec v lp a r s next
  split at hspec
  · next heq =>
    rw [heq]
    exact hspec.1.history
  next heq =>
  rw [heq]
  exact hspec.1

/-- A settled stage is coherent, and only an undecided journal stays open. -/
lemma Settled.coherent (h : Settled v lp s next s' out) (hs : Coherent s (released ++ next)) :
    Coherent s' (released ++ out) ∧ ∀ j, s'.journal = some j → j.pending ≠ [] := by
  cases h with
  | kept hsame hopen =>
    exact ⟨hsame.coherent hs, fun j hj => hopen j (hsame.journal ▸ hj)⟩
  | @flushed j _ hjournal hpending hsame =>
    have hheld := hs.held j hjournal
    have hflat : Coherent { s with journal := none } (released ++ (next ++ j.outputs)) := by
      refine ⟨hs.walker, fun _ => ?_, fun _ hnone => (nomatch hnone)⟩
      rw [← append_assoc]
      exact hheld.returned
    refine ⟨hsame.coherent hflat, ?_⟩
    intro j' hj'
    cases hsame.journal.symm.trans hj'
  | @rolledBack j _ mid _ term hverdict hmode hjournal hpending hback hsame =>
    have hmid := hback.coherent (hs.held j hjournal)
    rw [append_assoc] at hmid
    refine ⟨hsame.coherent hmid, ?_⟩
    intro j' hj'
    rw [hsame.journal, hback.journal] at hj'
    cases hj'

/-! ## One stage on one batch -/

lemma handleBatch_error (h : handleBatch v lp pvs batch = (pvs', .error term)) :
    (∃ done, done <+: batch ∧ pvs'.accepted = pvs.accepted ++ done) ∧ term.kind = .plugin := by
  induction batch generalizing pvs with
  | nil => cases h
  | cons e rest ih =>
  have haccepted := handleEvent_accepted v lp pvs e
  unfold handleBatch at h
  split at h
  · next s₁ t heq =>
    cases h
    rw [heq] at haccepted
    exact ⟨⟨[e], by simp, haccepted⟩, handleEvent_kind heq⟩
  next s₁ o heq =>
  rw [heq] at haccepted
  split at h <;> cases h
  next s₂ t hrest =>
  obtain ⟨⟨done, hdone, hacc⟩, hkind⟩ := ih hrest
  refine ⟨⟨e :: done, by simpa using hdone, ?_⟩, hkind⟩
  rw [hacc, haccepted, append_assoc]
  rfl

/-- A stage that ends the stream has accepted part of its batch and blames the
plugin. -/
lemma runStage_error
    (hs : Coherent pvs released) (hwalk : ∃ w, walkAll {} (pvs.accepted ++ batch) = .ok w)
    (h : runStage v lp pvs batch = (pvs', .error term)) :
    (∃ done, done <+: batch ∧ pvs'.accepted = pvs.accepted ++ done) ∧ term.kind = .plugin := by
  unfold runStage at h
  split at h
  · next s₁ t hbatch =>
    cases h
    exact handleBatch_error hbatch
  next s₁ next hbatch =>
  obtain ⟨-, hacc⟩ := handleBatch_coherent hs hbatch
  have hspec := settleScopes_spec v lp pvs.accepted.length pvs.returned.length s₁ next
  rw [h] at hspec
  refine ⟨⟨batch, prefix_rfl, hspec.1.accepted.trans hacc⟩, hspec.2 ?_⟩
  rw [hacc]
  exact hwalk

/-- A stage that goes on: buffers agree, only undecided journals stay open, and
the whole batch is accepted. -/
lemma runStage_ok (hs : Coherent pvs released) (h : runStage v lp pvs batch = (pvs', .ok out)) :
    Coherent pvs' (released ++ out) ∧ (∀ j, pvs'.journal = some j → j.pending ≠ []) ∧
      pvs'.accepted = pvs.accepted ++ batch := by
  unfold runStage at h
  split at h
  · cases h
  next s₁ next hbatch =>
  obtain ⟨hcoherent, hacc⟩ := handleBatch_coherent hs hbatch
  obtain ⟨hsettled, -⟩ := settleScopes_ok h
  obtain ⟨hfinal, hopen⟩ := hsettled.coherent hcoherent
  exact ⟨hfinal, hopen, hsettled.history.accepted.trans hacc⟩

/-! ## Closed scopes are verified -/

lemma Settled.disabled
    (h : Settled v lp s next s' out) (hd : s.disabled = true) : s'.disabled = true := by
  cases h with
  | kept hsame _ | flushed _ _ hsame => exact hsame.disabled.trans hd
  | rolledBack _ _ _ _ hback hsame => exact hsame.disabled.trans hback.disabled

end stage

end ToranaEdge.Enforce
