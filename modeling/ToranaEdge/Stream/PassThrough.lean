import ToranaEdge.Stream.Ungranted

/-! # Passing a stream through

A plugin that returns what it was given is never refused.  The host's
validation and the incremental walker are written separately, and so is the
scan the verifiers compare; here they are shown to move in step, so that a
stream the host may send has no floating signature, and both verifiers take
it against itself under no grant at all. -/

namespace ToranaEdge

open Reserve List ScanState AcceptedState

/-! ## No floating signature -/

namespace ScanState

lemma contentBlockStart_inFlight (s : ScanState) (start : ContentBlockStart) :
    (s.contentBlockStart start).spanOpen = false ∧
      (s.contentBlockStart start).sawText = s.sawText := by
  have hclose : s.closeSpan.spanOpen = false ∧ s.closeSpan.sawText = s.sawText := by simp
  unfold contentBlockStart
  dsimp only
  (repeat' split) <;> exact hclose

lemma contentBlockStop_inFlight (s : ScanState) (index : Int32) :
    (s.contentBlockStop index).sawText = s.sawText ∧
      ((∃ b ∈ s.openTools, b.index = index) → (s.contentBlockStop index).spanOpen = s.spanOpen) ∧
      ((¬ ∃ b ∈ s.openTools, b.index = index) → (s.contentBlockStop index).spanOpen = false) := by
  unfold contentBlockStop
  split
  · next b hfind =>
    refine ⟨rfl, fun _ => rfl, fun hno => absurd ⟨b, mem_of_find?_eq_some hfind, ?_⟩ hno⟩
    simpa using find?_some hfind
  next hfind =>
  have hnone : ¬ ∃ b ∈ s.openTools, b.index = index := by
    rintro ⟨b, hb, hindex⟩
    have := find?_eq_none.mp hfind b hb
    simp [hindex] at this
  refine ⟨?_, fun hex => absurd hex hnone, fun _ => by simp⟩
  rw [(closeSpan_frame _).2.2.1]
  split <;> rfl

end ScanState

/-- The validation and the scan agree on the open span as well, and the scan has met
no floating signature. -/
structure InStep (v : AcceptedState) (s : ScanState) (t : Option OpenBlockKind × Bool) : Prop where
  tracks : Tracks v s t
  spanOpen : s.spanOpen = v.spanOpen
  sawText : s.sawText = v.sawText
  bound : ∀ b ∈ s.bindings, b.kind ≠ .unbound

namespace InStep

variable {v v' : AcceptedState} {s : ScanState} {t : Option OpenBlockKind × Bool} {ev : StreamEvent}
  {i : Nat}

lemma init : InStep {} {} (none, false) := ⟨.init, rfl, rfl, fun _ hb => (nomatch hb)⟩

/-- A signature inside a span or a text or thinking block binds. -/
lemma bound_of_current {token : String} (h : InStep v s t)
    (hcurrent : (v.spanOpen || v.inTextBlock) = true) : (s.bindingOf token).kind ≠ .unbound := by
  have hcur : (s.spanOpen || (s.blockOpen && s.blockText)) = true := by
    rw [h.spanOpen, h.tracks.blockOpen, h.tracks.blockText]
    rcases Bool.or_eq_true_iff.mp hcurrent with hs | ht
    · rw [hs]
      rfl
    -- the open block is a text or thinking block
    have hkind := h.tracks.kind
    unfold inTextBlock at ht
    cases hnt : v.nonTool with
    | none => rw [hnt] at ht; cases ht
    | some nt =>
    rw [hnt] at ht hkind
    rw [← hkind]
    cases hk : nt.kind <;> simp [hk, isTextual] at ht ⊢
  unfold bindingOf
  rw [if_pos hcur]
  simp

/-- So does one that trails closed content. -/
lemma bound_of_trailing {token : String} (h : InStep v s t) (hspan : v.spanOpen = false)
    (hnone : v.nonTool = none) (htools : v.openTools = []) (hsaw : v.sawText = true) :
    (s.bindingOf token).kind ≠ .unbound := by
  have hclosed := h.tracks.kind
  rw [hnone] at hclosed
  have hopen : s.blockOpen = false := by rw [h.tracks.blockOpen, ← hclosed]; rfl
  unfold bindingOf
  rw [h.spanOpen, hspan, hopen, h.tracks.openTools_eq_nil htools, h.sawText, hsaw]
  simp

lemma step (h : InStep v s t) (hv : v.step i ev = .ok v') :
    InStep v' (s.step ev) (traceStep t ev) := by
  have htracks := h.tracks.step hv
  -- only a signature adds a binding
  have hbound : (∀ token, ev.event ≠ some (.signatureDelta token)) →
      ∀ b ∈ (s.step ev).bindings, b.kind ≠ .unbound := by
    intro hsig
    rw [(extends_step hsig).bindings]
    exact h.bound
  have hsigned : ∀ token, (s.bindingOf token).kind ≠ .unbound →
      ∀ b ∈ (s.signatureDelta token).bindings, b.kind ≠ .unbound := by
    intro token hnew b hb
    rw [signatureDelta_bindings] at hb
    rcases mem_append.mp hb with hb | hb
    · exact h.bound b hb
    · rw [mem_singleton.mp hb]
      exact hnew
  obtain ⟨-, -, hmoves⟩ := step_moves hv
  obtain ⟨arm, unknown⟩ := ev
  cases hmoves with
  | absent | error _ | usage _ | messageStart _ | messageStop _ _ _ | fragment _ _ =>
    exact ⟨htracks, h.spanOpen, h.sawText, hbound (by simp)⟩
  | @block start _ _ _ _ _ _ _ | @toolCall start _ _ _ _ | @armless start _ _ =>
    obtain ⟨hopen, hsaw⟩ := contentBlockStart_inFlight s start
    exact ⟨htracks, hopen, hsaw.trans h.sawText, hbound (by simp)⟩
  | @toolStop stop hopen =>
    obtain ⟨hsaw, htool, -⟩ := contentBlockStop_inFlight s stop.index
    have hopen := (h.tracks.tools _).mpr (lookup_isSome_iff.mp hopen)
    exact ⟨htracks, (htool hopen).trans h.spanOpen, hsaw.trans h.sawText, hbound (by simp)⟩
  | @blockStop stop kind hno _ =>
    obtain ⟨hsaw, -, hother⟩ := contentBlockStop_inFlight s stop.index
    have hclosed : ¬ ∃ b ∈ s.openTools, b.index = stop.index := by
      rw [h.tracks.tools, ← lookup_isSome_iff, hno]
      simp
    exact ⟨htracks, hother hclosed, hsaw.trans h.sawText, hbound (by simp)⟩
  | textDelta text hwhere =>
    have hactive := h.tracks.not_ignored rfl hwhere
    refine ⟨htracks, ?_, ?_, hbound (by simp)⟩
    · show (s.textDelta text).spanOpen = true
      simp [textDelta, hactive]
    · show (s.textDelta text).sawText = true
      simp [textDelta, hactive]
  | thinkingDelta text hwhere =>
    have hactive := h.tracks.not_ignored rfl hwhere
    refine ⟨htracks, ?_, ?_, hbound (by simp)⟩
    · show (s.thinkingDelta text).spanOpen = true
      simp [thinkingDelta, hactive]
    · show (s.thinkingDelta text).sawText = true
      simp [thinkingDelta, hactive]
  | current token hcurrent =>
    obtain ⟨-, hopen, hsaw, -⟩ := signatureDelta_frame s token
    exact ⟨htracks, hopen, hsaw.trans h.sawText, hsigned token (h.bound_of_current hcurrent)⟩
  | trailing token hspan hnone htools hsaw =>
    obtain ⟨-, hopen, hsaw', -⟩ := signatureDelta_frame s token
    exact ⟨htracks, hopen.trans hspan.symm, hsaw'.trans h.sawText,
      hsigned token (h.bound_of_trailing hspan hnone htools hsaw)⟩

lemma run {events : List StreamEvent} (h : InStep v s t) (hv : v.run i events = .ok v') :
    InStep v' (s.run events) (events.foldl traceStep t) := by
  induction events generalizing v s t i with
  | nil =>
    cases hv
    exact h
  | cons ev events ih =>
    obtain ⟨v₁, hstep, hrest⟩ := run_cons_ok.mp hv
    exact ih (h.step hstep) hrest

end InStep

variable {events : List StreamEvent}

/-- No signature of a walked stream floats. -/
lemma bound_of_run {v : AcceptedState} (h : run {} 0 events = .ok v) :
    ∀ b ∈ (scanStreamSignatures events).bindings, b.kind ≠ .unbound := by
  have hstep := InStep.init.run h
  show ∀ b ∈ (run {} events).closeSpan.bindings, b.kind ≠ .unbound
  simpa using hstep.bound

/-! ## A stream against itself -/

lemma unreproduced_self (scopes : List ToolCallScope) : unreproduced scopes scopes = [] := by
  rw [eq_nil_iff_forall_not_mem]
  intro a ha
  unfold unreproduced at ha
  rw [sameFacts_eq_hits] at ha
  have hkey := key_of_mem_leftover_self ha
  cases hkey

lemma verifyToolScopes_self (cls : SignatureClassifier) (scopes : List ToolCallScope)
    (canWrite : String → Bool) : verifyToolScopes cls scopes scopes canWrite = .ok () := by
  rw [verifyToolScopes_eq_ok]
  refine ⟨_, by rw [unreproduced_self]; rfl, ?_⟩
  rw [free_exactPass_sameFacts, unreproduced_self]
  rfl

lemma verifyBindingKind_self (kind : SigBindingKind) (view : StreamSignatureView)
    (canWrite : String → Bool) : verifyBindingKind kind view view canWrite = .ok () := by
  have hreturned : ∀ r ∈ free (exactBindings kind view view).2, r.signature = "" := by
    intro r hr
    rw [free_exactBindings_requests] at hr
    exact SigBinding.token_eq_none.mp (key_of_mem_leftover_self hr)
  have haccepted : ∀ a ∈ free (exactBindings kind view view).1, a.signature = "" := by
    intro a ha
    unfold exactBindings at ha
    rw [free_exactPass, free_fresh, sameToken_eq_hits] at ha
    exact SigBinding.token_eq_none.mp (key_of_mem_leftover_self ha)
  have hfind : ((free (exactBindings kind view view).2).find? fun r => r.signature != "") = none := by
    rw [find?_eq_none]
    intro r hr
    simp [hreturned r hr]
  have hunmatched :
      ((free (exactBindings kind view view).1).filter fun a => a.signature != "") = [] := by
    rw [filter_eq_nil_iff]
    intro a ha
    simp [haccepted a ha]
  unfold verifyBindingKind
  rw [hfind, hunmatched]
  rfl

lemma verifySignatures_self (cls : SignatureClassifier) (canWrite : String → Bool)
    (h : ∀ b ∈ (scanStreamSignatures events).bindings, b.kind ≠ .unbound) :
    verifySignatures cls events events canWrite = .ok () := by
  have hbound : ((scanStreamSignatures events).bindings.any fun b => b.kind == .unbound) = false := by
    rw [any_eq_false]
    intro b hb
    simpa using h b hb
  unfold verifySignatures verifySignatureDeltaBindings
  dsimp only
  rw [verifyToolScopes_self, verifyBindingKind_self, verifyBindingKind_self]
  rw [hbound]
  rfl

namespace Policy

lemma samePosition_self {pb : Protobuf} {ev : StreamEvent × Nat} (h : ev ∈ events.zipIdx) :
    samePosition pb events events ev.2 = true := by
  have hplace := mem_zipIdx_iff_getElem?.mp h
  rw [samePosition_eq hplace hplace, eventEqual_self]

/-- Every event is at its own place, so nothing is changed. -/
lemma eventsDiff_self (reg : Registry) (canWrite : String → Bool) (pb : Protobuf)
    (events : List StreamEvent) (path : String) :
    eventsDiff reg canWrite pb events events path = .ok () := by
  have hfixed : (events.zipIdx.filter fun ev => samePosition pb events events ev.2) =
      events.zipIdx := filter_eq_self.mpr fun ev hev => samePosition_self hev
  have hrest : (events.zipIdx.filter fun ev => !samePosition pb events events ev.2) = [] := by
    rw [filter_eq_nil_iff]
    intro ev hev
    simp [samePosition_self hev]
  have hmatches : exactEventMatches pb events events =
      .ok (events.zipIdx.map fun ev => (ev.2, ev.2)) := by
    unfold exactEventMatches unreserved
    dsimp only
    rw [hfixed, hrest]
    show Except.ok ((events.zipIdx.map fun ev => (ev.2, ev.2)) ++ []) = _
    rw [append_nil]
  have hchanged : ∀ f : Nat × Nat → Nat, (∀ n, f (n, n) = n) →
      (events.zipIdx.filter fun ev =>
        !((events.zipIdx.map fun ev => (ev.2, ev.2)).map f).contains ev.2) = [] := by
    intro f hf
    rw [filter_eq_nil_iff]
    intro ev hev
    simp only [map_map, Bool.not_eq_true', Bool.not_eq_false, contains_iff_mem]
    exact mem_map.mpr ⟨ev, hev, hf ev.2⟩
  unfold eventsDiff
  rw [hmatches]
  dsimp only
  rw [hchanged Prod.fst fun _ => rfl, hchanged Prod.snd fun _ => rfl]
  simp
  rfl

end Policy

/-! ## Passing through is legal -/

/-- **Passing through is always legal.**  A stream the host may send is taken
against itself by the signature verifier, whole or cut off anywhere, and by the
field policies, whatever the grants: none are needed.  No signature floats. -/
theorem passThrough_legal (cls : SignatureClassifier) (reg : Policy.Registry)
    (pb : Policy.Protobuf) (canWrite : Option (String → Bool))
    (events : List StreamEvent) (h : validateAcceptedStream events = .ok ()) :
    verifyStream cls events events canWrite = .ok () ∧
      (∀ p, p <+: events → verifyStreamPrefix cls p p canWrite = .ok ()) ∧
      Policy.verifyStreamPolicy reg pb events events canWrite = .ok () ∧
      ∀ b ∈ (scanStreamSignatures events).bindings, b.kind ≠ .unbound := by
  have hcut : ∀ p, p <+: events → ∃ v, run {} 0 p = .ok v := by
    rintro p ⟨rest, rfl⟩
    exact run_of_validateAcceptedStream h
  obtain ⟨v, hrun⟩ := hcut events prefix_rfl
  have hbound := bound_of_run hrun
  refine ⟨?_, ?_, Policy.eventsDiff_self reg _ pb events _, hbound⟩
  · unfold verifyStream
    rw [h]
    exact verifySignatures_self cls _ hbound
  · intro p hp
    obtain ⟨u, hu⟩ := hcut p hp
    unfold verifyStreamPrefix
    rw [StreamDisciplineWalker.walkAll_fresh, hu]
    exact verifySignatures_self cls _ (bound_of_run hu)

/-- Two calls and a text block, then a signature that trails them all. -/
theorem passThrough_legal_trailing :
    verifyStreamPrefix standardClassifier (twinCalls "sig-A" "sig-B" ++ [.signatureDelta "late"])
        (twinCalls "sig-A" "sig-B" ++ [.signatureDelta "late"]) none = .ok () ∧
      Policy.verifyStreamPolicy streamRegistry sampleProtobuf
        (twinCalls "sig-A" "sig-B" ++ [.signatureDelta "late"])
        (twinCalls "sig-A" "sig-B" ++ [.signatureDelta "late"]) none = .ok () := by
  obtain ⟨-, hcut, hpolicy, -⟩ := passThrough_legal standardClassifier streamRegistry
    sampleProtobuf none
    (twinCalls "sig-A" "sig-B" ++ [.signatureDelta "late"]) (by decide)
  exact ⟨hcut _ prefix_rfl, hpolicy⟩

end ToranaEdge
