import ToranaEdge.Stream.Bindings
import ToranaEdge.Stream.Walker

/-! # Stream signature verification

`verifyStream` judges a plugin's returned events against the accepted ones:
the accepted side must pass the host's own discipline, then tool scopes and
`signature_delta` bindings are compared.  `verifyStreamPrefix` does the same
for a message that is still live.

The main results hold for every pair of streams and every grant function. -/

namespace ToranaEdge

open Reserve

/-- A verification failure: a defect of the accepted stream, which is the
host's, or a violation by the plugin. -/
inductive VerifyError where
  | accepted (msg : String)
  | plugin (msg : String)
  deriving DecidableEq, Repr

/-- A missing grant lookup grants nothing. -/
def grantsOf (canWrite : Option (String → Bool)) : String → Bool :=
  canWrite.getD grantNothing

variable (cls : SignatureClassifier) (accepted returned : List StreamEvent)

/-- The two plugin-side checks. -/
def verifySignatures (canWrite : String → Bool) : Except VerifyError Unit :=
  let av := scanStreamSignatures accepted
  let rv := scanStreamSignatures returned
  match verifyToolScopes cls av.toolScopes rv.toolScopes canWrite with
  | .error e => .error (.plugin e)
  | .ok () =>
    match verifySignatureDeltaBindings av rv canWrite with
    | .error e => .error (.plugin e)
    | .ok () => .ok ()

variable (canWrite : Option (String → Bool))

def verifyStream : Except VerifyError Unit :=
  match validateAcceptedStream accepted with
  | .error msg => .error (.accepted msg)
  | .ok () => verifySignatures cls accepted returned (grantsOf canWrite)

/-- `verifyStream` for a live message: blocks may still be open. -/
def verifyStreamPrefix : Except VerifyError Unit :=
  match StreamDisciplineWalker.walkAll {} accepted with
  | .error msg => .error (.accepted msg)
  | .ok _ => verifySignatures cls accepted returned (grantsOf canWrite)

variable {cls : SignatureClassifier} {accepted returned : List StreamEvent}
  {canWrite : String → Bool}

lemma verifySignatures_ok (h : verifySignatures cls accepted returned canWrite = .ok ()) :
    verifyToolScopes cls (scanStreamSignatures accepted).toolScopes
        (scanStreamSignatures returned).toolScopes canWrite = .ok () ∧
      verifySignatureDeltaBindings (scanStreamSignatures accepted)
        (scanStreamSignatures returned) canWrite = .ok () := by
  unfold verifySignatures at h
  dsimp only at h
  split at h
  · cases h
  next htools =>
  split at h
  · cases h
  next hbind => exact ⟨htools, hbind⟩

lemma verifyStream_ok {canWrite : Option (String → Bool)}
    (h : verifyStream cls accepted returned canWrite = .ok ()) :
    validateAcceptedStream accepted = .ok () ∧
      verifySignatures cls accepted returned (grantsOf canWrite) = .ok () := by
  unfold verifyStream at h
  split at h
  · cases h
  next hacc => exact ⟨hacc, h⟩

/-- The returned stream has no token that the accepted stream does not carry
over the same facts. -/
structure MintsNoToken (accepted returned : List StreamEvent) : Prop where
  /-- Signed tool scopes, by token and covered content. -/
  toolScopes : keys ToolCallScope.signedFacts (scanStreamSignatures returned).toolScopes ≤
    keys ToolCallScope.signedFacts (scanStreamSignatures accepted).toolScopes
  /-- Signed bindings of each kind, by token and typed content. -/
  bindings : ∀ kind, kind = .current ∨ kind = .trailing →
    keys SigBinding.token ((scanStreamSignatures returned).ofKind kind) ≤
      keys SigBinding.token ((scanStreamSignatures accepted).ofKind kind)
  /-- No `signature_delta` floats. -/
  bound : ∀ b ∈ (scanStreamSignatures returned).bindings, b.kind ≠ .unbound

lemma mintsNoToken_of_verifySignatures
    (h : verifySignatures cls accepted returned canWrite = .ok ()) :
    MintsNoToken accepted returned := by
  obtain ⟨htools, hbind⟩ := verifySignatures_ok h
  obtain ⟨hcur, htrail, hbound⟩ := verifySignatureDeltaBindings_ok hbind
  refine ⟨signedFacts_le_of_verifyToolScopes cls _ htools, ?_, hbound⟩
  rintro kind (rfl | rfl)
  · exact tokens_le_of_verifyBindingKind hcur
  · exact tokens_le_of_verifyBindingKind htrail

/-- **Signature soundness.**  Whatever the grants, an accepted verdict means
that no token was minted, replaced, duplicated or re-bound. -/
theorem verifyStream_mints_no_token (cls : SignatureClassifier)
    (canWrite : Option (String → Bool)) (accepted returned : List StreamEvent)
    (h : verifyStream cls accepted returned canWrite = .ok ()) : MintsNoToken accepted returned :=
  mintsNoToken_of_verifySignatures (verifyStream_ok h).2

/-- A signed call and a signed text block, emitted in the other order. -/
theorem verifyStream_mints_no_token_reordered : MintsNoToken
      [.startTool 0 { id := "call_1", name := "lookup", signature := "tool-sig" },
        .toolDelta 0 "x", .stop 0,
        .startText 1, .textDelta "hi", .signatureDelta "text-sig", .stop 1]
      [.startText 0, .textDelta "hi", .signatureDelta "text-sig", .stop 0,
        .startTool 1 { id := "call_1", name := "lookup", signature := "tool-sig" },
        .toolDelta 1 "x", .stop 1] :=
  verifyStream_mints_no_token standardClassifier (some grantEverything) _ _ (by decide)

/-- **A span that survives unchanged keeps its token.**  If some accepted
current-block token over `c` has no exact match, the returned spans with
content `c` are accounted for by exact matches and by accepted spans that
no token covers. -/
theorem verifyStream_surviving_span_keeps_token (cls : SignatureClassifier)
    (canWrite : Option (String → Bool)) (accepted returned : List StreamEvent)
    (h : verifyStream cls accepted returned canWrite = .ok ()) (c : TypedContent)
    (hlost : ∃ token, token ≠ "" ∧
      tally SigBinding.token (token, c) ((scanStreamSignatures returned).ofKind .current) <
        tally SigBinding.token (token, c) ((scanStreamSignatures accepted).ofKind .current)) :
    (scanStreamSignatures returned).spans.count c ≤
      (keys SigBinding.token ((scanStreamSignatures accepted).ofKind .current) ∩
        keys SigBinding.token ((scanStreamSignatures returned).ofKind .current)).countP
          (fun k => k.2 = c) + unsignedSpans (scanStreamSignatures accepted) c := by
  obtain ⟨-, hbind⟩ := verifySignatures_ok (verifyStream_ok h).2
  refine spans_le_of_verifyBindingKind ?_ (verifySignatureDeltaBindings_ok hbind).1 c hlost
  intro b hb
  obtain ⟨hmem, hkind⟩ := List.mem_filter.mp hb
  exact scanStreamSignatures_span_owned returned b hmem (by simpa using hkind)

/-- A signed block is suppressed while its unsigned twin lives on. -/
theorem verifyStream_surviving_span_twin :
    (scanStreamSignatures [.startText 0, .textDelta "hi", .stop 0]).spans.count
        { text := "hi", textSeen := true } ≤ (keys SigBinding.token ((scanStreamSignatures
          [.startText 0, .textDelta "hi", .signatureDelta "sig", .stop 0,
            .startText 1, .textDelta "hi", .stop 1]).ofKind .current) ∩
        keys SigBinding.token ((scanStreamSignatures
          [.startText 0, .textDelta "hi", .stop 0]).ofKind .current)).countP
          (fun k => k.2 = { text := "hi", textSeen := true }) + unsignedSpans (scanStreamSignatures
          [.startText 0, .textDelta "hi", .signatureDelta "sig", .stop 0,
            .startText 1, .textDelta "hi", .stop 1]) { text := "hi", textSeen := true } :=
  verifyStream_surviving_span_keeps_token standardClassifier (some grantEverything) _ _
    (by decide) _ ⟨"sig", by decide, by decide⟩

end ToranaEdge
