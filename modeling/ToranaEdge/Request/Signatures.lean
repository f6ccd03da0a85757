import ToranaEdge.Lib.Attempt
import ToranaEdge.Lib.Framing
import ToranaEdge.Lib.Reserve
import ToranaEdge.Request.Types
import ToranaEdge.Signature

/-! # Request signature provenance

`verifyRequestSignatures` runs one check per request-domain binding.  A
binding is a kind of block that carries a provider token over some of its
own fields; the trailing binding carries it over the text of the message.
Phase 1 lets every returned token consume an accepted occurrence with the
same token and digest.  Phase 2 looks at returned occurrences without a
token: beyond the unsigned ones that were accepted, none may have the
content of an accepted occurrence whose token is still unconsumed.

The mutable maps `byToken`, `byContent` and `byPreceding` share their
occurrences, so they are one pool here, looked up by different fields. -/

namespace ToranaEdge

open Framing Reserve Attempt List Except SignatureMutation

/-! ## Covered content and its digest -/

/-- A covered field with its framing class. -/
inductive CoveredValue where
  | plainString (value : String)
  | plainBytes (value : Bytes)
  | optionalBool (value : Option Bool)
  | optionalString (value : Option String)
  | plainEnum (value : ToolInvocationKind)
  | pinnedContent (content : List ToolResultContentBlock)

variable (ext : Externals)

/-- The bytes a covered field contributes to the digest.  Optional fields carry
their framing class, 3 or 4, as the tag. -/
def CoveredValue.frame : CoveredValue → Except String Bytes
  | .plainString s => .ok (framed (utf8 s))
  | .plainBytes b => .ok (framed (sprintBytes b))
  | .plainEnum k => .ok (framed k.text)
  | .optionalBool v =>
    .ok (field 3 v.isSome (utf8 (if v.getD false then "true" else "false")))
  | .optionalString v => .ok (field 4 v.isSome (utf8 (v.getD "")))
  | .pinnedContent content =>
    match ext.toolResultContentFingerprint content with
    | .error e => .error s!"writegrant: covered nested content: {e}"
    | .ok sum => .ok (framed sum.val)

/-- The string the covered fields are hashed as. -/
def coveredPreimage (values : List CoveredValue) : Except String Bytes :=
  (values.mapM (CoveredValue.frame ext)).map List.flatten

def digestBlockFields (values : List CoveredValue) : Except String Digest :=
  (coveredPreimage ext values).map ext.sha256

/-! ## Occurrences -/

/-- The bindings whose token covers fields of its own block. -/
inductive TokenBinding where
  | thinking
  | text
  | toolUse
  | toolResult
  | unknown
  deriving DecidableEq, Repr

/-- `requestTokenName`. -/
def TokenBinding.name : TokenBinding → String
  | .thinking => "thinking_signature"
  | .text => "content_signature"
  | .toolUse => "tool_use_signature"
  | .toolResult => "torana.v1.RequestToolResultBlock"
  | .unknown => "torana.v1.RequestUnknownBlock"

/-- A block of the binding's kind: its token and its covered fields, in the
order the SDK declares them. -/
def TokenBinding.select : TokenBinding → RequestBlock → Option (String × List CoveredValue)
  | .thinking, { kind := some (.thinking b), .. } =>
    some (b.signature, [.plainString b.text, .plainBytes b.partMetadataJson])
  | .text, { kind := some (.text b), .. } =>
    some (b.signature, [.plainString b.text, .plainBytes b.partMetadataJson])
  | .toolUse, { kind := some (.toolUse b), .. } =>
    some (b.signature, [.plainString b.id, .plainString b.name, .plainBytes b.argumentsJson,
      .optionalString b.inputText, .plainEnum b.invocationKind, .plainBytes b.partMetadataJson])
  | .toolResult, { kind := some (.toolResult b), .. } =>
    some (b.signature, [.plainString b.toolCallId, .plainString b.toolName,
      .plainBytes b.partMetadataJson, .optionalBool b.willContinue,
      .optionalString b.scheduling, .pinnedContent b.content, .plainEnum b.invocationKind])
  | .unknown, { kind := some (.unknown b), .. } =>
    some (b.signature, [.plainString b.kind, .plainBytes b.payloadJson,
      .plainBytes b.partMetadataJson])
  | _, _ => none

/-- One signature occurrence: its token (empty when unsigned) and the digest of
what it covers.  The last two fields matter to the trailing binding only. -/
structure TokenOccurrence where
  token : String
  digest : Digest
  preceding : Digest := zeroDigest
  trailAbsent : Bool := false
  deriving DecidableEq

def TokenBinding.occurrence (b : TokenBinding)
    (selected : String × List CoveredValue) : Except String TokenOccurrence :=
  match digestBlockFields ext selected.2 with
  | .error e => .error s!"writegrant: {b.name} occurrence: {e}"
  | .ok d => .ok { token := selected.1, digest := d }

/-- The occurrences of a message under a binding: one per block of its kind. -/
def TokenBinding.occurrences (b : TokenBinding) (m : Message) :
    Except String (List TokenOccurrence) :=
  (m.blocks.filterMap b.select).mapM (b.occurrence ext)

/-- A text or thinking block covered by the trailing token, with its reference
name. -/
def trailRef : RequestBlock → Option (String × String)
  | { kind := some (.text b), .. } => some ("torana.v1.RequestTextBlock.text", b.text)
  | { kind := some (.thinking b), .. } => some ("torana.v1.RequestThinkingBlock.text", b.text)
  | _ => none

variable (m : Message)

/-- `writeTrailingRefs`: each covered element with its ordinal among them. -/
def trailingRefs : Bytes :=
  (m.blocks.filterMap trailRef).zipIdx.flatMap fun r =>
    framedNat r.2 ++ (framed (utf8 r.1.1) ++ framed (utf8 r.1.2))

def trailingBlock : RequestBlock → Option RequestTrailingSignatureBlock
  | { kind := some (.trailingSignature b), .. } => some b
  | _ => none

/-- The trailing carrier of a message; a later one replaces an earlier one. -/
def Message.trailing : Option RequestTrailingSignatureBlock :=
  (m.blocks.filterMap trailingBlock).getLast?

/-- The string the trailing token's digest is taken over: the carrier's own
metadata, when there is a carrier, and the covered text. -/
def trailingPreimage : Except String Bytes :=
  match m.trailing with
  | none => .ok (trailingRefs m)
  | some t =>
    match digestBlockFields ext [.plainBytes t.partMetadataJson] with
    | .error e => .error s!"writegrant: trailing_signature trailing occurrence: {e}"
    | .ok own => .ok (framed own.val ++ trailingRefs m)

/-- The trailing occurrence is there even when the carrier is not. -/
def trailingOccurrence : Except String TokenOccurrence :=
  (trailingPreimage ext m).map fun preimage =>
    { token := (m.trailing.map RequestTrailingSignatureBlock.signature).getD ""
      digest := ext.sha256 preimage
      preceding := ext.sha256 (trailingRefs m)
      trailAbsent := m.trailing.isNone }

def trailingOccurrences : Except String (List TokenOccurrence) :=
  (trailingOccurrence ext m).map fun occ => [occ]

/-! ## The check of one binding -/

/-- Several unconsumed candidates that cover different content. -/
def conflictingContent : List TokenOccurrence → Bool
  | [] => false
  | first :: others => others.any fun occ => occ.digest != first.digest

variable (name : String)

/-- The rejection label of a returned token without a match. -/
def unmatchedOccurrenceError (pool : Pool TokenOccurrence)
    (occ : TokenOccurrence) : String :=
  let unused := (free pool).filter fun a => a.token == occ.token
  if unused.isEmpty then
    if (free pool).any fun a => a.digest == occ.digest then
      s!"plugin {name} signature {SignatureMutation.forged}"
    else if pool.any fun a => a.1.token == occ.token then s!"plugin {name} signature reused"
    else s!"plugin {name} signature {SignatureMutation.added}"
  else if conflictingContent unused then
    s!"plugin {name} signature duplicate token with conflicting content"
  else s!"plugin {name} signature {SignatureMutation.stale}"

/-- Phase 1 for one returned occurrence. -/
def consumeToken (pool : Pool TokenOccurrence) (occ : TokenOccurrence) :
    Except String (Pool TokenOccurrence) :=
  if occ.token == "" then .ok pool
  else
    match takeFirst (fun a => a.token == occ.token && a.digest == occ.digest) pool with
    | some pool' => .ok pool'
    | none => .error (unmatchedOccurrenceError name pool occ)

/-- An unconsumed signed occurrence whose content an unsigned one has.  A
removed trailing carrier is compared by the preceding text alone. -/
def strips (occ a : TokenOccurrence) : Bool :=
  if occ.trailAbsent then a.preceding == occ.preceding else a.digest == occ.digest

/-- Phase 2 for one returned occurrence; `unsigned` counts the accepted unsigned
occurrences by digest, and `signed` are the tokens phase 1 left. -/
def consumeUnsigned (signed : List TokenOccurrence) (unsigned : Pool Digest)
    (occ : TokenOccurrence) : Except String (Pool Digest) :=
  if occ.token != "" then .ok unsigned
  else
    match takeFirst (fun d => d == occ.digest) unsigned with
    | some unsigned' => .ok unsigned'
    | none =>
      if signed.any (strips occ) then .error s!"plugin {name} signature {SignatureMutation.dropped}"
      else .ok unsigned

/-- The loop of a phase: occurrences are taken message by message. -/
def overMessages {σ : Type} (occurrences : Message → Except String (List TokenOccurrence))
    (step : σ → TokenOccurrence → Except String σ) : σ → List Message → Except String σ
  | s, [] => .ok s
  | s, m :: rest => do
    let occs ← occurrences m
    let s' ← occs.foldlM step s
    overMessages occurrences step s' rest

/-- The check of one binding, given how it finds its occurrences. -/
def verifyOccurrences (occurrences : Message → Except String (List TokenOccurrence))
    (accepted out : ChatRequest) : Except String Unit := do
  let acc ← accepted.messages.mapM occurrences
  let signed := acc.flatten.filter fun a => a.token != ""
  let unsigned := (acc.flatten.filter fun a => a.token == "").map TokenOccurrence.digest
  let pool ← overMessages occurrences (consumeToken name) (fresh signed) out.messages
  let _ ← overMessages occurrences (consumeUnsigned name (free pool)) (fresh unsigned) out.messages
  .ok ()

/-- The check of a binding over the block's own fields. -/
def verifyTokenBinding (b : TokenBinding) (accepted out : ChatRequest) :
    Except String Unit :=
  verifyOccurrences b.name (b.occurrences ext) accepted out

/-- A trailing carrier that is present must carry a token. -/
def emptyTrailingCarrier (req : ChatRequest) : Bool :=
  req.messages.any fun m => (m.blocks.filterMap trailingBlock).any fun t => t.signature == ""

def verifyTrailingBinding (accepted out : ChatRequest) : Except String Unit :=
  if emptyTrailingCarrier accepted || emptyTrailingCarrier out then
    .error "plugin trailing_signature trailing carrier is present but empty"
  else verifyOccurrences "trailing_signature" (trailingOccurrences ext) accepted out

/-- The bindings in the order of the SDK's inventory. -/
def TokenBinding.all : List TokenBinding := [.thinking, .text, .toolUse, .toolResult, .unknown]

def verifyRequestSignatures (accepted out : ChatRequest) :
    Except String Unit := do
  let _ ← TokenBinding.all.mapM fun b => verifyTokenBinding ext b accepted out
  verifyTrailingBinding ext accepted out

/-! ## What the loops decide -/

/-- A signed occurrence by token and digest. -/
def TokenOccurrence.signedKey (occ : TokenOccurrence) : Option (String × Digest) :=
  if occ.token = "" then none else some (occ.token, occ.digest)

/-- An unsigned occurrence by digest. -/
def TokenOccurrence.unsignedKey (occ : TokenOccurrence) : Option Digest :=
  if occ.token = "" then some occ.digest else none

open TokenOccurrence (signedKey unsignedKey digest)

variable {occurrences : Message → Except String (List TokenOccurrence)}

lemma overMessages_eq_ok {σ : Type} {step : σ → TokenOccurrence → Except String σ} {s s' : σ}
    {ms : List Message} : overMessages occurrences step s ms = .ok s' ↔
      ∃ occs, ms.mapM occurrences = .ok occs ∧ occs.flatten.foldlM step s = .ok s' := by
  induction ms generalizing s with
  | nil =>
    constructor
    · intro h
      exact ⟨[], rfl, h⟩
    · rintro ⟨occs, hoccs, hfold⟩
      cases hoccs
      exact hfold
  | cons m ms ih =>
  rw [overMessages, bind_eq_ok, mapM_cons]
  constructor
  · rintro ⟨o, ho, hrest⟩
    obtain ⟨s₁, hs₁, hrest⟩ := bind_eq_ok.mp hrest
    obtain ⟨occs, hoccs, hfold⟩ := ih.mp hrest
    refine ⟨o :: occs, bind_eq_ok.mpr ⟨o, ho, bind_eq_ok.mpr ⟨occs, hoccs, rfl⟩⟩, ?_⟩
    rw [flatten_cons, foldlM_append]
    exact bind_eq_ok.mpr ⟨s₁, hs₁, hfold⟩
  · rintro ⟨occs, hoccs, hfold⟩
    obtain ⟨o, ho, occs', hoccs', heq⟩ := bind₂_eq_ok.mp hoccs
    cases heq
    rw [flatten_cons, foldlM_append] at hfold
    obtain ⟨s₁, hs₁, hfold⟩ := bind_eq_ok.mp hfold
    exact ⟨o, ho, bind_eq_ok.mpr ⟨s₁, hs₁, ih.mpr ⟨occs', hoccs', hfold⟩⟩⟩

/-- The match of phase 1. -/
def sameOccurrence (occ a : TokenOccurrence) : Bool :=
  hits signedKey signedKey occ a

variable {occ : TokenOccurrence}

lemma sameOccurrence_eq (h : occ.token ≠ "") :
    sameOccurrence occ = fun a => a.token == occ.token && a.digest == occ.digest := by
  funext a
  rw [Bool.eq_iff_iff, sameOccurrence, hits_iff]
  simp only [signedKey, h, Bool.and_eq_true, beq_iff_eq]
  by_cases ha : a.token = ""
  · simp [ha, Ne.symm h]
  · simp [ha]

lemma takeFirst_sameOccurrence_unsigned (h : occ.token = "")
    (pool : Pool TokenOccurrence) : takeFirst (sameOccurrence occ) pool = none := by
  rw [takeFirst_eq_none]
  simp [sameOccurrence, hits, signedKey, h]

variable {name : String} {pool : Pool TokenOccurrence}

lemma consumeToken_signed (h : occ.token ≠ "") :
    consumeToken name pool occ = match takeFirst (sameOccurrence occ) pool with
      | some pool' => .ok pool'
      | none => .error (unmatchedOccurrenceError name pool occ) := by
  rw [sameOccurrence_eq h, consumeToken, if_neg]
  simpa using h

variable {occs : List TokenOccurrence}

/-- **Phase 1** succeeds exactly when every returned token has its own match;
what it leaves is what the exact pass leaves. -/
theorem foldlM_consumeToken_eq_ok {pool' : Pool TokenOccurrence} :
    occs.foldlM (consumeToken name) pool = .ok pool' ↔
      (∀ r ∈ free (exactPass sameOccurrence pool occs).2, r.token = "") ∧
        pool' = (exactPass sameOccurrence pool occs).1 := by
  induction occs generalizing pool with
  | nil =>
    constructor
    · intro h
      cases h
      exact ⟨by simp [exactPass], rfl⟩
    · rintro ⟨-, rfl⟩
      rfl
  | cons occ occs ih =>
  rw [foldlM_cons, bind_eq_ok]
  by_cases hocc : occ.token = ""
  · have hnone := takeFirst_sameOccurrence_unsigned hocc pool
    have hstep : consumeToken name pool occ = .ok pool := by simp [consumeToken, hocc]
    simp only [hstep, ok.injEq, exists_eq_left', ih, exactPass, hnone, free_cons_false,
      mem_cons, forall_eq_or_imp, hocc, true_and]
  cases htake : takeFirst (sameOccurrence occ) pool with
  | some pool₁ =>
    have hstep : consumeToken name pool occ = .ok pool₁ := by
      rw [consumeToken_signed hocc, htake]
    simp only [hstep, ok.injEq, exists_eq_left', ih, exactPass, htake, free_cons_true]
  | none =>
  have hstep : consumeToken name pool occ = .error (unmatchedOccurrenceError name pool occ) := by
    rw [consumeToken_signed hocc, htake]
  rw [hstep]
  constructor
  · rintro ⟨_, h, -⟩
    cases h
  · rintro ⟨hall, -⟩
    simp only [exactPass, htake, free_cons_false, mem_cons, forall_eq_or_imp] at hall
    exact absurd hall.1 hocc

/-- The match of phase 2 between a returned and an accepted unsigned one. -/
def sameUnsigned (occ : TokenOccurrence) (d : Digest) : Bool :=
  hits unsignedKey some occ d

lemma sameUnsigned_eq (h : occ.token = "") : sameUnsigned occ = fun d => d == occ.digest := by
  funext d
  rw [Bool.eq_iff_iff, sameUnsigned, hits_iff]
  simp only [unsignedKey, h, if_true, Option.some.injEq, exists_eq_left', beq_iff_eq]

lemma takeFirst_sameUnsigned_signed (h : occ.token ≠ "")
    (pool : Pool Digest) : takeFirst (sameUnsigned occ) pool = none := by
  rw [takeFirst_eq_none]
  simp [sameUnsigned, hits, unsignedKey, h]

variable {signed : List TokenOccurrence}

lemma consumeUnsigned_unsigned {pool : Pool Digest} (h : occ.token = "") :
    consumeUnsigned name signed pool occ = match takeFirst (sameUnsigned occ) pool with
      | some pool' => .ok pool'
      | none =>
        if signed.any (strips occ) then
          .error s!"plugin {name} signature {dropped}"
        else .ok pool := by
  rw [sameUnsigned_eq h, consumeUnsigned, if_neg]
  simpa using h

/-- **Phase 2** succeeds exactly when no surplus unsigned occurrence strips an
unconsumed token. -/
theorem foldlM_consumeUnsigned_eq_ok {pool : Pool Digest} :
    (∃ pool', occs.foldlM (consumeUnsigned name signed) pool = .ok pool') ↔
      ∀ r ∈ free (exactPass sameUnsigned pool occs).2, r.token = "" →
        ∀ a ∈ signed, strips r a = false := by
  induction occs generalizing pool with
  | nil =>
    constructor
    · intro _ r hr
      simp [exactPass] at hr
    · intro _
      exact ⟨pool, rfl⟩
  | cons occ occs ih =>
  simp only [foldlM_cons]
  by_cases hocc : occ.token = ""
  · cases htake : takeFirst (sameUnsigned occ) pool with
    | some pool₁ =>
      have hstep : consumeUnsigned name signed pool occ = .ok pool₁ := by
        rw [consumeUnsigned_unsigned hocc, htake]
      simp only [hstep, exactPass, htake]
      exact ih
    | none =>
    simp only [exactPass, htake, free_cons_false, mem_cons, forall_eq_or_imp, hocc, forall_const]
    by_cases hstrip : signed.any (strips occ) = true
    · have hstep : consumeUnsigned name signed pool occ =
          .error s!"plugin {name} signature {dropped}" := by
        rw [consumeUnsigned_unsigned hocc, htake]
        exact if_pos hstrip
      obtain ⟨a, ha, hsa⟩ := any_eq_true.mp hstrip
      constructor
      · rintro ⟨_, h⟩
        rw [hstep] at h
        cases h
      · rintro ⟨hnone, -⟩
        rw [hnone a ha] at hsa
        cases hsa
    · have hstep : consumeUnsigned name signed pool occ = .ok pool := by
        rw [consumeUnsigned_unsigned hocc, htake]
        exact if_neg hstrip
      have hnone : ∀ a ∈ signed, strips occ a = false := by
        simpa using hstrip
      simp only [hstep, bind_eq_ok, ok.injEq, exists_eq_left']
      rw [ih]
      exact ⟨fun h => ⟨hnone, h⟩, fun h => h.2⟩
  · have hnone := takeFirst_sameUnsigned_signed hocc pool
    have hstep : consumeUnsigned name signed pool occ = .ok pool := by
      simp [consumeUnsigned, hocc]
    simp only [hstep, exactPass, hnone, free_cons_false, mem_cons, forall_eq_or_imp, hocc,
      false_implies, true_and]
    exact ih

/-! ## The verdict of a binding -/

/-- The signed pairs of token and covered digest. -/
def signedPairs (occs : List TokenOccurrence) : Multiset (String × Digest) :=
  keys signedKey occs

/-- The covered digests of the unsigned occurrences. -/
def unsignedDigests (occs : List TokenOccurrence) : Multiset Digest :=
  keys unsignedKey occs

/-- The accepted tokens no returned occurrence consumes. -/
def unconsumed (acc out : List TokenOccurrence) : List TokenOccurrence :=
  leftover sameOccurrence (acc.filter fun a => a.token != "") out

/-- The returned unsigned occurrences beyond the accepted unsigned ones. -/
def surplusUnsigned (acc out : List TokenOccurrence) : List TokenOccurrence :=
  (leftover (fun d r => sameUnsigned r d) out
    ((acc.filter fun a => a.token == "").map digest)).filter fun r => r.token == ""

lemma tally_signedKey_filter (k : String × Digest) (occs : List TokenOccurrence) :
    tally signedKey k (occs.filter fun a => a.token != "") = tally signedKey k occs := by
  unfold tally
  rw [countP_filter]
  apply countP_congr
  intro a _
  by_cases ha : a.token = "" <;> simp [signedKey, ha]

lemma tally_unsignedKey_map (d : Digest) (occs : List TokenOccurrence) :
    tally some d ((occs.filter fun a => a.token == "").map digest) = tally unsignedKey d occs := by
  unfold tally
  rw [countP_map, countP_filter]
  apply countP_congr
  intro a _
  by_cases ha : a.token = "" <;> simp [unsignedKey, ha]

variable {d : Digest} {t : String}

lemma signedKey_eq_some :
    occ.signedKey = some (t, d) ↔ occ.token ≠ "" ∧ occ.token = t ∧ occ.digest = d := by
  by_cases h : occ.token = "" <;> simp [signedKey]

lemma unsignedKey_eq_some : occ.unsignedKey = some d ↔ occ.token = "" ∧ occ.digest = d := by
  by_cases h : occ.token = "" <;> simp [unsignedKey]

variable {acc out : List TokenOccurrence}

/-- An accepted token is left unconsumed exactly when the accepted side has
more of its pair. -/
lemma exists_mem_unconsumed_iff (ht : t ≠ "") :
    (∃ a ∈ unconsumed acc out, a.token = t ∧ a.digest = d) ↔
      (signedPairs out).count (t, d) < (signedPairs acc).count (t, d) := by
  rw [signedPairs, signedPairs, count_keys, count_keys, ← tally_signedKey_filter _ acc,
    ← exists_mem_leftover_iff]
  constructor
  · rintro ⟨a, ha, htok, hdig⟩
    exact ⟨a, ha, signedKey_eq_some.mpr ⟨by rw [htok]; exact ht, htok, hdig⟩⟩
  · rintro ⟨a, ha, hkey⟩
    exact ⟨a, ha, (signedKey_eq_some.mp hkey).2⟩

lemma token_ne_of_mem_unconsumed {a : TokenOccurrence}
    (h : a ∈ unconsumed acc out) : a.token ≠ "" := by
  have hmem := (leftover_sublist _ _ _).subset h
  simpa using (mem_filter.mp hmem).2

/-- An unsigned occurrence is in surplus exactly when the returned side has more
of its digest. -/
lemma exists_mem_surplusUnsigned_iff : (∃ r ∈ surplusUnsigned acc out, r.digest = d) ↔
      (unsignedDigests acc).count d < (unsignedDigests out).count d := by
  have hcomm : (fun d r => sameUnsigned r d) = hits some unsignedKey := by
    funext d r
    rw [sameUnsigned, hits_comm]
  rw [unsignedDigests, unsignedDigests, count_keys, count_keys, ← tally_unsignedKey_map d acc,
    ← exists_mem_leftover_iff, surplusUnsigned, hcomm]
  constructor
  · rintro ⟨r, hr, hdig⟩
    obtain ⟨hmem, htok⟩ := mem_filter.mp hr
    exact ⟨r, hmem, unsignedKey_eq_some.mpr ⟨by simpa using htok, hdig⟩⟩
  · rintro ⟨r, hr, hkey⟩
    obtain ⟨htok, hdig⟩ := unsignedKey_eq_some.mp hkey
    exact ⟨r, mem_filter.mpr ⟨hr, by simp [htok]⟩, hdig⟩

/-- Phase 1 on a whole request: the returned pairs are among the accepted. -/
lemma forall_free_unsigned_iff :
    (∀ r ∈ free (exactPass sameOccurrence (fresh (acc.filter fun a => a.token != "")) out).2,
        r.token = "") ↔ signedPairs out ≤ signedPairs acc := by
  have hcomm : (fun a r => sameOccurrence r a) = hits signedKey signedKey := by
    funext a r
    rw [sameOccurrence, hits_comm]
  rw [free_exactPass_requests, free_fresh, hcomm, signedPairs, signedPairs, keys_le_iff]
  constructor
  · intro h k
    rw [← tally_signedKey_filter k acc]
    by_contra hlt
    obtain ⟨r, hr, hkey⟩ := exists_mem_leftover_iff.mpr (Nat.lt_of_not_le hlt)
    exact (signedKey_eq_some.mp hkey).1 (h r hr)
  · intro h r hr
    by_contra htok
    have hkey : r.signedKey = some (r.token, r.digest) := signedKey_eq_some.mpr ⟨htok, rfl, rfl⟩
    have hlt := exists_mem_leftover_iff.mp ⟨r, hr, hkey⟩
    have hle := h (r.token, r.digest)
    rw [tally_signedKey_filter] at hlt
    omega

variable {accepted out : ChatRequest}

/-- **What a binding's check decides**, for any way of finding occurrences: the
returned pairs are among the accepted ones, and no surplus unsigned
occurrence strips a token that was not consumed. -/
theorem verifyOccurrences_ok_iff : verifyOccurrences name occurrences accepted out = .ok () ↔
      ∃ acc ret, accepted.messages.mapM occurrences = .ok acc ∧
        out.messages.mapM occurrences = .ok ret ∧
        signedPairs ret.flatten ≤ signedPairs acc.flatten ∧
        ∀ r ∈ surplusUnsigned acc.flatten ret.flatten,
          ∀ a ∈ unconsumed acc.flatten ret.flatten, strips r a = false := by
  unfold verifyOccurrences
  simp only [bind_eq_ok, overMessages_eq_ok, foldlM_consumeToken_eq_ok,
    forall_free_unsigned_iff, and_true]
  constructor
  · rintro ⟨acc, hacc, pool, ⟨ret, hret, hle, rfl⟩, ⟨pool', ret', hret', hfold⟩⟩
    cases hret.symm.trans hret'
    refine ⟨acc, ret, hacc, hret, hle, ?_⟩
    have hphase := foldlM_consumeUnsigned_eq_ok.mp ⟨pool', hfold⟩
    rw [free_exactPass_requests, free_fresh, free_exactPass, free_fresh] at hphase
    intro r hr
    obtain ⟨hmem, htok⟩ := mem_filter.mp hr
    exact hphase r hmem (by simpa using htok)
  · rintro ⟨acc, ret, hacc, hret, hle, hstrip⟩
    have hphase : ∀ r ∈ free (exactPass sameUnsigned
        (fresh ((acc.flatten.filter fun a => a.token == "").map digest))
        ret.flatten).2, r.token = "" →
          ∀ a ∈ unconsumed acc.flatten ret.flatten, strips r a = false := by
      rw [free_exactPass_requests, free_fresh]
      intro r hr htok
      exact hstrip r (mem_filter.mpr ⟨hr, by simp [htok]⟩)
    obtain ⟨pool', hfold⟩ := (@foldlM_consumeUnsigned_eq_ok name _ _ _).mpr hphase
    refine ⟨acc, hacc, _, ⟨ret, hret, hle, rfl⟩, pool', ret, hret, ?_⟩
    rw [free_exactPass, free_fresh]
    exact hfold

/-- All blocks of a request, in order. -/
def ChatRequest.blocks (req : ChatRequest) : List RequestBlock :=
  req.messages.flatMap Message.blocks

/-- The occurrences of a whole request under a binding. -/
def TokenBinding.requestOccurrences (b : TokenBinding) (req : ChatRequest) :
    Except String (List TokenOccurrence) :=
  (req.blocks.filterMap b.select).mapM (b.occurrence ext)

variable {ext : Externals} {b : TokenBinding} {req : ChatRequest}

lemma TokenBinding.requestOccurrences_eq_ok : b.requestOccurrences ext req = .ok occs ↔
      ∃ perMessage, req.messages.mapM (b.occurrences ext) = .ok perMessage ∧
        occs = perMessage.flatten := by
  have hflat : req.blocks.filterMap b.select =
      req.messages.flatMap fun m => m.blocks.filterMap b.select := by
    rw [ChatRequest.blocks, filterMap_flatMap]
  rw [requestOccurrences, hflat, mapM_flatMap_eq_ok]
  rfl

/-- An occurrence over a block's own fields is never an absent carrier. -/
lemma TokenBinding.trailAbsent_eq_false (h : b.requestOccurrences ext req = .ok occs) :
    ∀ occ ∈ occs, occ.trailAbsent = false := by
  intro occ hocc
  obtain ⟨selected, -, hsel⟩ := exists_of_mem_mapM h hocc
  unfold occurrence at hsel
  split at hsel <;> cases hsel
  rfl

/-- **The verdict of a binding over a block's own fields.**  Once both sides'
covered content has digests, the check passes exactly when the returned
signed pairs are a sub-multiset of the accepted ones and a digest of which
more unsigned occurrences are returned than accepted has every accepted
token over it returned. -/
theorem verifyTokenBinding_eq_ok : verifyTokenBinding ext b accepted out = .ok () ↔
      ∃ acc ret, b.requestOccurrences ext accepted = .ok acc ∧
        b.requestOccurrences ext out = .ok ret ∧ signedPairs ret ≤ signedPairs acc ∧
        ∀ d, (unsignedDigests acc).count d < (unsignedDigests ret).count d →
          ∀ t, t ≠ "" → (signedPairs acc).count (t, d) ≤ (signedPairs ret).count (t, d) := by
  rw [verifyTokenBinding, verifyOccurrences_ok_iff]
  constructor
  · rintro ⟨acc, ret, hacc, hret, hle, hstrip⟩
    have hacc' := TokenBinding.requestOccurrences_eq_ok.mpr ⟨acc, hacc, rfl⟩
    have hret' := TokenBinding.requestOccurrences_eq_ok.mpr ⟨ret, hret, rfl⟩
    refine ⟨_, _, hacc', hret', hle, ?_⟩
    intro d hsurplus t ht
    by_contra hlt
    obtain ⟨r, hr, hrd⟩ := exists_mem_surplusUnsigned_iff.mpr hsurplus
    obtain ⟨a, ha, -, had⟩ := (exists_mem_unconsumed_iff ht).mpr (Nat.lt_of_not_le hlt)
    have hmem : r ∈ ret.flatten := (leftover_sublist _ _ _).subset (mem_filter.mp hr).1
    have hno := hstrip r hr a ha
    rw [strips, TokenBinding.trailAbsent_eq_false hret' r hmem, had, hrd] at hno
    simp at hno
  · rintro ⟨acc', ret', hacc', hret', hle, hcount⟩
    obtain ⟨acc, hacc, rfl⟩ := TokenBinding.requestOccurrences_eq_ok.mp hacc'
    obtain ⟨ret, hret, rfl⟩ := TokenBinding.requestOccurrences_eq_ok.mp hret'
    refine ⟨acc, ret, hacc, hret, hle, ?_⟩
    intro r hr a ha
    by_contra hstrips
    have hmem : r ∈ ret.flatten := (leftover_sublist _ _ _).subset (mem_filter.mp hr).1
    have hdig : a.digest = r.digest := by
      rw [strips, TokenBinding.trailAbsent_eq_false hret' r hmem] at hstrips
      exact beq_iff_eq.mp (Bool.not_eq_false _ ▸ hstrips)
    have ht := token_ne_of_mem_unconsumed ha
    have hle' := hcount r.digest (exists_mem_surplusUnsigned_iff.mp ⟨r, hr, rfl⟩) a.token ht
    have hlt := (exists_mem_unconsumed_iff ht).mp ⟨a, ha, rfl, hdig⟩
    omega

lemma verifyTokenBinding_ok_of_perm {accepted out out' : ChatRequest}
    (h : out'.blocks.Perm out.blocks) (hok : verifyTokenBinding ext b accepted out = .ok ()) :
    verifyTokenBinding ext b accepted out' = .ok () := by
  obtain ⟨acc, ret, hacc, hret, hle, hcount⟩ := verifyTokenBinding_eq_ok.mp hok
  obtain ⟨ret', hret', hperm⟩ := mapM_perm (h.filterMap b.select) hret
  have hsigned : signedPairs ret' = signedPairs ret :=
    Multiset.coe_eq_coe.mpr (hperm.filterMap signedKey)
  have hunsigned : unsignedDigests ret' = unsignedDigests ret :=
    Multiset.coe_eq_coe.mpr (hperm.filterMap unsignedKey)
  refine verifyTokenBinding_eq_ok.mpr ⟨acc, ret', hacc, hret', ?_⟩
  rw [hsigned, hunsigned]
  exact ⟨hle, hcount⟩

/-- **Provenance of block signatures.**  For every binding over a block's own
fields the check accepts exactly when (1) the returned signed pairs are a
sub-multiset of the accepted ones and (2) every digest of which the returned
request has more unsigned occurrences than the accepted one has all its
accepted tokens matched.  The verdict depends on the returned blocks only up
to permutation, across messages too. -/
theorem verifyTokenBinding_iff_provenance (ext : Externals) (b : TokenBinding)
    (accepted out : ChatRequest) : (verifyTokenBinding ext b accepted out = .ok () ↔
      ∃ acc ret, b.requestOccurrences ext accepted = .ok acc ∧
        b.requestOccurrences ext out = .ok ret ∧ signedPairs ret ≤ signedPairs acc ∧
        ∀ d, (unsignedDigests acc).count d < (unsignedDigests ret).count d →
          ∀ t, t ≠ "" → (signedPairs acc).count (t, d) ≤ (signedPairs ret).count (t, d)) ∧
    ∀ out', out'.blocks.Perm out.blocks → (verifyTokenBinding ext b accepted out' = .ok () ↔
        verifyTokenBinding ext b accepted out = .ok ()) := by
  refine ⟨verifyTokenBinding_eq_ok, ?_⟩
  intro out' hperm
  exact ⟨verifyTokenBinding_ok_of_perm hperm.symm, verifyTokenBinding_ok_of_perm hperm⟩

end ToranaEdge
