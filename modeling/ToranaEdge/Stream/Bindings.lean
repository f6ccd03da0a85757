import Mathlib.Data.Multiset.UnionInter
import ToranaEdge.Stream.ToolScopes

/-! # Signature-delta bindings

`verifySignatureDeltaBindings` compares the `signature_delta` occurrences
of two streams, kind by kind.  An exact pass pairs occurrences with equal
token and typed content.  A returned token without a partner is refused; an
accepted token without a partner must have lost its content, or be cleared
by a marker, or be suppressed under the topology grant.

Two laws are proved of the verdict: returned tokens are a sub-multiset of
the accepted ones, and content that lost its token survives no more often
than exact matches and unsigned twins account for. -/

namespace ToranaEdge

open Reserve List

/-! ## The verifier -/

/-- The exact match of phase 1; an empty token matches nothing. -/
def sameToken (r a : SigBinding) : Bool :=
  r.signature != "" && (a.signature == r.signature && a.content == r.content)

variable (kind : SigBindingKind)

/-- Phase 2: the diagnosis for a returned token without an exact match, given
the accepted occurrences still unconsumed. -/
def unmatchedTokenError (unconsumed : List SigBinding) (r : SigBinding) : String :=
  match unconsumed.filter fun a => a.signature == r.signature with
  | [] =>
    if unconsumed.length > 0 then s!"{kind} signature_delta forged"
    else s!"{kind} signature_delta added"
  | first :: others =>
    if others.any fun a => a.content != first.content then
      s!"{kind} signature_delta ambiguous: {others.length + 1} signed occurrences cover different content"
    else s!"{kind} signature_delta stale"

/-- The refusal of a suppression without the topology grant. -/
def suppressedBlock (canWrite : String → Bool) : Except String Unit :=
  if !canWrite streamWriteGrant then
    .error s!"suppressed a signed text/thinking block without {streamWriteGrant}"
  else .ok ()

/-- What happened to an accepted signature whose token is gone, from the
returned span structure alone. -/
def verifyUnpairedBinding (ab : SigBinding)
    (rv : StreamSignatureView) (canWrite : String → Bool) : Except String Unit :=
  if kind == .trailing then
    if rv.closed == ab.content then .error "trailing signature_delta dropped"
    else if rv.closed.isEmpty && !rv.sawContent then suppressedBlock canWrite
    else .ok ()
  else
    match ab.span with
    | some o =>
      match rv.spans[o]? with
      | none => suppressedBlock canWrite
      | some span =>
        if ab.content.isEmpty then
          -- a span of another kind took the ordinal: the block was suppressed
          if !span.sameKind ab.content then suppressedBlock canWrite
          else .error "current-block signature_delta dropped"
        else .ok ()
    | none =>
      if ab.content.isEmpty then .error "current-block signature_delta dropped" else .ok ()

/-- Occurrences per typed content; the source's map, with absent keys at 0. -/
abbrev ContentCounts : Type := TypedContent → Int

/-- `counts[c] += d`. -/
def ContentCounts.add (counts : ContentCounts) (c : TypedContent) (d : Int) : ContentCounts :=
  fun x => if x = c then counts x + d else counts x

def countSpans (spans : List TypedContent) : ContentCounts :=
  spans.foldl (fun counts s => counts.add s 1) fun _ => 0

/-- Take the returned spans that exactly matched bindings own out of the count. -/
def reserveMatchedSpans (spans : List TypedContent) (matched : List SigBinding)
    (counts : ContentCounts) : ContentCounts :=
  matched.foldl (fun counts b =>
    match b.span.bind fun o => spans[o]? with
    | some s => counts.add s (-1)
    | none => counts) counts

/-- Accepted spans without a signature claim surviving returned spans first;
the contents they claimed are the surviving twins. -/
def consumeTwins (signedOrdinals : List Nat) :
    List (TypedContent × Nat) → ContentCounts → ContentCounts × List TypedContent
  | [], counts => (counts, [])
  | (s, o) :: rest, counts =>
    if signedOrdinals.contains o || counts s == 0 then consumeTwins signedOrdinals rest counts
    else
      ((consumeTwins signedOrdinals rest (counts.add s (-1))).1,
        s :: (consumeTwins signedOrdinals rest (counts.add s (-1))).2)

/-- The ordinals of the spans a non-empty token covers. -/
def signedOrdinals (acc : List SigBinding) : List Nat :=
  acc.filterMap fun b => if b.signature != "" then b.span else none

/-- The content of an unmatched accepted token survives without it. -/
def contentSurvives (rv : StreamSignatureView)
    (remaining : ContentCounts) (a : SigBinding) : Bool :=
  if kind == .trailing then rv.closed == a.content else decide (0 < remaining a.content)

/-- Phase 3 for one accepted token without an exact match; `markers` are the
explicit empty returned occurrences not used so far. -/
def settleBinding (rv : StreamSignatureView) (canWrite : String → Bool)
    (remaining : ContentCounts) (twinSurvived : List TypedContent)
    (markers : Pool SigBinding) (a : SigBinding) : Except String (Pool SigBinding) :=
  if contentSurvives kind rv remaining a then .error s!"{kind} signature_delta dropped"
  else if (free markers).any fun m => m.content == a.content then
    .error s!"{kind} signature_delta dropped"
  else
    match takeFirst (fun m => m.span == a.span) markers with
    | some markers' =>
      -- a marker at the same ordinal clears the token; an empty scope is never
      -- rewritten, so its marker is classified as if it were absent
      if a.content.isEmpty then (verifyUnpairedBinding kind a rv canWrite).map fun _ => markers'
      else .ok markers'
    | none =>
      if kind == .current && twinSurvived.contains a.content then
        (suppressedBlock canWrite).map fun _ => markers
      else (verifyUnpairedBinding kind a rv canWrite).map fun _ => markers

/-- The loop of phase 3. -/
def settleUnmatched (rv : StreamSignatureView)
    (canWrite : String → Bool) (remaining : ContentCounts) (twinSurvived : List TypedContent) :
    Pool SigBinding → List SigBinding → Except String Unit
  | _, [] => .ok ()
  | markers, a :: rest =>
    match settleBinding kind rv canWrite remaining twinSurvived markers a with
    | .error e => .error e
    | .ok markers' => settleUnmatched rv canWrite remaining twinSurvived markers' rest

/-- The occurrences of one kind. -/
def StreamSignatureView.ofKind (v : StreamSignatureView) (kind : SigBindingKind) :
    List SigBinding :=
  v.bindings.filter fun b => b.kind == kind

variable (av rv : StreamSignatureView)

/-- Phase 1 of one kind: the accepted pool and the flagged returned occurrences. -/
def exactBindings :
    Pool SigBinding × List (SigBinding × Bool) :=
  exactPass sameToken (fresh (av.ofKind kind)) (rv.ofKind kind)

/-- The returned occurrences phase 1 matched. -/
def matchedBindings : List SigBinding :=
  ((exactBindings kind av rv).2.filter fun r => r.2).map Prod.fst

/-- The counts and twins phase 3 works with; empty for trailing occurrences. -/
def spanAccounting :
    ContentCounts × List TypedContent :=
  if kind == .current then
    consumeTwins (signedOrdinals (av.ofKind kind)) av.spans.zipIdx
      (reserveMatchedSpans rv.spans (matchedBindings kind av rv) (countSpans rv.spans))
  else (fun _ => 0, [])

/-- The body of the loop over the two binding kinds. -/
def verifyBindingKind (canWrite : String → Bool) : Except String Unit :=
  match (free (exactBindings kind av rv).2).find? fun r => r.signature != "" with
  | some r => .error (unmatchedTokenError kind (free (exactBindings kind av rv).1) r)
  | none =>
    settleUnmatched kind rv canWrite (spanAccounting kind av rv).1 (spanAccounting kind av rv).2
      (fresh ((rv.ofKind kind).filter fun r => r.signature == ""))
      ((free (exactBindings kind av rv).1).filter fun a => a.signature != "")

def verifySignatureDeltaBindings (canWrite : String → Bool) :
    Except String Unit :=
  match verifyBindingKind .current av rv canWrite with
  | .error e => .error e
  | .ok () =>
    match verifyBindingKind .trailing av rv canWrite with
    | .error e => .error e
    | .ok () =>
      if rv.bindings.any fun b => b.kind == .unbound then
        .error "signature_delta has no covered content (does not bind tool-call blocks)"
      else .ok ()

/-! ## No minted token -/

/-- The identity of a signed occurrence: non-empty token and typed content. -/
def SigBinding.token (b : SigBinding) : Option (String × TypedContent) :=
  if b.signature = "" then none else some (b.signature, b.content)

variable {b : SigBinding}

lemma SigBinding.token_eq_none : b.token = none ↔ b.signature = "" := by
  simp [token]

open SigBinding (token token_eq_none)

lemma sameToken_eq_hits : sameToken = hits token token := by
  funext r a
  rw [Bool.eq_iff_iff, hits_iff]
  by_cases hr : r.signature = ""
  · simp [sameToken, token, hr]
  simp only [sameToken, token, hr, Bool.and_eq_true, bne_iff_ne, ne_eq]
  by_cases ha : a.signature = ""
  · simp [ha, Ne.symm hr]
  · simp [ha]

lemma free_exactBindings_requests : free (exactBindings kind av rv).2 =
      leftover (hits token token) (rv.ofKind kind) (av.ofKind kind) := by
  have hcomm : (fun a b => sameToken b a) = hits token token := by
    funext a b
    rw [sameToken_eq_hits, hits_comm]
  rw [exactBindings, free_exactPass_requests, free_fresh, hcomm]

variable {kind : SigBindingKind} {av rv : StreamSignatureView} {canWrite : String → Bool}

/-- What acceptance of one kind says: every returned occurrence without an
exact match is unsigned, and phase 3 went through. -/
lemma verifyBindingKind_ok (h : verifyBindingKind kind av rv canWrite = .ok ()) :
    (∀ r ∈ free (exactBindings kind av rv).2, r.signature = "") ∧
      settleUnmatched kind rv canWrite (spanAccounting kind av rv).1 (spanAccounting kind av rv).2
        (fresh ((rv.ofKind kind).filter fun r => r.signature == ""))
        ((free (exactBindings kind av rv).1).filter fun a => a.signature != "") = .ok () := by
  unfold verifyBindingKind at h
  split at h
  · cases h
  next hfind =>
  refine ⟨?_, h⟩
  intro r hr
  simpa using find?_eq_none.mp hfind r hr

/-- The returned tokens of a kind are a sub-multiset of the accepted ones. -/
lemma tokens_le_of_verifyBindingKind (h : verifyBindingKind kind av rv canWrite = .ok ()) :
    keys token (rv.ofKind kind) ≤ keys token (av.ofKind kind) := by
  apply keys_le_of_leftover_unkeyed
  intro r hr
  rw [← free_exactBindings_requests] at hr
  exact token_eq_none.mpr ((verifyBindingKind_ok h).1 r hr)

lemma verifySignatureDeltaBindings_ok (h : verifySignatureDeltaBindings av rv canWrite = .ok ()) :
    verifyBindingKind .current av rv canWrite = .ok () ∧
      verifyBindingKind .trailing av rv canWrite = .ok () ∧
      ∀ b ∈ rv.bindings, b.kind ≠ .unbound := by
  unfold verifySignatureDeltaBindings at h
  split at h
  · cases h
  next hcur =>
  split at h
  · cases h
  next htrail =>
  refine ⟨hcur, htrail, ?_⟩
  intro b hb hkind
  have hany : (rv.bindings.any fun b => b.kind == .unbound) = true :=
    any_eq_true.mpr ⟨b, hb, by simp [hkind]⟩
  simp only [hany] at h
  cases h

/-! ## Counting surviving content

The counts start at the returned spans, lose the spans of exact matches and
then one span per unsigned twin.  A token without a match is only let go
when nothing of its content is left in the count. -/

/-- A matched returned occurrence carries a token. -/
lemma signature_of_mem_matchedBindings (hb : b ∈ matchedBindings kind av rv) :
    b.signature ≠ "" := by
  obtain ⟨⟨b', flag⟩, hmem, rfl⟩ := mem_map.mp hb
  obtain ⟨hmem, hflag⟩ := mem_filter.mp hmem
  subst hflag
  obtain ⟨a, ha⟩ := exists_of_mem_exactPass_requests hmem
  simp only [sameToken, Bool.and_eq_true, bne_iff_ne] at ha
  exact ha.1

lemma matchedBindings_sublist (kind : SigBindingKind) (av rv : StreamSignatureView) :
    (matchedBindings kind av rv).Sublist (rv.ofKind kind) := by
  have hsub := (filter_sublist (l := (exactBindings kind av rv).2) (p := fun r => r.2)).map Prod.fst
  rw [exactBindings, map_fst_exactPass_requests] at hsub
  exact hsub

@[simp] lemma ContentCounts.add_apply (counts : ContentCounts) (c x : TypedContent) (d : Int) :
    counts.add c d x = counts x + if x = c then d else 0 := by
  unfold ContentCounts.add
  split <;> simp

variable (spans : List TypedContent) {remaining : ContentCounts} {twins : List TypedContent}
  {markers : Pool SigBinding}

lemma foldl_add_one_apply (counts : ContentCounts) (c : TypedContent) :
    spans.foldl (fun counts s => counts.add s 1) counts c = counts c + spans.count c := by
  induction spans generalizing counts with
  | nil => simp
  | cons s spans ih =>
  rw [foldl_cons, ih]
  by_cases hs : s = c
  · simp [hs]
    omega
  · simp [hs, Ne.symm hs]

lemma countSpans_apply (c : TypedContent) : countSpans spans c = spans.count c := by
  unfold countSpans
  rw [foldl_add_one_apply]
  simp

/-- Reserving takes one off `c` per matched binding whose span holds `c`. -/
lemma reserveMatchedSpans_apply (matched : List SigBinding)
    (counts : ContentCounts) (c : TypedContent) : reserveMatchedSpans spans matched counts c =
      counts c - matched.countP fun b => (b.span.bind fun o => spans[o]?) == some c := by
  unfold reserveMatchedSpans
  induction matched generalizing counts with
  | nil => simp
  | cons b matched ih =>
  rw [foldl_cons, ih, countP_cons]
  cases hs : b.span.bind fun o => spans[o]? with
  | none => simp
  | some s =>
  by_cases hc : s = c
  · simp [hc]
    omega
  · simp [hc, Ne.symm hc]

/-- The accepted spans with content `c` that no non-empty signature covers. -/
def unsignedSpans (v : StreamSignatureView) (c : TypedContent) : Nat :=
  v.spans.zipIdx.countP fun s =>
    s.1 == c && !(signedOrdinals (v.ofKind .current)).contains s.2

/-- Twins take no more off `c` than there are unsigned spans with content `c`. -/
lemma consumeTwins_ge (signed : List Nat) (spans : List (TypedContent × Nat))
    (counts : ContentCounts) (c : TypedContent) :
    counts c - (spans.countP fun s => s.1 == c && !signed.contains s.2) ≤
      (consumeTwins signed spans counts).1 c := by
  induction spans generalizing counts with
  | nil => simp [consumeTwins]
  | cons t spans ih =>
  obtain ⟨s, o⟩ := t
  rw [countP_cons]
  by_cases hskip : (signed.contains o || counts s == 0) = true
  · have hstay : consumeTwins signed ((s, o) :: spans) counts = consumeTwins signed spans counts := by
      rw [consumeTwins, if_pos hskip]
    have hrest := ih counts
    rw [hstay]
    split <;> omega
  have htake : (consumeTwins signed ((s, o) :: spans) counts).1 =
      (consumeTwins signed spans (counts.add s (-1))).1 := by
    rw [consumeTwins, if_neg hskip]
  have hunsigned : signed.contains o = false := by
    simp only [Bool.or_eq_true, not_or, Bool.not_eq_true] at hskip
    exact hskip.1
  have hrest := ih (counts.add s (-1))
  rw [ContentCounts.add_apply] at hrest
  rw [htake]
  by_cases hc : c = s
  · have htwin : (s == c && !signed.contains o) = true := by
      rw [hunsigned, hc]
      simp
    rw [if_pos htwin]
    omega
  · rw [if_neg hc] at hrest
    omega

/-- Phase 3 lets a current-block token go only when nothing of its content is
left in the count. -/
lemma remaining_of_settleBinding {markers' : Pool SigBinding} {a : SigBinding}
    (h : settleBinding .current rv canWrite remaining twins markers a = .ok markers') :
    remaining a.content ≤ 0 := by
  by_contra hpos
  have hsurv : contentSurvives .current rv remaining a = true := by
    simpa [contentSurvives] using hpos
  rw [settleBinding, if_pos hsurv] at h
  cases h

lemma remaining_of_settleUnmatched {acc : List SigBinding}
    (h : settleUnmatched .current rv canWrite remaining twins markers acc = .ok ()) :
    ∀ a ∈ acc, remaining a.content ≤ 0 := by
  induction acc generalizing markers with
  | nil => simp
  | cons a acc ih =>
  unfold settleUnmatched at h
  split at h
  · cases h
  next markers' hstep =>
  exact forall_mem_cons.mpr ⟨remaining_of_settleBinding hstep, ih h⟩

lemma countP_keys_token (bindings : List SigBinding) (c : TypedContent) :
    (keys token bindings).countP (fun k => k.2 = c) =
      bindings.countP fun b => b.signature != "" && b.content == c := by
  unfold Reserve.keys
  rw [Multiset.coe_countP]
  induction bindings with
  | nil => rfl
  | cons b bindings ih =>
  by_cases hb : b.signature = ""
  · simp [token, hb, ih]
  have htoken : b.token = some (b.signature, b.content) := by simp [token, hb]
  rw [filterMap_cons_some htoken, countP_cons, countP_cons, ih]
  simp [hb]

/-- **The counting law.**  When some accepted token over `c` has no exact match,
the returned spans with content `c` are at most the exactly matched
occurrences plus the accepted unsigned spans. -/
theorem spans_le_of_verifyBindingKind
    (hspan : ∀ b ∈ rv.ofKind .current, (b.span.bind fun o => rv.spans[o]?) = some b.content)
    (h : verifyBindingKind .current av rv canWrite = .ok ()) (c : TypedContent)
    (hlost : ∃ token, token ≠ "" ∧ tally SigBinding.token (token, c) (rv.ofKind .current) <
      tally SigBinding.token (token, c) (av.ofKind .current)) : rv.spans.count c ≤
      ((keys token (av.ofKind .current)) ∩
        (keys token (rv.ofKind .current))).countP (fun k => k.2 = c) + unsignedSpans av c := by
  obtain ⟨token, htok, hlt⟩ := hlost
  -- some unmatched accepted token covers `c`, so phase 3 saw no surplus of `c`
  have hleft : free (exactBindings .current av rv).1 =
      leftover (hits SigBinding.token SigBinding.token) (av.ofKind .current)
        (rv.ofKind .current) := by
    rw [exactBindings, free_exactPass, free_fresh, sameToken_eq_hits]
  obtain ⟨a, ha, hkey⟩ := exists_mem_leftover_iff.mpr hlt
  rw [← hleft] at ha
  have hsig : a.signature ≠ "" := by
    intro hsig
    rw [token_eq_none.mpr hsig] at hkey
    cases hkey
  have hcontent : a.content = c := by
    simp only [SigBinding.token, hsig, if_false, Option.some.injEq, Prod.mk.injEq] at hkey
    exact hkey.2
  have hzero : (spanAccounting .current av rv).1 c ≤ 0 := by
    rw [← hcontent]
    apply remaining_of_settleUnmatched (verifyBindingKind_ok h).2
    exact mem_filter.mpr ⟨ha, by simpa using hsig⟩
  -- the count at `c`: returned spans, minus matched spans, minus at most the twins
  have htwins : _ ≤ (spanAccounting .current av rv).1 c := consumeTwins_ge _ _ _ c
  rw [reserveMatchedSpans_apply, countSpans_apply] at htwins
  have hmatched : ((matchedBindings .current av rv).countP
      fun b => (b.span.bind fun o => rv.spans[o]?) == some c) ≤
      (rv.ofKind .current).countP fun b => b.signature != "" && b.content == c := by
    have hsub := matchedBindings_sublist .current av rv
    calc (matchedBindings .current av rv).countP
          (fun b => (b.span.bind fun o => rv.spans[o]?) == some c)
        ≤ (matchedBindings .current av rv).countP
            (fun b => b.signature != "" && b.content == c) := by
          apply countP_mono_left
          intro b hb hbc
          rw [hspan b (hsub.subset hb)] at hbc
          have hne := signature_of_mem_matchedBindings hb
          simpa [hne] using hbc
      _ ≤ _ := hsub.countP_le
  have hinter : (keys SigBinding.token (av.ofKind .current)) ∩
      (keys SigBinding.token (rv.ofKind .current)) = keys SigBinding.token (rv.ofKind .current) :=
    inf_eq_right.mpr (tokens_le_of_verifyBindingKind h)
  rw [hinter, countP_keys_token]
  unfold unsignedSpans
  omega

end ToranaEdge
