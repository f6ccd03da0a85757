import ToranaEdge.Lib.Reserve
import ToranaEdge.Lib.Splits
import ToranaEdge.Signature
import ToranaEdge.Stream.Scan

/-! # Tool-call scopes

`verifyToolScopes` aligns the tool-call scopes of the returned stream with
those of the accepted one.  A global exact pass pairs scopes that agree in
token and covered content; what is left is correlated by index, then by
covered content, and otherwise counted as invented or suppressed.

Two results are prepared here.  No grant lets a signed scope through that
the accepted side does not have (`signedFacts_le_of_verifyToolScopes`).
And the verdict is characterised exactly (`verifyToolScopes_ok_iff`), which
shows where the correlation by index lets a token be stripped from content
that survives: a returned scope that sits on the index of some unreproduced
accepted scope is never compared with the scope it copies. -/

namespace ToranaEdge

open Reserve List

/-- The topology grant of the stream path. -/
def streamWriteGrant : String := "ir.stream.write"

/-! ## The verifier -/

/-- The exact match of phase 1: same token and same covered content. -/
def sameFacts (r a : ToolCallScope) : Bool :=
  a.signature == r.signature && toolCallCoveredContentEqual a r

variable (cls : SignatureClassifier)

/-- Phases 2, 2b and 3 for one returned scope that has no exact match. -/
def correlateToolScope (canWrite : String → Bool)
    (pool : Pool ToolCallScope) (r : ToolCallScope) : Except String (Pool ToolCallScope) :=
  match pool.find? fun s => s.1.index == r.index with
  | some (a, false) =>
    -- phase 2: the accepted scope at the same index
    let mutation := cls.classify a.signature r.signature (toolCallContentChanged a r)
    if !mutation.allowed then .error s!"tool block {r.index} signature {mutation}"
    else .ok (consume (fun a => a.index == r.index) pool)
  | _ =>
    match (free pool).find? fun a => toolCallCoveredContentEqual a r with
    | some a =>
      -- phase 2b: identical covered facts at another index
      let mutation := cls.classify a.signature r.signature false
      if !mutation.allowed then .error s!"tool block {r.index} signature {mutation}"
      else .ok (consume (fun a => toolCallCoveredContentEqual a r) pool)
    | none =>
      -- phase 3: an invented block
      if r.signature != "" then
        .error s!"invented signed tool block {r.index}: signature added"
      else if !canWrite streamWriteGrant then
        .error s!"invented tool block {r.index} without {streamWriteGrant}"
      else .ok pool

/-- The correlation loop. -/
def correlateToolScopes (canWrite : String → Bool) :
    Pool ToolCallScope → List ToolCallScope → Except String (Pool ToolCallScope)
  | pool, [] => .ok pool
  | pool, r :: rs =>
    match correlateToolScope cls canWrite pool r with
    | .error e => .error e
    | .ok pool' => correlateToolScopes canWrite pool' rs

/-- Phase 4: signed accepted scopes nothing consumed are suppressed. -/
def checkSuppressedScopes (canWrite : String → Bool) : List ToolCallScope → Except String Unit
  | [] => .ok ()
  | a :: rest =>
    if a.signature == "" then checkSuppressedScopes canWrite rest
    else if !canWrite streamWriteGrant then
      .error s!"suppressed signed tool block {a.index} without {streamWriteGrant}"
    else checkSuppressedScopes canWrite rest

variable (accepted returned : List ToolCallScope)

def verifyToolScopes (canWrite : String → Bool) : Except String Unit :=
  let exact := exactPass sameFacts (fresh accepted) returned
  match correlateToolScopes cls canWrite exact.1 (free exact.2) with
  | .error e => .error e
  | .ok pool => checkSuppressedScopes canWrite (free pool)

/-! ## Facts and what is not reproduced -/

/-- The complete signed facts of a scope: token and covered content. -/
def ToolCallScope.facts (s : ToolCallScope) : Option (String × CoveredCall) :=
  some (s.signature, s.covered)

/-- The signed facts of a scope that carries a token. -/
def ToolCallScope.signedFacts (s : ToolCallScope) : Option (String × CoveredCall) :=
  if s.signature = "" then none else some (s.signature, s.covered)

open ToolCallScope (facts index signedFacts)

/-- The scopes of `xs` that `ys` does not reproduce one-to-one. -/
def unreproduced (xs ys : List ToolCallScope) : List ToolCallScope :=
  leftover sameFacts xs ys

lemma sameFacts_eq_hits : sameFacts = hits facts facts := by
  funext r a
  rw [Bool.eq_iff_iff, hits_iff]
  simp only [sameFacts, Bool.and_eq_true, beq_iff_eq, toolCallCoveredContentEqual_iff,
    facts]
  constructor
  · rintro ⟨hs, hc⟩
    exact ⟨_, rfl, by rw [hs, hc]⟩
  · simp

lemma facts_eq_iff {a b : ToolCallScope} :
    a.facts = b.facts ↔ a.signature = b.signature ∧ a.covered = b.covered := by
  simp [facts]

lemma unreproduced_sublist (xs ys : List ToolCallScope) : (unreproduced xs ys).Sublist xs :=
  leftover_sublist sameFacts xs ys

variable {xs ys : List ToolCallScope}

/-- A content is left over on one side exactly when that side has more of it. -/
lemma exists_unreproduced_iff {token : String} {c : CoveredCall} :
    (∃ a ∈ unreproduced xs ys, a.signature = token ∧ a.covered = c) ↔
      tally facts (token, c) ys < tally facts (token, c) xs := by
  have hsurplus : (∃ a ∈ leftover (hits facts facts) xs ys,
      a.facts = some (token, c)) ↔ _ := exists_mem_leftover_iff
  rw [← hsurplus, ← sameFacts_eq_hits]
  simp [facts, unreproduced]

variable {a r : ToolCallScope}

lemma unreproduced_facts_ne
    (ha : a ∈ unreproduced xs ys) (hr : r ∈ unreproduced ys xs) : a.facts ≠ r.facts := by
  unfold unreproduced at ha hr
  rw [sameFacts_eq_hits] at ha hr
  intro heq
  exact leftover_keys_disjoint ha hr (k := (a.signature, a.covered)) rfl heq.symm

lemma free_exactPass_sameFacts :
    free (exactPass sameFacts (fresh accepted) returned).1 = unreproduced accepted returned := by
  rw [free_exactPass, free_fresh]
  rfl

lemma exactPass_facts_ne {accepted returned : List ToolCallScope}
    (hr : r ∈ unreproduced returned accepted)
    (ha : a ∈ free (exactPass sameFacts (fresh accepted) returned).1) : a.facts ≠ r.facts :=
  unreproduced_facts_ne (free_exactPass_sameFacts accepted returned ▸ ha) hr

lemma free_exactPass_sameFacts_requests :
    free (exactPass sameFacts (fresh accepted) returned).2 = unreproduced returned accepted := by
  have hcomm : (fun a b => sameFacts b a) = sameFacts := by
    funext a b
    rw [sameFacts_eq_hits, hits_comm]
  rw [free_exactPass_requests, free_fresh, hcomm]
  rfl

/-! ## One step of the correlation loop -/

section correlation

variable (cls : SignatureClassifier) (canWrite : String → Bool)

/-- What the loop demands of a returned scope, given the accepted scopes still
free: it is unsigned, and it either rewrites the scope at its own index or
is invented under the topology grant. -/
def Correlates (candidates : List ToolCallScope)
    (r : ToolCallScope) : Prop :=
  r.signature = "" ∧
    (((∃ a ∈ candidates, a.index = r.index) ∧
        ∀ a ∈ candidates, a.index = r.index → a.covered ≠ r.covered) ∨
      ((∀ a ∈ candidates, a.index ≠ r.index ∧ a.covered ≠ r.covered) ∧
        canWrite streamWriteGrant = true))

variable {pool : Pool ToolCallScope}

lemma find_index_eq {s : ToolCallScope × Bool} {i : Int32}
    (hnodup : (pool.map fun s => s.1.index).Nodup) (hs : s ∈ pool) (hi : s.1.index = i) :
    (pool.find? fun s => s.1.index == i) = some s := by
  cases h : pool.find? fun s => s.1.index == i with
  | none => exact absurd hi (by simpa using find?_eq_none.mp h s hs)
  | some t =>
    have hti : t.1.index = i := by simpa using find?_some h
    rw [inj_on_of_nodup_map hnodup (mem_of_find?_eq_some h) hs (hti.trans hi.symm)]

variable {pool' : Pool ToolCallScope}

/-- With equal content only the same token is allowed, and that is an exact match. -/
lemma allowed_of_covered (hdisj : a.facts ≠ r.facts) (hc : a.covered = r.covered) :
    (cls.classify a.signature r.signature false).allowed = false := by
  rw [Bool.eq_false_iff]
  intro hallowed
  rw [cls.allowed_unchanged_iff] at hallowed
  exact hdisj (facts_eq_iff.mpr ⟨hallowed, hc⟩)

/-- Phase 2 on the scope at the returned scope's own index. -/
lemma correlateToolScope_same_index
    (hfind : (pool.find? fun s => s.1.index == r.index) = some (a, false))
    (hdisj : a.facts ≠ r.facts) : correlateToolScope cls canWrite pool r = .ok pool' ↔
      (r.signature = "" ∧ a.covered ≠ r.covered) ∧
        pool' = consume (fun a => a.index == r.index) pool := by
  unfold correlateToolScope
  rw [hfind]
  by_cases hc : a.covered = r.covered
  · have hchanged : toolCallContentChanged a r = false := by
      simpa [hc] using (toolCallContentChanged_iff (a := a) (b := r))
    simp [hchanged, allowed_of_covered cls hdisj hc, hc]
  have hchanged : toolCallContentChanged a r = true := toolCallContentChanged_iff.mpr hc
  have hallowed := cls.allowed_changed_iff a.signature r.signature
  by_cases hr : r.signature = ""
  · have hok : (cls.classify a.signature r.signature true).allowed = true := hallowed.mpr hr
    simp only [hchanged, hok]
    simp [hr, hc, eq_comm]
  have hno : (cls.classify a.signature r.signature true).allowed = false := by
    rw [Bool.eq_false_iff]
    exact fun h => hr (hallowed.mp h)
  simp only [hchanged, hno]
  simp [hr]

/-- Phases 2b and 3, when no free scope sits at the returned scope's index. -/
lemma correlateToolScope_other_index
    (hfind : ∀ a, (pool.find? fun s => s.1.index == r.index) ≠ some (a, false))
    (hdisj : ∀ a ∈ free pool, a.facts ≠ r.facts) :
    correlateToolScope cls canWrite pool r = .ok pool' ↔
      (r.signature = "" ∧ (∀ a ∈ free pool, a.covered ≠ r.covered) ∧
        canWrite streamWriteGrant = true) ∧ pool' = pool := by
  unfold correlateToolScope
  split
  · next a h => exact absurd h (hfind a)
  cases hcov : (free pool).find? fun a => toolCallCoveredContentEqual a r with
  | some a =>
    have ha : a ∈ free pool := mem_of_find?_eq_some hcov
    have hc : a.covered = r.covered :=
      toolCallCoveredContentEqual_iff.mp (by simpa using find?_some hcov)
    simp only [allowed_of_covered cls (hdisj a ha) hc]
    constructor
    · intro h
      cases h
    · rintro ⟨⟨-, hne, -⟩, -⟩
      exact absurd hc (hne a ha)
  | none =>
  have hne : ∀ a ∈ free pool, a.covered ≠ r.covered := by
    intro a ha hc
    have := find?_eq_none.mp hcov a ha
    exact this (toolCallCoveredContentEqual_iff.mpr hc)
  by_cases hr : r.signature = ""
  · by_cases hw : canWrite streamWriteGrant = true
    · simp only [hr, bne_self_eq_false, Bool.false_eq_true, if_false, hw, Bool.not_true,
        Except.ok.injEq]
      constructor
      · intro h
        exact ⟨⟨trivial, hne, trivial⟩, h.symm⟩
      · rintro ⟨-, h⟩
        exact h.symm
    · simp [hr, hw]
  · simp [hr]

/-- **One step of the loop.**  Phase 2b never lets a scope through, so a step
that succeeds consumes the scope at its index, if that is free. -/
theorem correlateToolScope_ok_iff (hnodup : (pool.map fun s => s.1.index).Nodup)
    (hdisj : ∀ a ∈ free pool, a.facts ≠ r.facts) :
    correlateToolScope cls canWrite pool r = .ok pool' ↔
      Correlates canWrite (free pool) r ∧ pool' = consume (fun a => a.index == r.index) pool := by
  by_cases hex : ∃ a ∈ free pool, a.index = r.index
  · obtain ⟨a, ha, hi⟩ := hex
    have hfind := find_index_eq hnodup (mem_free.mp ha) hi
    have honly : ∀ b ∈ free pool, b.index = r.index → b = a := by
      intro b hb hbi
      have := find_index_eq hnodup (mem_free.mp hb) hbi
      rw [hfind] at this
      simpa using this.symm
    rw [correlateToolScope_same_index cls canWrite hfind (hdisj a ha)]
    apply and_congr_left
    intro _
    constructor
    · rintro ⟨hr, hc⟩
      refine ⟨hr, .inl ⟨⟨a, ha, hi⟩, ?_⟩⟩
      intro b hb hbi
      rw [honly b hb hbi]
      exact hc
    · rintro ⟨hr, ⟨-, hc⟩ | ⟨hne, -⟩⟩
      · exact ⟨hr, hc a ha hi⟩
      · exact absurd hi (hne a ha).1
  · have hnone : ∀ a ∈ free pool, a.index ≠ r.index := fun a ha hi => hex ⟨a, ha, hi⟩
    have hfind : ∀ a, (pool.find? fun s => s.1.index == r.index) ≠ some (a, false) := by
      intro a h
      have hi : a.index = r.index := by simpa using find?_some h
      exact hnone a (mem_free.mpr (mem_of_find?_eq_some h)) hi
    have hkeep : consume (fun a => a.index == r.index) pool = pool := by
      unfold consume
      rw [takeFirst_eq_none.mpr (by simpa using hnone)]
      rfl
    rw [correlateToolScope_other_index cls canWrite hfind hdisj, hkeep]
    apply and_congr_left
    intro _
    constructor
    · rintro ⟨hr, hc, hw⟩
      exact ⟨hr, .inr ⟨fun a ha => ⟨hnone a ha, hc a ha⟩, hw⟩⟩
    · rintro ⟨hr, ⟨hi, -⟩ | ⟨hne, hw⟩⟩
      · exact absurd hi hex
      · exact ⟨hr, fun a ha => (hne a ha).2, hw⟩

/-! ## The loop and the verdict -/

/-- The scopes at whose index none of `rs` sits. -/
def unclaimed (rs : List ToolCallScope) : List ToolCallScope :=
  accepted.filter fun a => rs.all fun r => r.index != a.index

variable {accepted rs : List ToolCallScope}

lemma mem_unclaimed : a ∈ unclaimed accepted rs ↔ a ∈ accepted ∧ ∀ r ∈ rs, r.index ≠ a.index := by
  simp [unclaimed]

lemma eraseP_index_eq_unclaimed (hnodup : (accepted.map index).Nodup) (r : ToolCallScope) :
    accepted.eraseP (fun a => a.index == r.index) = unclaimed accepted [r] := by
  induction accepted with
  | nil => rfl
  | cons a rest ih =>
  rw [map_cons, nodup_cons] at hnodup
  by_cases hi : a.index = r.index
  · have hrest : ∀ b ∈ rest, r.index ≠ b.index := by
      intro b hb hbi
      apply hnodup.1
      rw [hi, hbi]
      exact mem_map_of_mem hb
    symm
    simpa [unclaimed, hi] using hrest
  have hi' : ¬ r.index = a.index := fun h => hi h.symm
  rw [eraseP_cons_of_neg (by simpa using hi), ih hnodup.2]
  simp [unclaimed, hi']

lemma nodup_free (hnodup : (pool.map fun s => s.1.index).Nodup) :
    ((free pool).map index).Nodup := by
  have hsub : ((free pool).map index).Sublist (pool.map fun s => s.1.index) := by
    unfold free
    rw [map_map]
    exact filter_sublist.map _
  exact hnodup.sublist hsub

lemma nodup_consume (p : ToolCallScope → Bool) (hnodup : (pool.map fun s => s.1.index).Nodup) :
    ((consume p pool).map fun s => s.1.index).Nodup := by
  have hfst := congrArg (map index) (map_fst_consume p pool)
  rw [map_map, map_map] at hfst
  exact hfst ▸ hnodup

lemma correlateToolScopes_cons : correlateToolScopes cls canWrite pool (r :: rs) = .ok pool' ↔
      ∃ pool₁, correlateToolScope cls canWrite pool r = .ok pool₁ ∧
        correlateToolScopes cls canWrite pool₁ rs = .ok pool' := by
  rw [correlateToolScopes]
  cases correlateToolScope cls canWrite pool r with
  | error e | ok pool₁ => simp

/-- **The whole loop.**  It succeeds with everything still free satisfying `P`
exactly when each returned scope correlates against what the earlier ones
left unclaimed, and what nobody claims satisfies `P`. -/
theorem correlateToolScopes_ok_iff (hnodup : (pool.map fun s => s.1.index).Nodup)
    (hdisj : ∀ r ∈ rs, ∀ a ∈ free pool, a.facts ≠ r.facts) (P : List ToolCallScope → Prop) :
    (∃ pool', correlateToolScopes cls canWrite pool rs = .ok pool' ∧ P (free pool')) ↔
      (∀ pre r post, rs = pre ++ r :: post → Correlates canWrite (unclaimed (free pool) pre) r) ∧
        P (unclaimed (free pool) rs) := by
  induction rs generalizing pool with
  | nil => simp [correlateToolScopes, unclaimed]
  | cons r rs ih =>
  have hstep : ∀ pool₁, correlateToolScope cls canWrite pool r = .ok pool₁ ↔ _ :=
    fun pool₁ => correlateToolScope_ok_iff cls canWrite hnodup (hdisj r (by simp))
  have hfree := free_consume (fun a => a.index == r.index) pool
  rw [eraseP_index_eq_unclaimed (nodup_free hnodup)] at hfree
  have hrest := ih (nodup_consume (fun a => a.index == r.index) hnodup) (by
    intro r' hr' a ha
    rw [hfree] at ha
    exact hdisj r' (by simp [hr']) a (mem_unclaimed.mp ha).1)
  have hcons : ∀ pre, unclaimed (free pool) (r :: pre) =
      unclaimed (free (consume (fun a => a.index == r.index) pool)) pre := by
    rw [hfree]
    simp [unclaimed, Bool.and_comm]
  have hnil : unclaimed (free pool) [] = free pool := by simp [unclaimed]
  rw [Splits.forall_split_cons, hnil, and_assoc]
  simp only [hcons]
  rw [← hrest]
  constructor
  · rintro ⟨pool', hrun, hP⟩
    obtain ⟨pool₁, hs, hrun⟩ := (correlateToolScopes_cons cls canWrite).mp hrun
    obtain ⟨hcorr, rfl⟩ := (hstep _).mp hs
    exact ⟨hcorr, pool', hrun, hP⟩
  · rintro ⟨hcorr, pool', hrun, hP⟩
    have hs := (hstep _).mpr ⟨hcorr, rfl⟩
    exact ⟨pool', (correlateToolScopes_cons cls canWrite).mpr ⟨_, hs, hrun⟩, hP⟩

lemma checkSuppressedScopes_ok_iff {scopes : List ToolCallScope} :
    checkSuppressedScopes canWrite scopes = .ok () ↔
      ∀ a ∈ scopes, a.signature ≠ "" → canWrite streamWriteGrant = true := by
  induction scopes with
  | nil => simp [checkSuppressedScopes]
  | cons a rest ih =>
  by_cases ha : a.signature = ""
  · simp [checkSuppressedScopes, ha, ih]
  by_cases hw : canWrite streamWriteGrant = true
  · simp [checkSuppressedScopes, hw, ih]
  · simp [checkSuppressedScopes, ha, hw]

variable {returned : List ToolCallScope}

lemma verifyToolScopes_eq_ok : verifyToolScopes cls accepted returned canWrite = .ok () ↔
      ∃ pool', correlateToolScopes cls canWrite
          (exactPass sameFacts (fresh accepted) returned).1 (unreproduced returned accepted) =
            .ok pool' ∧ checkSuppressedScopes canWrite (free pool') = .ok () := by
  simp only [verifyToolScopes, free_exactPass_sameFacts_requests]
  cases correlateToolScopes cls canWrite (exactPass sameFacts (fresh accepted) returned).1
      (unreproduced returned accepted) with
  | error e | ok pool' => simp

/-- The verdict in terms of the two sides' unreproduced scopes. -/
structure Accepts (accepted returned : List ToolCallScope) : Prop where
  /-- Every returned scope without an exact match is unsigned. -/
  unsigned : ∀ r ∈ unreproduced returned accepted, r.signature = ""
  /-- One that sits at an accepted scope's index has other content. -/
  rewritten : ∀ r ∈ unreproduced returned accepted, ∀ a ∈ unreproduced accepted returned,
    a.index = r.index → a.covered ≠ r.covered
  /-- One that sits nowhere is invented under the grant, and no scope with its
      content is unclaimed when its turn comes. -/
  invented : ∀ pre r post, unreproduced returned accepted = pre ++ r :: post →
    (∀ a ∈ unreproduced accepted returned, a.index ≠ r.index) →
      canWrite streamWriteGrant = true ∧
        ∀ a ∈ unreproduced accepted returned, a.covered = r.covered →
          ∃ r' ∈ pre, r'.index = a.index
  /-- A signed scope that nobody sits on is suppressed under the grant. -/
  suppressed : ∀ a ∈ unreproduced accepted returned, a.signature ≠ "" →
    (∃ r ∈ unreproduced returned accepted, r.index = a.index) ∨
      canWrite streamWriteGrant = true

/-- **Exact characterisation of `verifyToolScopes`** on streams that never
reuse an index. -/
theorem verifyToolScopes_ok_iff (hacc : (accepted.map index).Nodup)
    (hret : (returned.map index).Nodup) : verifyToolScopes cls accepted returned canWrite = .ok () ↔
      Accepts canWrite accepted returned := by
  have hnodup : ((exactPass sameFacts (fresh accepted) returned).1.map
      fun s => s.1.index).Nodup := by
    have hfst := congrArg (map index)
      (map_fst_exactPass sameFacts (fresh accepted) returned)
    simp only [map_map, fresh] at hfst
    have hsame : (exactPass sameFacts (fresh accepted) returned).1.map (fun s => s.1.index) =
        accepted.map index := hfst
    rw [hsame]
    exact hacc
  rw [verifyToolScopes_eq_ok,
    correlateToolScopes_ok_iff cls canWrite hnodup (fun _ hr _ => exactPass_facts_ne hr)
      (fun scopes => checkSuppressedScopes canWrite scopes = .ok ()),
    free_exactPass_sameFacts, checkSuppressedScopes_ok_iff]
  have hidx : ∀ pre r post, unreproduced returned accepted = pre ++ r :: post →
      ∀ r' ∈ pre, r'.index ≠ r.index := by
    intro pre r post hsplit r' hr' heq
    have hnd := hret.sublist ((unreproduced_sublist returned accepted).map index)
    rw [hsplit, map_append, nodup_append] at hnd
    exact hnd.2.2 _ (mem_map_of_mem hr') _ (by simp) heq
  constructor
  · rintro ⟨hcorr, hsup⟩
    have hmem : ∀ r ∈ unreproduced returned accepted, ∃ pre post,
        unreproduced returned accepted = pre ++ r :: post ∧
          Correlates canWrite (unclaimed (unreproduced accepted returned) pre) r := by
      intro r hr
      obtain ⟨pre, post, hsplit⟩ := append_of_mem hr
      exact ⟨pre, post, hsplit, hcorr pre r post hsplit⟩
    refine ⟨?_, ?_, ?_, ?_⟩
    · intro r hr
      obtain ⟨_, _, _, h⟩ := hmem r hr
      exact h.1
    · intro r hr a ha hi
      obtain ⟨pre, post, hsplit, -, hcase⟩ := hmem r hr
      have hfree : a ∈ unclaimed (unreproduced accepted returned) pre :=
        mem_unclaimed.mpr ⟨ha, fun r' hr' => hi ▸ hidx pre r post hsplit r' hr'⟩
      rcases hcase with ⟨-, hc⟩ | ⟨hne, -⟩
      · exact hc a hfree hi
      · exact (hne a hfree).2
    · intro pre r post hsplit hnone
      obtain ⟨-, ⟨⟨a, ha, hi⟩, -⟩ | ⟨hne, hw⟩⟩ := hcorr pre r post hsplit
      · exact absurd hi (hnone a (mem_unclaimed.mp ha).1)
      · refine ⟨hw, ?_⟩
        intro a ha hc
        by_contra hcon
        push Not at hcon
        exact (hne a (mem_unclaimed.mpr ⟨ha, hcon⟩)).2 hc
    · intro a ha hsig
      by_cases hclaimed : ∃ r ∈ unreproduced returned accepted, r.index = a.index
      · exact .inl hclaimed
      · push Not at hclaimed
        exact .inr (hsup a (mem_unclaimed.mpr ⟨ha, hclaimed⟩) hsig)
  · intro h
    constructor
    · intro pre r post hsplit
      have hr := mem_iff_append.mpr ⟨pre, post, hsplit⟩
      refine ⟨h.unsigned r hr, ?_⟩
      by_cases hex : ∃ a ∈ unreproduced accepted returned, a.index = r.index
      · obtain ⟨a, ha, hi⟩ := hex
        refine .inl ⟨⟨a, mem_unclaimed.mpr ⟨ha, ?_⟩, hi⟩, ?_⟩
        · exact fun r' hr' => hi ▸ hidx pre r post hsplit r' hr'
        · exact fun b hb hbi => h.rewritten r hr b (mem_unclaimed.mp hb).1 hbi
      push Not at hex
      obtain ⟨hw, hcopy⟩ := h.invented pre r post hsplit hex
      refine .inr ⟨?_, hw⟩
      intro a ha
      obtain ⟨ha, hun⟩ := mem_unclaimed.mp ha
      refine ⟨hex a ha, ?_⟩
      intro hc
      obtain ⟨r', hr', hi'⟩ := hcopy a ha hc
      exact hun r' hr' hi'
    · intro a ha hsig
      obtain ⟨ha, hun⟩ := mem_unclaimed.mp ha
      rcases h.suppressed a ha hsig with ⟨r, hr, hi⟩ | hw
      · exact absurd hi (hun r hr)
      · exact hw

/-! ## No minted scope -/

lemma correlateToolScope_unsigned (hdisj : ∀ a ∈ free pool, a.facts ≠ r.facts)
    (h : correlateToolScope cls canWrite pool r = .ok pool') :
    r.signature = "" ∧ ∀ a ∈ free pool', a ∈ free pool := by
  by_cases hex : ∃ a, (pool.find? fun s => s.1.index == r.index) = some (a, false)
  · obtain ⟨a, hfind⟩ := hex
    have ha : a ∈ free pool := mem_free.mpr (mem_of_find?_eq_some hfind)
    obtain ⟨⟨hr, -⟩, rfl⟩ := (correlateToolScope_same_index cls canWrite hfind (hdisj a ha)).mp h
    refine ⟨hr, ?_⟩
    intro b hb
    rw [free_consume] at hb
    exact mem_of_mem_eraseP hb
  obtain ⟨⟨hr, -⟩, rfl⟩ :=
    (correlateToolScope_other_index cls canWrite (not_exists.mp hex) hdisj).mp h
  exact ⟨hr, fun b hb => hb⟩

lemma correlateToolScopes_unsigned (hdisj : ∀ r ∈ rs, ∀ a ∈ free pool, a.facts ≠ r.facts)
    (h : correlateToolScopes cls canWrite pool rs = .ok pool') : ∀ r ∈ rs, r.signature = "" := by
  induction rs generalizing pool with
  | nil => simp
  | cons r rs ih =>
  obtain ⟨pool₁, hs, h⟩ := (correlateToolScopes_cons cls canWrite).mp h
  obtain ⟨hr, hsub⟩ := correlateToolScope_unsigned cls canWrite (hdisj r (by simp)) hs
  rw [forall_mem_cons]
  exact ⟨hr, ih (fun r' hr' a ha => hdisj r' (by simp [hr']) a (hsub a ha)) h⟩

lemma tally_signedFacts (token : String) (c : CoveredCall) (scopes : List ToolCallScope) :
    tally signedFacts (token, c) scopes =
      if token = "" then 0 else tally facts (token, c) scopes := by
  induction scopes with
  | nil => simp
  | cons s rest ih =>
  rw [tally_cons, ih]
  by_cases htok : token = ""
  · subst htok
    by_cases hs : s.signature = "" <;> simp [signedFacts, hs]
  · by_cases hs : s.signature = "" <;> simp [signedFacts, facts, htok, hs]

/-- **No grant mints a tool scope**: the signed facts of the returned scopes
are a sub-multiset of the accepted ones. -/
theorem signedFacts_le_of_verifyToolScopes
    (h : verifyToolScopes cls accepted returned canWrite = .ok ()) :
    keys signedFacts returned ≤ keys signedFacts accepted := by
  obtain ⟨pool', hrun, -⟩ := (verifyToolScopes_eq_ok cls canWrite).mp h
  have hunsigned := correlateToolScopes_unsigned cls canWrite
    (fun _ hr _ => exactPass_facts_ne hr) hrun
  rw [keys_le_iff]
  rintro ⟨token, c⟩
  rw [tally_signedFacts, tally_signedFacts]
  by_cases htok : token = ""
  · simp [htok]
  rw [if_neg htok, if_neg htok]
  by_contra hlt
  obtain ⟨r, hr, hsig, -⟩ := exists_unreproduced_iff.mpr (Nat.lt_of_not_le hlt)
  exact htok (hsig ▸ hunsigned r hr)

/-! ## Stripped tokens and the order of the returned blocks

A returned scope may copy the content of a signed accepted scope without
its token.  The loop notices only if it compares the two, which it does not
when the copy sits on another unreproduced scope's index, or when an earlier
returned scope sits on the index of the scope it copies. -/

/-- `returned` holds more unsigned scopes with content `c` than `accepted`. -/
def Surplus (accepted returned : List ToolCallScope) (c : CoveredCall) : Prop :=
  tally facts ("", c) accepted < tally facts ("", c) returned

/-- Where unsigned copies of a content are in surplus, every signed accepted
scope with that content is reproduced with its token. -/
def NoStrip (accepted returned : List ToolCallScope) : Prop :=
  ∀ c, Surplus accepted returned c → ∀ token, token ≠ "" →
    tally facts (token, c) accepted ≤ tally facts (token, c) returned

/-- Some unreproduced returned scope has the content of a signed accepted one
and is hidden from it: it sits on an unreproduced accepted index, or an
unreproduced returned scope before it sits on the signed scope's index. -/
def Shadowed (accepted returned : List ToolCallScope) : Prop :=
  ∃ pre r post, unreproduced returned accepted = pre ++ r :: post ∧
    ∃ a ∈ unreproduced accepted returned, a.signature ≠ "" ∧ a.covered = r.covered ∧
      ((∃ b ∈ unreproduced accepted returned, b.index = r.index) ∨ ∃ r' ∈ pre, r'.index = a.index)

/-- Without the topology grant no block may count as invented or suppressed,
in whatever order the blocks come: every surplus unsigned scope sits on an
unreproduced accepted index, and every unreproduced signed scope has an
unsigned scope on its index whose content no accepted scope carries
unsigned. -/
structure Seated (accepted returned : List ToolCallScope) : Prop where
  copies : ∀ r ∈ returned, r.signature = "" → Surplus accepted returned r.covered →
    ∃ a ∈ unreproduced accepted returned, a.index = r.index
  signed : ∀ a ∈ unreproduced accepted returned, a.signature ≠ "" →
    ∃ r ∈ returned, r.index = a.index ∧ r.signature = "" ∧
      tally facts ("", r.covered) accepted = 0

variable {returned' : List ToolCallScope}

lemma surplus_perm {c : CoveredCall}
    (h : returned'.Perm returned) : Surplus accepted returned' c ↔ Surplus accepted returned c := by
  unfold Surplus
  rw [tally_perm h]

lemma unreproduced_perm (h : returned'.Perm returned) :
    unreproduced accepted returned' = unreproduced accepted returned := by
  unfold unreproduced
  rw [sameFacts_eq_hits]
  exact leftover_perm h accepted

/-- An unsigned returned scope in surplus can be made an unreproduced one by
emitting it last. -/
lemma mem_unreproduced_concat
    (hr : r ∈ returned) (hsig : r.signature = "") (hsur : Surplus accepted returned r.covered) :
    r ∈ unreproduced (returned.erase r ++ [r]) accepted := by
  have hfacts : r.facts = some ("", r.covered) := by rw [facts, hsig]
  have htally : tally facts ("", r.covered) returned = _ := tally_perm (perm_cons_erase hr)
  rw [tally_cons, if_pos hfacts] at htally
  unfold Surplus at hsur
  unfold unreproduced
  rw [sameFacts_eq_hits, leftover_concat hfacts (by omega)]
  simp

/-- An unsigned returned scope whose facts are on offer is reproduced when it
is emitted first. -/
lemma unreproduced_cons_of_offered {rest : List ToolCallScope}
    (h : ∃ a ∈ accepted, a.facts = r.facts) {x : ToolCallScope}
    (hx : x ∈ unreproduced (r :: rest) accepted) : x ∈ rest := by
  unfold unreproduced at hx
  rw [leftover_cons_of_mem] at hx
  · exact (leftover_sublist _ _ _).subset hx
  · obtain ⟨a, ha, hfacts⟩ := h
    refine ⟨a, ha, ?_⟩
    rw [sameFacts_eq_hits, hits_iff]
    exact ⟨(a.signature, a.covered), rfl, hfacts.symm⟩

/-- A stripped token is always shadowed in an accepted verdict. -/
lemma noStrip_of_accepts
    (h : Accepts canWrite accepted returned) (hshadow : ¬ Shadowed accepted returned) :
    NoStrip accepted returned := by
  intro c hsur token htok
  by_contra hlt
  obtain ⟨r, hr, -, hrc⟩ := exists_unreproduced_iff.mpr hsur
  obtain ⟨a, ha, hat, hac⟩ := exists_unreproduced_iff.mpr (Nat.lt_of_not_le hlt)
  have hsame : a.covered = r.covered := by rw [hac, hrc]
  obtain ⟨pre, post, hsplit⟩ := append_of_mem hr
  apply hshadow
  refine ⟨pre, r, post, hsplit, a, ha, by rw [hat]; exact htok, hsame, ?_⟩
  by_cases hseat : ∃ b ∈ unreproduced accepted returned, b.index = r.index
  · exact .inl hseat
  · push Not at hseat
    exact .inr ((h.invented pre r post hsplit hseat).2 a ha hsame)

/-- Where no token is stripped, unreproduced scopes of the two sides never
share content. -/
lemma covered_ne_of_noStrip (hstrip : NoStrip accepted returned)
    (hunsigned : ∀ r ∈ unreproduced returned accepted, r.signature = "")
    (ha : a ∈ unreproduced accepted returned)
    (hr : r ∈ unreproduced returned accepted) : a.covered ≠ r.covered := by
  intro hc
  have hsig := hunsigned r hr
  have hsur : Surplus accepted returned r.covered := exists_unreproduced_iff.mp ⟨r, hr, hsig, rfl⟩
  by_cases hat : a.signature = ""
  · exact unreproduced_facts_ne ha hr (facts_eq_iff.mpr ⟨by rw [hat, hsig], hc⟩)
  have hle := hstrip r.covered hsur a.signature hat
  have hlt : tally facts (a.signature, r.covered) returned <
      tally facts (a.signature, r.covered) accepted := exists_unreproduced_iff.mp ⟨a, ha, rfl, hc⟩
  omega

lemma noStrip_perm (h : returned'.Perm returned) (hstrip : NoStrip accepted returned) :
    NoStrip accepted returned' := by
  intro c hsur token htok
  rw [tally_perm h]
  exact hstrip c ((surplus_perm h).mp hsur) token htok

/-- With nothing stripped and either the grant or every block seated, any order
of the returned blocks is accepted. -/
lemma accepts_perm (hperm : returned'.Perm returned) (h : Accepts canWrite accepted returned)
    (hstrip : NoStrip accepted returned)
    (hseat : canWrite streamWriteGrant = true ∨ Seated accepted returned) :
    Accepts canWrite accepted returned' := by
  have hunsigned : ∀ r ∈ unreproduced returned' accepted, r.signature = "" := by
    intro r hr
    have hlt : tally facts (r.signature, r.covered) accepted <
        tally facts (r.signature, r.covered) returned := by
      rw [← tally_perm hperm]
      exact exists_unreproduced_iff.mp ⟨r, hr, rfl, rfl⟩
    obtain ⟨r₀, hr₀, hsig, -⟩ := exists_unreproduced_iff.mpr hlt
    rw [← hsig]
    exact h.unsigned r₀ hr₀
  have hdiff : ∀ r ∈ unreproduced returned' accepted, ∀ a ∈ unreproduced accepted returned',
      a.covered ≠ r.covered := fun r hr a ha =>
    covered_ne_of_noStrip (noStrip_perm hperm hstrip) hunsigned ha hr
  refine ⟨hunsigned, fun r hr a ha _ => hdiff r hr a ha, ?_, ?_⟩
  · intro pre r post hsplit hnone
    have hr := mem_iff_append.mpr ⟨pre, post, hsplit⟩
    refine ⟨?_, fun a ha hc => absurd hc (hdiff r hr a ha)⟩
    rcases hseat with hw | hseat
    · exact hw
    -- a seated block is never invented
    have hmem : r ∈ returned := hperm.mem_iff.mp ((unreproduced_sublist _ _).subset hr)
    have hsur : Surplus accepted returned r.covered :=
      (surplus_perm hperm).mp (exists_unreproduced_iff.mp ⟨r, hr, hunsigned r hr, rfl⟩)
    obtain ⟨a, ha, hi⟩ := hseat.copies r hmem (hunsigned r hr) hsur
    rw [unreproduced_perm hperm] at hnone
    exact absurd hi (hnone a ha)
  · intro a ha hsig
    rcases hseat with hw | hseat
    · exact .inr hw
    rw [unreproduced_perm hperm] at ha
    obtain ⟨r, hr, hi, hrsig, hzero⟩ := hseat.signed a ha hsig
    refine .inl ⟨r, ?_, hi⟩
    apply mem_leftover_of_forall_not (hperm.mem_iff.mpr hr)
    intro b hb
    rw [Bool.eq_false_iff]
    intro hmatch
    -- an accepted scope with these facts would be counted
    rw [sameFacts_eq_hits, hits_iff] at hmatch
    obtain ⟨k, hkb, hkr⟩ := hmatch
    have hpos : 0 < tally facts ("", r.covered) accepted := by
      apply tally_pos_iff.mpr
      refine ⟨b, hb, ?_⟩
      rw [hkb, ← hkr, facts, hrsig]
    omega

/-- An order-free verdict without the grant has every block seated. -/
lemma seated_of_accepts_perm (hret : (returned.map index).Nodup)
    (hw : canWrite streamWriteGrant ≠ true)
    (h : ∀ returned', returned'.Perm returned → Accepts canWrite accepted returned') :
    Seated accepted returned := by
  constructor
  · intro r hr hsig hsur
    have hperm : (returned.erase r ++ [r]).Perm returned :=
      perm_append_comm.trans (perm_cons_erase hr).symm
    have hlast := h _ hperm
    obtain ⟨pre, post, hsplit⟩ := append_of_mem (mem_unreproduced_concat hr hsig hsur)
    by_contra hnone
    push Not at hnone
    rw [← unreproduced_perm hperm] at hnone
    exact hw (hlast.invented pre r post hsplit hnone).1
  · intro a ha hsig
    have hself := h returned (Perm.refl _)
    rcases hself.suppressed a ha hsig with ⟨r, hr, hi⟩ | hgrant
    · have hmem : r ∈ returned := (unreproduced_sublist _ _).subset hr
      refine ⟨r, hmem, hi, hself.unsigned r hr, ?_⟩
      by_contra hpos
      -- emitted first, `r` would be reproduced and leave `a` without a block
      have hperm : (r :: returned.erase r).Perm returned := (perm_cons_erase hmem).symm
      obtain ⟨b, hb, hfacts⟩ := tally_pos_iff.mp (Nat.pos_of_ne_zero hpos)
      have hoffer : ∃ b ∈ accepted, b.facts = r.facts :=
        ⟨b, hb, by rw [hfacts, facts, hself.unsigned r hr]⟩
      have hfirst := (h _ hperm).suppressed a (by rw [unreproduced_perm hperm]; exact ha) hsig
      rcases hfirst with ⟨r', hr', hi'⟩ | hgrant
      · have hmem' := unreproduced_cons_of_offered hoffer hr'
        have hnd : (r :: returned.erase r).map index |>.Nodup :=
          (hperm.map index).nodup_iff.mpr hret
        rw [map_cons, nodup_cons] at hnd
        apply hnd.1
        rw [hi, ← hi']
        exact mem_map_of_mem hmem'
      · exact hw hgrant
    · exact absurd hgrant hw

/-- **When a surviving content keeps its token, whatever the order.**  Given an
accepted verdict over distinct indexes, no token is stripped and every
order of the returned blocks is accepted exactly when nothing is shadowed
and, without the topology grant, every block is seated. -/
theorem verifyToolScopes_keeps_tokens_iff {accepted returned : List ToolCallScope}
    (hacc : (accepted.map index).Nodup) (hret : (returned.map index).Nodup)
    (h : verifyToolScopes cls accepted returned canWrite = .ok ()) :
    (NoStrip accepted returned ∧ ∀ returned', returned'.Perm returned →
        verifyToolScopes cls accepted returned' canWrite = .ok ()) ↔ ¬ Shadowed accepted returned ∧
        (canWrite streamWriteGrant = true ∨ Seated accepted returned) := by
  have hiff : ∀ returned', returned'.Perm returned →
      (verifyToolScopes cls accepted returned' canWrite = .ok () ↔
        Accepts canWrite accepted returned') := fun returned' hperm =>
    verifyToolScopes_ok_iff cls canWrite hacc ((hperm.map _).nodup_iff.mpr hret)
  have hself := (hiff returned (Perm.refl _)).mp h
  constructor
  · rintro ⟨hstrip, horder⟩
    constructor
    · rintro ⟨pre, r, post, hsplit, a, ha, -, hc, -⟩
      have hr := mem_iff_append.mpr ⟨pre, post, hsplit⟩
      exact covered_ne_of_noStrip hstrip hself.unsigned ha hr hc
    · by_cases hw : canWrite streamWriteGrant = true
      · exact .inl hw
      · exact .inr (seated_of_accepts_perm canWrite hret hw
          fun returned' hperm => (hiff returned' hperm).mp (horder returned' hperm))
  · rintro ⟨hshadow, hseat⟩
    have hstrip := noStrip_of_accepts canWrite hself hshadow
    refine ⟨hstrip, ?_⟩
    intro returned' hperm
    exact (hiff returned' hperm).mpr (accepts_perm canWrite hperm hself hstrip hseat)

end correlation

/-- A function call `lookup` with the given index, token and arguments. -/
def lookupScope (index : Int32) (signature arguments : String) : ToolCallScope where
  index := index
  signature := signature
  id := "call_1"
  name := "lookup"
  kind := .function
  arguments := arguments

/-- A signed call moves to another index, and an unsigned copy of it is added: in
whatever order, the token stays. -/
theorem verifyToolScopes_keeps_tokens_reindexed :
    let accepted := [lookupScope 0 "sig" "x", lookupScope 1 "" "x"]
    let returned := [lookupScope 1 "" "x", lookupScope 4 "" "x", lookupScope 3 "sig" "x"]
    NoStrip accepted returned ∧ ∀ returned', returned'.Perm returned →
      verifyToolScopes standardClassifier accepted returned' (fun _ => true) = .ok () := by
  refine (verifyToolScopes_keeps_tokens_iff standardClassifier _ (by decide) (by decide)
    (by decide)).mpr ⟨?_, .inl rfl⟩
  have hnone : unreproduced [lookupScope 0 "sig" "x", lookupScope 1 "" "x"]
      [lookupScope 1 "" "x", lookupScope 4 "" "x", lookupScope 3 "sig" "x"] = [] := by decide
  rintro ⟨-, -, -, -, a, ha, -⟩
  rw [hnone] at ha
  cases ha

/-- The decoy: a rewritten call at index 0 consumes the signed scope, and its
content survives at index 1 without the token.  Emitted the other way round
the same two blocks are refused. -/
theorem verifyToolScopes_decoy_strips_token :
    verifyToolScopes standardClassifier [lookupScope 0 "sig" "x"]
        [lookupScope 0 "" "decoy", lookupScope 1 "" "x"] grantEverything = .ok () ∧
      ¬ NoStrip [lookupScope 0 "sig" "x"] [lookupScope 0 "" "decoy", lookupScope 1 "" "x"] ∧
      verifyToolScopes standardClassifier [lookupScope 0 "sig" "x"]
        [lookupScope 1 "" "x", lookupScope 0 "" "decoy"] grantEverything ≠ .ok () := by
  refine ⟨by decide, ?_, by decide⟩
  intro h
  have := h (lookupScope 1 "" "x").covered (by unfold Surplus; decide) "sig" (by decide)
  revert this
  decide

end ToranaEdge
