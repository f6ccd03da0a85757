import ToranaEdge.Request.Views

/-! # Tokens over unchanged content

The signature check compares digests of covered content.  When nothing that
a token covers has changed, passing the check leaves only one freedom:
tokens, and whole trailing carriers, may be exchanged between occurrences of
one binding that cover the same content. -/

namespace ToranaEdge

open Framing Reserve Attempt List TokenOccurrence

/-! ## Covered content and its digest -/

def CoveredValue.declared : CoveredValue → CoveredValue
  | .pinnedContent content => .pinnedContent (content.map ToolResultContentBlock.declared)
  | value => value

/-- The occurrences of a binding: token and covered content. -/
def TokenBinding.tokens (b : TokenBinding) (req : ChatRequest) :
    List (String × List CoveredValue) :=
  (req.blocks.filterMap b.select).map fun s => (s.1, s.2.map CoveredValue.declared)

/-- A message's trailing carrier, if any, and the text its token covers. -/
def Message.trailingToken (m : Message) :
    Option RequestTrailingSignatureBlock × List (String × String) :=
  (m.trailing.map fun t => { t with unknown := [] }, m.blocks.filterMap trailRef)

/-- The framing class of a covered field, numbered as in the source. -/
def CoveredValue.refKind : CoveredValue → Nat
  | .plainString _ => 1
  | .plainBytes _ => 2
  | .optionalBool _ => 3
  | .optionalString _ => 4
  | .plainEnum _ => 5
  | .pinnedContent _ => 6

open CoveredValue (declared refKind)

/-- The framing classes of a binding's covered fields. -/
def TokenBinding.refKinds : TokenBinding → List Nat
  | .thinking => [1, 2]
  | .text => [1, 2]
  | .toolUse => [1, 1, 2, 4, 5, 2]
  | .toolResult => [1, 1, 2, 3, 4, 6, 5]
  | .unknown => [1, 2, 2]

variable {b : TokenBinding} {s : String × List CoveredValue} {blk : RequestBlock}
  {content : List ToolResultContentBlock}

lemma TokenBinding.select_refKinds (h : b.select blk = some s) : s.2.map refKind = b.refKinds := by
  obtain ⟨kind, unknown⟩ := blk
  cases kind with
  | none => cases b <;> cases h
  | some kind => cases b <;> cases kind <;> cases h <;> rfl

/-- The only content a token pins is that of its own tool result. -/
lemma TokenBinding.select_pinned (h : b.select blk = some s) (hc : .pinnedContent content ∈ s.2) :
    ∃ result, blk.toolResult = some result ∧ result.content = content := by
  obtain ⟨kind, unknown⟩ := blk
  cases kind with
  | none => cases b <;> cases h
  | some kind =>
    cases b <;> cases kind <;> cases h <;> simp at hc
    exact ⟨_, rfl, hc.symm⟩

/-- A binding finds in the core what it finds in the block, token apart. -/
lemma TokenBinding.select_core (b : TokenBinding) (blk : RequestBlock) :
    (b.select blk.core).map Prod.snd = (b.select blk).map fun s => s.2.map declared := by
  obtain ⟨kind, unknown⟩ := blk
  cases kind with
  | none => cases b <;> rfl
  | some kind => cases b <;> cases kind <;> rfl

section tokens

variable {ext : Externals} {req req' : ChatRequest}

/-- A content one of the two requests has fingerprinted. -/
def Fingerprinted (req req' : ChatRequest) (v : CoveredValue) : Prop :=
  ∀ content, v = .pinnedContent content →
    content ∈ fingerprintedContents req ++ fingerprintedContents req'

lemma CoveredValue.frame_pinned {f : Bytes} (h : (pinnedContent content).frame ext = .ok f) :
    ∃ d, ext.toolResultContentFingerprint content = .ok d ∧ f = framed d.val := by
  rw [frame] at h
  split at h <;> cases h
  next d hfp => exact ⟨d, hfp, rfl⟩

section

variable (hcf : CollisionFree ext req req')
include hcf

/-- A frame is read off the front of a string in one way, up to undeclared
bytes. -/
lemma CoveredValue.frame_inj {v w : CoveredValue}
    (hkind : v.refKind = w.refKind) (hv : Fingerprinted req req' v) (hw : Fingerprinted req req' w)
    {f g s t : Bytes} (hf : v.frame ext = .ok f) (hg : w.frame ext = .ok g)
    (hlen : (f ++ s).length < limit) (h : f ++ s = g ++ t) : v.declared = w.declared ∧ s = t := by
  cases v with
  | plainString a =>
    cases w <;> cases hkind
    cases hf
    cases hg
    obtain ⟨rfl, hst⟩ := readable_text trivial trivial hlen h
    exact ⟨rfl, hst⟩
  | plainBytes a =>
    cases w <;> cases hkind
    cases hf
    cases hg
    obtain ⟨hbytes, hst⟩ := readable_framed trivial trivial hlen h
    rw [sprintBytes_inj hbytes]
    exact ⟨rfl, hst⟩
  | plainEnum a =>
    cases w <;> cases hkind
    cases hf
    cases hg
    obtain ⟨hbytes, hst⟩ := readable_framed trivial trivial hlen h
    rw [ToolInvocationKind.text_inj hbytes]
    exact ⟨rfl, hst⟩
  | optionalBool a =>
    cases w <;> cases hkind
    case optionalBool b =>
      cases hf
      cases hg
      obtain ⟨hpair, hst⟩ := @readable_field 3 (a.isSome, _) (b.isSome, _) s t trivial trivial hlen h
      obtain ⟨hsome, hbytes⟩ := Prod.mk.inj hpair
      have htext := utf8_inj hbytes
      rcases a with _ | _ | _ <;> rcases b with _ | _ | _ <;> simp_all
  | optionalString a =>
    cases w <;> cases hkind
    case optionalString b =>
      cases hf
      cases hg
      obtain ⟨hpair, hst⟩ := @readable_field 4 (a.isSome, _) (b.isSome, _) s t trivial trivial hlen h
      obtain ⟨hsome, hbytes⟩ := Prod.mk.inj hpair
      have htext := utf8_inj hbytes
      cases a <;> cases b <;> simp_all
  | pinnedContent c =>
    cases w <;> cases hkind
    case pinnedContent c' =>
      obtain ⟨d, hd, rfl⟩ := frame_pinned hf
      obtain ⟨d', hd', rfl⟩ := frame_pinned hg
      obtain ⟨hdd, hst⟩ := readable_digest trivial trivial hlen h
      have heq := (hcf.contents c (hv c rfl) c' (hw c' rfl) d d' hd hd').mp hdd
      exact ⟨congrArg pinnedContent heq, hst⟩

/-- Fields with the same declared content are framed alike. -/
lemma CoveredValue.frame_eq {v w : CoveredValue}
    (hv : Fingerprinted req req' v) (hw : Fingerprinted req req' w) {f g : Bytes}
    (hf : v.frame ext = .ok f) (hg : w.frame ext = .ok g) (h : v.declared = w.declared) : f = g := by
  cases v with
  | pinnedContent c =>
    cases w with
    | pinnedContent c' =>
      obtain ⟨d, hd, rfl⟩ := frame_pinned hf
      obtain ⟨d', hd', rfl⟩ := frame_pinned hg
      have hcc : c.map ToolResultContentBlock.declared = c'.map ToolResultContentBlock.declared :=
        pinnedContent.inj h
      rw [(hcf.contents c (hv c rfl) c' (hw c' rfl) d d' hd hd').mpr hcc]
    | _ => cases h
  | _ =>
    cases w <;> cases h
    exact Except.ok.inj (hf.symm.trans hg)

variable {vs ws : List CoveredValue}

lemma coveredPreimage_inj (hkinds : vs.map refKind = ws.map refKind)
    (hvs : ∀ v ∈ vs, Fingerprinted req req' v) (hws : ∀ w ∈ ws, Fingerprinted req req' w)
    {p q : Bytes} (hp : coveredPreimage ext vs = .ok p) (hq : coveredPreimage ext ws = .ok q)
    (hlen : p.length < limit) (h : p = q) : vs.map declared = ws.map declared := by
  obtain ⟨fs, hfs, rfl⟩ := map_eq_ok.mp hp
  obtain ⟨gs, hgs, rfl⟩ := map_eq_ok.mp hq
  replace hfs := mapM_eq_ok.mp hfs
  replace hgs := mapM_eq_ok.mp hgs
  clear hp hq
  have halign := Align.map_eq_iff_forall₂.mp hkinds
  clear hkinds
  induction halign generalizing fs gs with
  | nil => rfl
  | @cons v w vs ws hvw _ ih =>
  cases hfs with
  | cons hf hfs =>
  cases hgs with
  | cons hg hgs =>
  rw [flatten_cons] at hlen
  obtain ⟨hdecl, hrest⟩ := CoveredValue.frame_inj hcf hvw (hvs v (by simp)) (hws w (by simp))
    hf hg hlen h
  rw [length_append] at hlen
  have htail := ih (fun v' hv' => hvs v' (mem_cons_of_mem v hv'))
    (fun w' hw' => hws w' (mem_cons_of_mem w hw')) _ (by omega) _ hrest hfs hgs
  rw [map_cons, map_cons, hdecl, htail]

lemma coveredPreimage_congr
    (hvs : ∀ v ∈ vs, Fingerprinted req req' v) (hws : ∀ w ∈ ws, Fingerprinted req req' w)
    {p q : Bytes} (hp : coveredPreimage ext vs = .ok p) (hq : coveredPreimage ext ws = .ok q)
    (h : vs.map declared = ws.map declared) : p = q := by
  obtain ⟨fs, hfs, rfl⟩ := map_eq_ok.mp hp
  obtain ⟨gs, hgs, rfl⟩ := map_eq_ok.mp hq
  have hframes : fs.map id = gs.map id := by
    refine map_eq_map_of_mapM hfs hgs h ?_
    intro v hv w hw f g hf hg hdecl
    exact CoveredValue.frame_eq hcf (hvs v hv) (hws w hw) hf hg hdecl
  rw [map_id, map_id] at hframes
  rw [hframes]

end

/-! ## Tokens over a block's own fields -/

/-- What a binding selects in a request. -/
def TokenBinding.selected (b : TokenBinding) (req : ChatRequest) :
    List (String × List CoveredValue) :=
  req.blocks.filterMap b.select

variable {p : Bytes} {r : ChatRequest}

/-- What one of the two requests hashes is hashed by them, and short. -/
lemma hashed_of_mem (hin : InMemory ext req) (hin' : InMemory ext req') (hr : r = req ∨ r = req')
    (hp : p ∈ hashedStrings ext r) :
    p ∈ hashedStrings ext req ++ hashedStrings ext req' ∧ p.length < limit := by
  rcases hr with rfl | rfl
  · exact ⟨mem_append_left _ hp, hin.strings p hp⟩
  · exact ⟨mem_append_right _ hp, hin'.strings p hp⟩

lemma TokenBinding.fingerprinted_of_mem (hr : r = req ∨ r = req') (hs : s ∈ b.selected r) :
    ∀ v ∈ s.2, Fingerprinted req req' v := by
  intro v hv content hcontent
  obtain ⟨blk, hblk, hsel⟩ := mem_filterMap.mp hs
  obtain ⟨result, hresult, rfl⟩ := select_pinned hsel (hcontent ▸ hv)
  have hlisted : result.content ∈ fingerprintedContents r :=
    mem_flatMap.mpr ⟨result, mem_filterMap.mpr ⟨blk, hblk, hresult⟩, by simp⟩
  rcases hr with rfl | rfl
  · exact mem_append_left _ hlisted
  · exact mem_append_right _ hlisted

lemma TokenBinding.mem_hashedStrings
    (hs : s ∈ b.selected req) (hp : coveredPreimage ext s.2 = .ok p) :
    p ∈ hashedStrings ext req := by
  have hsel : p ∈ TokenBinding.all.flatMap fun b => (req.blocks.filterMap b.select).filterMap
      fun s => (coveredPreimage ext s.2).toOption := by
    refine mem_flatMap.mpr ⟨b, by cases b <;> simp [all], ?_⟩
    exact mem_filterMap.mpr ⟨s, hs, toOption_eq_some.mpr hp⟩
  simp [hashedStrings, hsel]

lemma TokenBinding.refKinds_of_mem (hs : s ∈ b.selected req) : s.2.map refKind = b.refKinds := by
  obtain ⟨blk, -, hsel⟩ := mem_filterMap.mp hs
  exact select_refKinds hsel

variable {occ : TokenOccurrence}

lemma occurrence_eq_ok (h : b.occurrence ext s = .ok occ) :
    digestBlockFields ext s.2 = .ok occ.digest ∧ occ.token = s.1 := by
  unfold TokenBinding.occurrence at h
  split at h <;> cases h
  next d hd => exact ⟨hd, rfl⟩

variable {occ' : TokenOccurrence}

/-- Occurrences of the two requests are told apart by digest exactly as by
declared content. -/
lemma TokenBinding.digest_eq_iff (hcf : CollisionFree ext req req') (hin : InMemory ext req)
    (hin' : InMemory ext req') {r' : ChatRequest} (hr : r = req ∨ r = req')
    (hr' : r' = req ∨ r' = req') {s s' : String × List CoveredValue} (hs : s ∈ b.selected r)
    (hs' : s' ∈ b.selected r') (hocc : b.occurrence ext s = .ok occ)
    (hocc' : b.occurrence ext s' = .ok occ') :
    occ.digest = occ'.digest ↔ s.2.map declared = s'.2.map declared := by
  obtain ⟨p, hp, hd⟩ := map_eq_ok.mp (occurrence_eq_ok hocc).1
  obtain ⟨p', hp', hd'⟩ := map_eq_ok.mp (occurrence_eq_ok hocc').1
  obtain ⟨hmem, hlen⟩ := hashed_of_mem hin hin' hr (mem_hashedStrings hs hp)
  obtain ⟨hmem', -⟩ := hashed_of_mem hin hin' hr' (mem_hashedStrings hs' hp')
  have hfp := fingerprinted_of_mem hr hs
  have hfp' := fingerprinted_of_mem hr' hs'
  rw [← hd, ← hd']
  constructor
  · intro hsha
    have hkinds := (refKinds_of_mem hs).trans (refKinds_of_mem hs').symm
    exact coveredPreimage_inj hcf hkinds hfp hfp' hp hp' hlen (hcf.strings p hmem p' hmem' hsha)
  · intro hdecl
    rw [coveredPreimage_congr hcf hfp hfp' hp hp' hdecl]

/-- Requests with one core have the same covered contents, in order. -/
lemma TokenBinding.contents_eq (b : TokenBinding)
    (h : req.messages.map Message.core = req'.messages.map Message.core) :
    ((b.selected req).map fun s => s.2.map declared) =
      (b.selected req').map fun s => s.2.map declared := by
  have hcore : ∀ r : ChatRequest, ((b.selected r).map fun s => s.2.map declared) =
      (((r.messages.map Message.core).flatMap Message.blocks).filterMap b.select).map Prod.snd := by
    intro r
    rw [selected, ChatRequest.blocks, filterMap_flatMap, filterMap_flatMap,
      map_flatMap, map_flatMap, flatMap_map]
    congr 1
    funext m
    rw [← filterMap_body m fun _ hb => (trailingBlock_frame hb).2.2.2 b, Message.core, filterMap_map,
      map_filterMap, map_filterMap]
    congr 1
    funext blk
    exact (select_core b blk).symm
  rw [hcore, hcore, h]

/-- Token and digest of an occurrence. -/
def TokenOccurrence.pair (occ : TokenOccurrence) : String × Digest :=
  (occ.token, occ.digest)

lemma signedKey_or_unsignedKey (occ : TokenOccurrence) :
    (occ.token ≠ "" ∧ occ.signedKey = some occ.pair ∧ occ.unsignedKey = none) ∨
      (occ.token = "" ∧ occ.signedKey = none ∧ occ.unsignedKey = some occ.digest) := by
  by_cases h : occ.token = ""
  · exact .inr ⟨h, if_pos h, if_pos h⟩
  · exact .inl ⟨h, if_neg h, if_neg h⟩

/-- The check in terms of what an occurrence is over: if that is the same list on
both sides and can be read off the pair of a signed and the digest of an unsigned
occurrence, the check leaves the pairs as they were. -/
lemma pairs_perm {acc ret : List TokenOccurrence} {text : TokenOccurrence → Digest}
    {content : String × Digest → Digest}
    (hsigned : ∀ occ ∈ acc ++ ret, occ.token ≠ "" → content occ.pair = text occ)
    (hunsigned : ∀ occ ∈ acc ++ ret, occ.token = "" → occ.digest = text occ)
    (htexts : acc.map text = ret.map text) (hle : signedPairs ret ≤ signedPairs acc)
    (hsurplus : ∀ occ ∈ acc, occ.token ≠ "" →
      (unsignedDigests acc).count (text occ) < (unsignedDigests ret).count (text occ) →
      (signedPairs acc).count occ.pair ≤ (signedPairs ret).count occ.pair) :
    (ret.map pair).Perm (acc.map pair) := by
  have hall : ∀ occs : List TokenOccurrence, occs ⊆ acc ++ ret →
      (signedPairs occs).map content + unsignedDigests occs = ↑(occs.map text) := by
    intro occs hoccs
    rw [← Multiset.map_id (unsignedDigests occs)]
    refine map_keys_add_map_keys ?_
    intro occ hocc
    rcases signedKey_or_unsignedKey occ with ⟨hne, hkey, hnone⟩ | ⟨hempty, hnone, hkey⟩
    · exact .inl ⟨_, hkey, hnone, hsigned occ (hoccs hocc) hne⟩
    · exact .inr ⟨_, hnone, hkey, hunsigned occ (hoccs hocc) hempty⟩
  have hpairs : ∀ occs : List TokenOccurrence,
      (signedPairs occs).map id + (unsignedDigests occs).map (fun d => ("", d)) =
        ↑(occs.map pair) := by
    intro occs
    refine map_keys_add_map_keys ?_
    intro occ _
    rcases signedKey_or_unsignedKey occ with ⟨-, hkey, hnone⟩ | ⟨hempty, hnone, hkey⟩
    · exact .inl ⟨_, hkey, hnone, rfl⟩
    · exact .inr ⟨_, hnone, hkey, by rw [pair, hempty]⟩
  have hbalance := (hall acc (subset_append_left _ _)).trans
    ((congrArg _ htexts).trans (hall ret (subset_append_right _ _)).symm)
  obtain ⟨hsame, hsame'⟩ := eq_of_le_of_surplus hbalance hle (by
    rintro ⟨tok, dig⟩ hp hlt
    obtain ⟨occ, hocc, hkey⟩ := mem_filterMap.mp (Multiset.mem_coe.mp hp)
    obtain ⟨hne, rfl, rfl⟩ := signedKey_eq_some.mp hkey
    rw [show content (occ.token, occ.digest) = text occ from
      hsigned occ (mem_append_left _ hocc) hne] at hlt
    exact hsurplus occ hocc hne hlt)
  rw [← Multiset.coe_eq_coe, ← hpairs, ← hpairs, hsame, hsame']

/-- **Tokens are rearranged, not changed.**  When the covered contents of a
binding agree, its check passes only if the same tokens are over the same
contents. -/
theorem TokenBinding.tokens_perm (hcf : CollisionFree ext req req') (hin : InMemory ext req)
    (hin' : InMemory ext req')
    (hcore : req.messages.map Message.core = req'.messages.map Message.core)
    (hok : verifyTokenBinding ext b req req' = .ok ()) : (b.tokens req').Perm (b.tokens req) := by
  obtain ⟨acc, ret, hacc, hret, hle, hcount⟩ := verifyTokenBinding_eq_ok.mp hok
  have hdigests : acc.map digest = ret.map digest := by
    refine map_eq_map_of_mapM hacc hret (b.contents_eq hcore) ?_
    intro s hs s' hs' occ occ' hocc hocc' hdecl
    exact (digest_eq_iff hcf hin hin' (.inl rfl) (.inr rfl) hs hs' hocc hocc').mpr hdecl
  have hperm := @pairs_perm acc ret digest Prod.snd (fun _ _ _ => rfl)
    (fun _ _ _ => rfl) hdigests hle (fun occ _ hne hlt => hcount occ.digest hlt occ.token hne)
  refine map_perm_of_mapM hacc hret hperm ?_
  intro s' hs' s hs occ' occ hocc' hocc hpair
  obtain ⟨htok, hdig⟩ := Prod.mk.inj hpair
  have hdecl := (digest_eq_iff hcf hin hin' (.inr rfl) (.inl rfl) hs' hs hocc' hocc).mp hdig
  rw [← (occurrence_eq_ok hocc').2, ← (occurrence_eq_ok hocc).2, htok, hdecl]

/-! ## Trailing tokens -/

lemma mapM_trailingOccurrence {accs : List (List TokenOccurrence)}
    (h : req.messages.mapM (trailingOccurrences ext) = .ok accs) :
    req.messages.mapM (trailingOccurrence ext) = .ok accs.flatten := by
  have hflat : req.messages.flatMap (fun m => [m]) = req.messages := flatMap_singleton' _
  rw [← hflat, mapM_flatMap_eq_ok]
  exact ⟨accs, h, rfl⟩

variable {m : Message}

lemma trailingOccurrence_absent
    (h : trailingOccurrence ext m = .ok occ) (hnone : m.trailing = none) :
    occ.token = "" ∧ occ.digest = ext.sha256 (trailingRefs m) ∧
      occ.preceding = ext.sha256 (trailingRefs m) ∧ occ.trailAbsent = true := by
  obtain ⟨p, hp, rfl⟩ := map_eq_ok.mp h
  rw [trailingPreimage, hnone] at hp
  cases hp
  simp [hnone]

variable {t : RequestTrailingSignatureBlock}

lemma trailingOccurrence_present (h : trailingOccurrence ext m = .ok occ)
    (hsome : m.trailing = some t) :
    ∃ p, coveredPreimage ext [.plainBytes t.partMetadataJson] = .ok p ∧
      trailingPreimage ext m = .ok (framed (ext.sha256 p).val ++ trailingRefs m) ∧
      occ.token = t.signature ∧
      occ.digest = ext.sha256 (framed (ext.sha256 p).val ++ trailingRefs m) ∧
      occ.preceding = ext.sha256 (trailingRefs m) := by
  obtain ⟨q, hq, rfl⟩ := map_eq_ok.mp h
  have hcase := hq
  rw [trailingPreimage, hsome] at hcase
  dsimp only at hcase
  split at hcase <;> cases hcase
  next own hown =>
  obtain ⟨p, hp, rfl⟩ := map_eq_ok.mp hown
  exact ⟨p, hp, hq, by simp [hsome], rfl, rfl⟩

/-- A message of either request, with what is known of its trailing strings. -/
lemma trailing_string (hin : InMemory ext req) (hin' : InMemory ext req')
    (hm : m ∈ req.messages ++ req'.messages) (hp : p ∈ trailingStrings ext m) :
    p ∈ hashedStrings ext req ++ hashedStrings ext req' ∧ p.length < limit := by
  have hlisted : ∀ r : ChatRequest, m ∈ r.messages → p ∈ hashedStrings ext r := by
    intro r hr
    have hmem : p ∈ r.messages.flatMap (trailingStrings ext) := mem_flatMap.mpr ⟨m, hr, hp⟩
    simp [hashedStrings, hmem]
  rcases mem_append.mp hm with hm | hm
  · exact hashed_of_mem hin hin' (.inl rfl) (hlisted req hm)
  · exact hashed_of_mem hin hin' (.inr rfl) (hlisted req' hm)

lemma mem_trailingStrings_refs (m : Message) : trailingRefs m ∈ trailingStrings ext m := by
  simp [trailingStrings]

lemma mem_trailingStrings_preimage
    (h : trailingPreimage ext m = .ok p) : p ∈ trailingStrings ext m := by
  simp [trailingStrings, h, Except.toOption]

lemma mem_trailingStrings_own
    (ht : m.trailing = some t) (h : coveredPreimage ext [.plainBytes t.partMetadataJson] = .ok p) :
    p ∈ trailingStrings ext m := by
  simp [trailingStrings, ht, h, Except.toOption]

variable {m' : Message}

/-- The written references determine the covered text. -/
lemma trailRefs_eq (hm : m.blocks.length < limit) (hm' : m'.blocks.length < limit)
    (hlen : (trailingRefs m).length < limit) (h : trailingRefs m = trailingRefs m') :
    m.blocks.filterMap trailRef = m'.blocks.filterMap trailRef := by
  have hread : Readable (fun _ => True)
      fun r : String × String => framed (utf8 r.1) ++ framed (utf8 r.2) :=
    (readable_text.append readable_text).comap id (fun _ _ => ⟨trivial, trivial⟩)
      fun _ _ _ _ hab => hab
  have hle := length_filterMap_le trailRef m.blocks
  have hle' := length_filterMap_le trailRef m'.blocks
  exact hread.zipIdx_inj (fun _ _ => trivial) (fun _ _ => trivial) (by omega) (by omega) hlen h

/-- The carrier's own metadata is determined by its digest. -/
lemma metadata_eq {v w : Bytes} {p q : Bytes} (hp : coveredPreimage ext [.plainBytes v] = .ok p)
    (hq : coveredPreimage ext [.plainBytes w] = .ok q) (hlen : p.length < limit) (h : p = q) :
    v = w := by
  have hframe : ∀ u : Bytes, coveredPreimage ext [.plainBytes u] = .ok (framed (sprintBytes u)) := by
    intro u
    show Except.ok (framed (sprintBytes u) ++ []) = _
    rw [append_nil]
  rw [hframe] at hp hq
  cases hp
  cases hq
  exact sprintBytes_inj (readable_framed.injOn trivial trivial hlen h)

lemma trailing_ne_empty (h : emptyTrailingCarrier req = false) (hm : m ∈ req.messages)
    (ht : m.trailing = some t) : t.signature ≠ "" := by
  intro hempty
  have hmem : t ∈ m.blocks.filterMap trailingBlock := mem_of_getLast? ht
  have htrue : emptyTrailingCarrier req = true := by
    unfold emptyTrailingCarrier
    rw [any_eq_true]
    exact ⟨m, hm, any_eq_true.mpr ⟨t, hmem, by simp [hempty]⟩⟩
  cases htrue.symm.trans h

lemma trailingRefs_core (m : Message) : trailingRefs m.core = trailingRefs m := by
  have hcore : ∀ b : RequestBlock, trailRef b.core = trailRef b := by
    rintro ⟨kind, unknown⟩
    cases kind with
    | none => rfl
    | some kind => cases kind <;> rfl
  have hlist : m.core.blocks.filterMap trailRef = m.blocks.filterMap trailRef := by
    rw [← filterMap_body m fun _ hb => (trailingBlock_frame hb).2.2.1, Message.core, filterMap_map]
    congr 1
    funext b
    exact hcore b
  rw [trailingRefs, hlist, trailingRefs]

/-- A trailing occurrence of either request: whose it is, and that it is unsigned
exactly when the carrier is absent. -/
def TrailingOf (ext : Externals) (req req' : ChatRequest) (occ : TokenOccurrence) (m : Message) :
    Prop :=
  m ∈ req.messages ++ req'.messages ∧ trailingOccurrence ext m = .ok occ ∧
    (occ.token = "" ↔ m.trailing = none)

lemma trailingOf_of_mem (hreq : emptyTrailingCarrier req = false)
    (hreq' : emptyTrailingCarrier req' = false) (hm : m ∈ req.messages ++ req'.messages)
    (hocc : trailingOccurrence ext m = .ok occ) : TrailingOf ext req req' occ m := by
  refine ⟨hm, hocc, ?_⟩
  cases ht : m.trailing with
  | none => simp [(trailingOccurrence_absent hocc ht).1]
  | some t =>
  obtain ⟨-, -, -, htok, -⟩ := trailingOccurrence_present hocc ht
  have hne : t.signature ≠ "" := by
    rcases mem_append.mp hm with hm | hm
    · exact trailing_ne_empty hreq hm ht
    · exact trailing_ne_empty hreq' hm ht
  simp [htok, hne]

section

variable (hcf : CollisionFree ext req req') (hin : InMemory ext req) (hin' : InMemory ext req')
include hcf hin hin'

/-- Two signed trailing occurrences with one digest cover the same text and carry
the same metadata. -/
lemma trailing_present_inj (hm : m ∈ req.messages ++ req'.messages)
    (hm' : m' ∈ req.messages ++ req'.messages) {t t' : RequestTrailingSignatureBlock}
    (ht : m.trailing = some t) (ht' : m'.trailing = some t')
    (hocc : trailingOccurrence ext m = .ok occ) (hocc' : trailingOccurrence ext m' = .ok occ')
    (h : occ.digest = occ'.digest) :
    trailingRefs m = trailingRefs m' ∧ t.partMetadataJson = t'.partMetadataJson := by
  obtain ⟨p, hp, hpre, -, hdig, -⟩ := trailingOccurrence_present hocc ht
  obtain ⟨p', hp', hpre', -, hdig', -⟩ := trailingOccurrence_present hocc' ht'
  rw [hdig, hdig'] at h
  obtain ⟨hmem, hlen⟩ := trailing_string hin hin' hm (mem_trailingStrings_preimage hpre)
  obtain ⟨hmem', -⟩ := trailing_string hin hin' hm' (mem_trailingStrings_preimage hpre')
  have hstring := hcf.strings _ hmem _ hmem' h
  obtain ⟨hown, hrefs⟩ := readable_digest trivial trivial hlen hstring
  obtain ⟨hpmem, hplen⟩ := trailing_string hin hin' hm (mem_trailingStrings_own ht hp)
  obtain ⟨hpmem', -⟩ := trailing_string hin hin' hm' (mem_trailingStrings_own ht' hp')
  exact ⟨hrefs, metadata_eq hp hp' hplen (hcf.strings _ hpmem _ hpmem' hown)⟩

/-- The digest of a signed occurrence determines the text before it. -/
lemma TrailingOf.preceding_eq
    (h : TrailingOf ext req req' occ m) (h' : TrailingOf ext req req' occ' m')
    (hs : occ.token ≠ "") (hs' : occ'.token ≠ "") (hdig : occ.digest = occ'.digest) :
    occ.preceding = occ'.preceding := by
  obtain ⟨hm, hocc, htrail⟩ := h
  obtain ⟨hm', hocc', htrail'⟩ := h'
  obtain ⟨t, ht⟩ := Option.ne_none_iff_exists'.mp fun hnone => hs (htrail.mpr hnone)
  obtain ⟨t', ht'⟩ := Option.ne_none_iff_exists'.mp fun hnone => hs' (htrail'.mpr hnone)
  obtain ⟨hrefs, -⟩ := trailing_present_inj hcf hin hin' hm hm' ht ht' hocc hocc' hdig
  obtain ⟨-, -, -, -, -, hpre⟩ := trailingOccurrence_present hocc ht
  obtain ⟨-, -, -, -, -, hpre'⟩ := trailingOccurrence_present hocc' ht'
  rw [hpre, hpre', hrefs]

/-- Occurrences that agree come from carriers and texts that agree. -/
lemma TrailingOf.trailingToken_eq
    (h : TrailingOf ext req req' occ m) (h' : TrailingOf ext req req' occ' m')
    (htok : occ.token = occ'.token) (hdig : occ.digest = occ'.digest) :
    m.trailingToken = m'.trailingToken := by
  obtain ⟨hm, hocc, htrail⟩ := h
  obtain ⟨hm', hocc', htrail'⟩ := h'
  have hsmall : ∀ l ∈ req.messages ++ req'.messages, l.blocks.length < limit := by
    intro l hl
    rcases mem_append.mp hl with hl | hl
    · exact hin.blocks l hl
    · exact hin'.blocks l hl
  obtain ⟨hmem, hlen⟩ := trailing_string hin hin' hm (mem_trailingStrings_refs m)
  obtain ⟨hmem', -⟩ := trailing_string hin hin' hm' (mem_trailingStrings_refs m')
  cases ht : m.trailing with
  | none =>
    have ht' : m'.trailing = none := htrail'.mp (htok ▸ htrail.mpr ht)
    obtain ⟨-, hd, -⟩ := trailingOccurrence_absent hocc ht
    obtain ⟨-, hd', -⟩ := trailingOccurrence_absent hocc' ht'
    have hrefs := hcf.strings _ hmem _ hmem' (hd.symm.trans (hdig.trans hd'))
    rw [Message.trailingToken, Message.trailingToken, ht, ht',
      trailRefs_eq (hsmall m hm) (hsmall m' hm') hlen hrefs]
  | some t =>
  have hne : m'.trailing ≠ none := by
    intro hnone
    have hempty := htrail.mp (htok.trans (htrail'.mpr hnone))
    cases ht.symm.trans hempty
  obtain ⟨t', ht'⟩ := Option.ne_none_iff_exists'.mp hne
  obtain ⟨hrefs, hmeta⟩ := trailing_present_inj hcf hin hin' hm hm' ht ht' hocc hocc' hdig
  obtain ⟨-, -, -, hsig, -⟩ := trailingOccurrence_present hocc ht
  obtain ⟨-, -, -, hsig', -⟩ := trailingOccurrence_present hocc' ht'
  have hsigs : t.signature = t'.signature := by rw [← hsig, ← hsig', htok]
  rw [Message.trailingToken, Message.trailingToken, ht, ht',
    trailRefs_eq (hsmall m hm) (hsmall m' hm') hlen hrefs, Option.map_some, Option.map_some,
    hsigs, hmeta]

/-- What the pair of a signed trailing occurrence says of the text before it. -/
lemma exists_preceding {occs : List TokenOccurrence}
    (hof : ∀ occ ∈ occs, ∃ m, TrailingOf ext req req' occ m) : ∃ content : String × Digest → Digest,
      ∀ occ ∈ occs, occ.token ≠ "" → content occ.pair = occ.preceding := by
  have hfactors : Function.FactorsThrough
      (fun occ : { occ // occ ∈ occs ∧ occ.token ≠ "" } => occ.val.preceding)
      (fun occ => occ.val.pair) := by
    rintro ⟨occ, hocc, hne⟩ ⟨occ', hocc', hne'⟩ hpair
    obtain ⟨m, hm⟩ := hof occ hocc
    obtain ⟨m', hm'⟩ := hof occ' hocc'
    exact hm.preceding_eq hcf hin hin' hm' hne hne' (Prod.mk.inj hpair).2
  have : Nonempty Digest := ⟨zeroDigest⟩
  obtain ⟨content, hcontent⟩ := (Function.factorsThrough_iff _).mp hfactors
  exact ⟨content, fun occ hocc hne => (congrFun hcontent ⟨occ, hocc, hne⟩).symm⟩

/-- **Trailing carriers are rearranged, not changed.** -/
theorem trailingTokens_perm (hcore : req.messages.map Message.core = req'.messages.map Message.core)
    (hok : verifyTrailingBinding ext req req' = .ok ()) :
    (req'.messages.map Message.trailingToken).Perm (req.messages.map Message.trailingToken) := by
  unfold verifyTrailingBinding at hok
  split at hok
  · cases hok
  rename_i hcarriers
  simp only [Bool.or_eq_true, not_or, Bool.not_eq_true] at hcarriers
  obtain ⟨hempty, hempty'⟩ := hcarriers
  obtain ⟨accs, rets, haccs, hrets, hle, hstrip⟩ := verifyOccurrences_ok_iff.mp hok
  have hacc := mapM_trailingOccurrence haccs
  have hret := mapM_trailingOccurrence hrets
  generalize accs.flatten = acc at hacc hle hstrip
  generalize rets.flatten = ret at hret hle hstrip
  have hof : ∀ occ ∈ acc ++ ret, ∃ m, TrailingOf ext req req' occ m := by
    intro occ hocc
    rcases mem_append.mp hocc with hocc | hocc
    · obtain ⟨m, hm, ho⟩ := exists_of_mem_mapM hacc hocc
      exact ⟨m, trailingOf_of_mem hempty hempty' (mem_append_left _ hm) ho⟩
    · obtain ⟨m, hm, ho⟩ := exists_of_mem_mapM hret hocc
      exact ⟨m, trailingOf_of_mem hempty hempty' (mem_append_right _ hm) ho⟩
  obtain ⟨content, hcontent⟩ := exists_preceding hcf hin hin' hof
  have hbare : ∀ occ ∈ acc ++ ret, occ.token = "" →
      occ.digest = occ.preceding ∧ occ.trailAbsent = true := by
    intro occ hocc htok
    obtain ⟨m, -, ho, htrail⟩ := hof occ hocc
    obtain ⟨-, hd, hp, ha⟩ := trailingOccurrence_absent ho (htrail.mp htok)
    exact ⟨hd.trans hp.symm, ha⟩
  -- the texts before the carriers agree position by position
  have htexts : acc.map preceding = ret.map preceding := by
    refine map_eq_map_of_mapM hacc hret hcore ?_
    intro m _ m' _ occ occ' hocc hocc' hcores
    obtain ⟨p, -, rfl⟩ := map_eq_ok.mp hocc
    obtain ⟨p', -, rfl⟩ := map_eq_ok.mp hocc'
    rw [← trailingRefs_core m, hcores, trailingRefs_core]
  have hperm : (ret.map pair).Perm (acc.map pair) := by
    refine pairs_perm hcontent (fun occ hocc htok => (hbare occ hocc htok).1) htexts hle ?_
    intro occ hocc hne hlt
    by_contra hlost
    -- a carrier over this text was lost, and one more message over it has none
    obtain ⟨r, hr, hrd⟩ := exists_mem_surplusUnsigned_iff.mpr hlt
    obtain ⟨a, ha, hatok, hadig⟩ := (exists_mem_unconsumed_iff hne).mpr (Nat.lt_of_not_le hlost)
    obtain ⟨hrmem, hrtok⟩ := mem_filter.mp hr
    have hrret : r ∈ ret := (leftover_sublist _ _ _).subset hrmem
    obtain ⟨hrpre, hrabs⟩ := hbare r (mem_append_right _ hrret) (by simpa using hrtok)
    have haacc : a ∈ acc := mem_of_mem_filter ((leftover_sublist _ _ _).subset ha)
    have hpair : a.pair = occ.pair := Prod.ext hatok hadig
    have hapre : a.preceding = occ.preceding := by
      rw [← hcontent a (mem_append_left _ haacc) (token_ne_of_mem_unconsumed ha), hpair,
        hcontent occ (mem_append_left _ hocc) hne]
    have hno := hstrip r hr a ha
    rw [strips, hrabs, hapre, ← hrpre, hrd] at hno
    simp at hno
  -- so the same occurrences are there, and each tells its carrier
  refine map_perm_of_mapM hacc hret hperm ?_
  intro m' hm' m hm occ' occ hocc' hocc hpair
  obtain ⟨htok, hdig⟩ := Prod.mk.inj hpair
  have hof' := trailingOf_of_mem hempty hempty' (mem_append_right _ hm') hocc'
  have hof := trailingOf_of_mem hempty hempty' (mem_append_left _ hm) hocc
  exact hof'.trailingToken_eq hcf hin hin' hof htok hdig

end

end tokens

end ToranaEdge
