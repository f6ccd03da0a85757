import ToranaEdge.Request.Sections

/-! # What the section digests determine

Each section of a request is written to a hasher as a byte string.  This
file shows that the strings are unambiguous: equal strings come from equal
sections.  Together with hashing that does not collide on the strings of the
two requests at hand, equal digests mean equal sections.

Two conditions are stated here once.  `CollisionFree` is the cryptographic
assumption, about the strings and records that are actually hashed.
`InMemory` says that the requests are objects of a real address space, which
keeps 64-bit lengths and indices exact. -/

namespace ToranaEdge

open Framing Attempt RequestBlock CacheCarrier ToolDef ToolResultContentBlock ChatRequest
open List hiding beq_eq_decide

/-! ## Declared content

The part of a record its schema knows. -/

def ToolResultContentKind.declared : ToolResultContentKind → ToolResultContentKind
  | .text b => .text { b with unknown := [] }
  | .unknown b => .unknown { b with unknown := [] }
  | .cacheBreakpoint b => .cacheBreakpoint { b with unknown := [] }

def ToolResultContentBlock.declared (c : ToolResultContentBlock) : ToolResultContentBlock :=
  { kind := c.kind.map ToolResultContentKind.declared }

def RequestBlockKind.declared : RequestBlockKind → RequestBlockKind
  | .text b => .text { b with unknown := [] }
  | .thinking b => .thinking { b with unknown := [] }
  | .redactedThinking b => .redactedThinking { b with unknown := [] }
  | .toolUse b => .toolUse { b with unknown := [] }
  | .toolResult b =>
    .toolResult { b with content := b.content.map ToolResultContentBlock.declared, unknown := [] }
  | .cacheBreakpoint b => .cacheBreakpoint { b with unknown := [] }
  | .unknown b => .unknown { b with unknown := [] }
  | .trailingSignature b => .trailingSignature { b with unknown := [] }
  | .refusal b => .refusal { b with unknown := [] }

def RequestBlock.declared (b : RequestBlock) : RequestBlock :=
  { kind := b.kind.map RequestBlockKind.declared }

def Message.declared (m : Message) : Message :=
  { role := m.role, blocks := m.blocks.map RequestBlock.declared }

def OutputFormat.declared (f : OutputFormat) : OutputFormat :=
  { f with unknown := [] }

def ToolDef.declared (t : ToolDef) : ToolDef :=
  { t with unknown := [] }

/-! ## What is assumed of hashing and of sizes -/

/-- The strings hashed for the trailing binding of a message. -/
def trailingStrings (ext : Externals) (m : Message) : List Bytes :=
  trailingRefs m :: ((trailingPreimage ext m).toOption.toList ++
    m.trailing.toList.filterMap fun t =>
      (coveredPreimage ext [.plainBytes t.partMetadataJson]).toOption)

/-- Every string that verification hashes for a request. -/
def hashedStrings (ext : Externals) (req : ChatRequest) : List Bytes :=
  (req.messages.filterMap fun m => (messagePreimage ext m).toOption) ++
  ((roleEntries ext req).toOption.toList.flatMap fun es =>
    es.map fun e => rolePreimage es e.role) ++
  [cacheControlPreimage req, toolResultsPreimage req, toolErrorsPreimage req, toolsPreimage req,
    modelPreimage req] ++
  (toolContentPreimage ext req).toOption.toList ++
  (paramsPreimage ext req).toOption.toList ++
  (TokenBinding.all.flatMap fun b => (req.blocks.filterMap b.select).filterMap fun s =>
    (coveredPreimage ext s.2).toOption) ++
  req.messages.flatMap (trailingStrings ext)

variable (req : ChatRequest)

/-- Every tool-result content the SDK fingerprints for a request: as it is, under
its token, and masked, in the content section. -/
def fingerprintedContents : List (List ToolResultContentBlock) :=
  req.toolResults.flatMap fun result => [result.content, maskedContent result.content]

/-- **Collision freedom on what is hashed.**  SHA-256, the SDK's fingerprints and
deterministic marshalling tell apart what two requests make them hash, up to
bytes no schema declares (which the content fingerprint does not see at
all); and no string of theirs hashes to the all-zero
array, which is how a missing role reads. -/
structure CollisionFree (ext : Externals) (req req' : ChatRequest) : Prop where
  strings : ∀ p ∈ hashedStrings ext req ++ hashedStrings ext req',
    ∀ q ∈ hashedStrings ext req ++ hashedStrings ext req', ext.sha256 p = ext.sha256 q → p = q
  nonzero : ∀ p ∈ hashedStrings ext req ++ hashedStrings ext req', ext.sha256 p ≠ zeroDigest
  bodies : ∀ m ∈ req.messages, ∀ m' ∈ req'.messages, ∀ s,
    ext.requestBlocksFingerprint (roleViewMessage m) = .ok s →
    ext.requestBlocksFingerprint (roleViewMessage m') = .ok s →
    (roleViewMessage m).declared = (roleViewMessage m').declared
  contents : ∀ c ∈ fingerprintedContents req ++ fingerprintedContents req',
    ∀ c' ∈ fingerprintedContents req ++ fingerprintedContents req', ∀ d d',
    ext.toolResultContentFingerprint c = .ok d → ext.toolResultContentFingerprint c' = .ok d' →
    (d = d' ↔ c.map ToolResultContentBlock.declared = c'.map ToolResultContentBlock.declared)
  outputFormats : ∀ f ∈ req.outputFormat, ∀ f' ∈ req'.outputFormat, ∀ b,
    ext.marshalOutputFormat f = .ok b → ext.marshalOutputFormat f' = .ok b →
    f.declared = f'.declared

/-- **Sizes of a real address space**: no list and no hashed string of the
request reaches `limit`. -/
structure InMemory (ext : Externals) (req : ChatRequest) : Prop where
  strings : ∀ p ∈ hashedStrings ext req, p.length < limit
  messages : req.messages.length < limit
  blocks : ∀ m ∈ req.messages, m.blocks.length < limit
  contents : ∀ result ∈ req.toolResults, result.content.length < limit
  results : req.toolResults.length < limit
  tools : req.tools.length < limit
  namespaces : ∀ t ∈ req.tools, t.namespacePath.length < limit
  stops : req.stopSequences.length < limit

/-! ## Unambiguous records -/

lemma readable_text : Readable (fun _ => True) fun s : String => framed (utf8 s) :=
  readable_framed.of_injective fun _ _ => utf8_inj

lemma readable_set (tag : UInt8) : Readable (fun _ => True) (field tag true) :=
  (readable_field tag).of_injective (f := fun v => (true, v)) fun _ _ h => (Prod.mk.inj h).2

lemma readable_digest : Readable (fun _ => True) fun d : Digest => framed d.val :=
  readable_framed.of_injective Subtype.val_injective

lemma boolByte_inj {a b : Bool} (h : boolByte a = boolByte b) : a = b := by
  cases a <;> cases b <;> simp [boolByte] at h ⊢

lemma readable_boolByte : Readable (fun _ => True) fun b : Bool => framed (boolByte b) :=
  readable_framed.of_injective fun _ _ => boolByte_inj

lemma readable_optOf {α : Type} {enc : α → Bytes} (h : Function.Injective enc) (tag : UInt8) :
    Readable (fun _ => True) fun x : Option α => optField tag (x.map enc) :=
  (readable_optField tag).of_injective (Option.map_injective h)

/-- Entries of one role are told apart by index and digest. -/
lemma readable_roleEntry (role : String) :
    Readable (fun e : RoleEntry => e.role = role ∧ e.index < limit) RoleEntry.encode := by
  refine (readable_framedNat.append readable_digest).comap
    (fun e : RoleEntry => (e.index, e.digest)) (fun e he => ⟨he.2, trivial⟩) ?_
  rintro ⟨r, i, d⟩ ⟨r', i', d'⟩ ⟨hr, -⟩ ⟨hr', -⟩ h
  obtain ⟨hi, hd⟩ := Prod.mk.inj h
  simp only at hr hr' hi hd
  rw [hr, hr', hi, hd]

lemma RoleEntry.encode_ne_nil (e : RoleEntry) : e.encode ≠ [] := by
  simp [encode, framed_ne_nil]

/-- The indices of a carrier are exact. -/
def CacheCarrier.Small : CacheCarrier → Prop
  | .block i bi _ => i < limit ∧ bi < limit
  | .nested i bi ci _ => i < limit ∧ bi < limit ∧ ci < limit
  | .tool i _ => i < limit

lemma encode_ne_nil (c : CacheCarrier) : c.encode ≠ [] := by
  cases c <;> simp [encode, framedNat, framed_ne_nil]

/-- A frame of eight bytes never starts like a field whose tag is not 8. -/
lemma framedNat_append_ne_field {n : Nat} {tag : UInt8} {present : Bool} {value s t : Bytes}
    (htag : tag ≠ 8) : framedNat n ++ s ≠ field tag present value ++ t := by
  intro h
  simp only [framedNat, framed, field, le64, leBytes, cons_append, cons.injEq] at h
  exact htag h.1.symm

/-- The indices, the tag and the marker a carrier is written as. -/
def CacheCarrier.parts : CacheCarrier → List Nat × UInt8 × Bytes
  | .block i bi marker => ([i, bi], 1, marker)
  | .nested i bi ci marker => ([i, bi, ci], 2, marker)
  | .tool i marker => ([i], 3, marker)

lemma parts_inj {c c' : CacheCarrier} (h : c.parts = c'.parts) : c = c' := by
  cases c <;> cases c' <;> simp_all [parts]

/-- Indices up to a field: the field's tag is not the length of an index. -/
lemma readable_indices :
    Readable (fun x : List Nat × UInt8 × Bytes => (∀ i ∈ x.1, i < limit) ∧ x.2.1 ≠ 8)
      fun x => x.1.flatMap framedNat ++ field x.2.1 true x.2.2 := by
  rintro ⟨is, tag, v⟩ ⟨is', tag', v'⟩ s t ⟨his, htag⟩ ⟨his', htag'⟩ hlen h
  simp only [append_assoc] at h hlen
  obtain ⟨rfl, hrest⟩ := readable_framedNat.flatMap_end his his' hlen
    (fun _ _ _ heq => framedNat_append_ne_field htag heq.symm)
    (fun _ _ _ heq => framedNat_append_ne_field htag' heq.symm) h
  have htags : tag = tag' := (cons.inj hrest).1
  subst htags
  rw [length_append] at hlen
  obtain ⟨rfl, hst⟩ := readable_set tag trivial trivial (by omega) hrest
  exact ⟨rfl, hst⟩

lemma readable_cacheCarrier : Readable CacheCarrier.Small encode := by
  have hencode : encode =
      fun c => c.parts.1.flatMap framedNat ++ field c.parts.2.1 true c.parts.2.2 := by
    funext c
    cases c <;> simp [encode, parts]
  rw [hencode]
  refine readable_indices.comap parts ?_ fun _ _ _ _ => parts_inj
  intro c hc
  cases c <;> simp_all [CacheCarrier.Small, parts]

lemma readable_textPlace :
    Readable (fun p : TextPlace => p.message < limit ∧ p.block < limit ∧ p.item < limit)
      TextPlace.encode := by
  have htext : Readable (fun _ => True) fun s : String => field 1 true (utf8 s) :=
    (readable_set 1).of_injective fun _ _ => utf8_inj
  refine (readable_framedNat.append (readable_framedNat.append
    (readable_framedNat.append htext))).comap
      (fun p : TextPlace => (p.message, p.block, p.item, p.text))
      (fun p hp => ⟨hp.1, hp.2.1, hp.2.2, trivial⟩) ?_
  rintro ⟨i, bi, ci, s⟩ ⟨i', bi', ci', s'⟩ - - h
  obtain ⟨rfl, rfl, rfl, rfl⟩ := h
  rfl

lemma TextPlace.encode_ne_nil (p : TextPlace) : p.encode ≠ [] := by
  simp [encode, framedNat, framed_ne_nil]

/-- A tool definition without its cache marker, which has a section of its own. -/
def ToolDef.unmarked (t : ToolDef) : ToolDef :=
  { t with cacheControlJson := [], unknown := [] }

lemma readable_toolRecord : Readable (fun t : ToolDef => t.cacheControlJson = [] ∧ t.unknown = [] ∧
      t.namespacePath.length < limit) toolRecord := by
  have hkind : Readable (fun _ => True) fun k : ToolInvocationKind => framed k.sprint :=
    readable_framed.of_injective fun _ _ => ToolInvocationKind.sprint_inj
  refine (readable_text.append (readable_text.append (readable_framed.append
    (readable_boolByte.append (hkind.append (readable_framed.append
      readable_text.counted)))))).comap
    (fun t : ToolDef => (t.name, t.description, t.parametersJson, t.strict, t.invocationKind,
      t.inputFormatJson, t.namespacePath))
    (fun t ht => ⟨trivial, trivial, trivial, trivial, trivial, trivial, ht.2.2,
      fun _ _ => trivial⟩) ?_
  rintro ⟨n, d, p, s, c, k, f, ns, u⟩ ⟨n', d', p', s', c', k', f', ns', u'⟩ ⟨hc, hu, -⟩
    ⟨hc', hu', -⟩ h
  simp only [Prod.mk.injEq] at h hc hu hc' hu'
  obtain ⟨rfl, rfl, rfl, rfl, rfl, rfl, rfl⟩ := h
  rw [hc, hc', hu, hu']

/-! ## Places

The cache and text sections pin what they record to absolute places. -/

/-- The block at an absolute place. -/
def ChatRequest.blockAt (i bi : Nat) : Option RequestBlock :=
  req.messages[i]?.bind fun m => m.blocks[bi]?

/-- The nested element at an absolute place. -/
def ChatRequest.itemAt (i bi ci : Nat) : Option ToolResultContentBlock :=
  ((req.blockAt i bi).bind RequestBlock.toolResult).bind fun result => result.content[ci]?

variable {b : RequestBlock} {result : RequestToolResultBlock}

lemma cacheMarker_of_toolResult (h : b.toolResult = some result) : b.cacheMarker = none := by
  unfold toolResult at h
  split at h
  · rfl
  · cases h

variable {marker : Bytes} {i bi ci : Nat}

lemma mem_blockCarriers {c : CacheCarrier} : c ∈ blockCarriers i bi b ↔
    (∃ marker, b.cacheMarker = some marker ∧ c = block i bi marker) ∨
      ∃ result, b.toolResult = some result ∧ ∃ ci item marker, result.content[ci]? = some item ∧
        item.cacheMarker = some marker ∧ c = nested i bi ci marker := by
  unfold blockCarriers
  cases hresult : b.toolResult with
  | none => cases b.cacheMarker <;> simp
  | some result =>
    simp [cacheMarker_of_toolResult hresult, mem_zipIdx_iff_getElem?, eq_comm (b := c)]
    grind

variable {req : ChatRequest}

/-- What is collected from the blocks comes from a block at its place. -/
lemma mem_flatMap_blocks {α : Type} {f : Nat → Nat → RequestBlock → List α} {x : α} :
    (x ∈ req.messages.zipIdx.flatMap fun m => m.1.blocks.zipIdx.flatMap fun b => f m.2 b.2 b.1) ↔
      ∃ i bi b, req.blockAt i bi = some b ∧ x ∈ f i bi b := by
  simp only [mem_flatMap, Prod.exists, mem_zipIdx_iff_getElem?, blockAt, Option.bind_eq_some_iff]
  constructor
  · rintro ⟨m, i, hm, b, bi, hb, hx⟩
    exact ⟨i, bi, b, ⟨m, hm, hb⟩, hx⟩
  · rintro ⟨i, bi, b, ⟨m, hm, hb⟩, hx⟩
    exact ⟨m, i, hm, b, bi, hb, hx⟩

lemma mem_cacheCarriers {c : CacheCarrier} : c ∈ cacheCarriers req ↔
    (∃ i bi b, req.blockAt i bi = some b ∧ c ∈ blockCarriers i bi b) ∨
      c ∈ req.tools.zipIdx.filterMap toolCarrier := by
  rw [cacheCarriers, mem_append, mem_flatMap_blocks]

lemma mem_cacheCarriers_block : block i bi marker ∈ cacheCarriers req ↔
      (req.blockAt i bi).bind cacheMarker = some marker := by
  simp [mem_cacheCarriers, toolCarrier, mem_blockCarriers, Option.bind_eq_some_iff]

lemma mem_cacheCarriers_nested : nested i bi ci marker ∈ cacheCarriers req ↔
      (req.itemAt i bi ci).bind cacheMarker = some marker := by
  simp [mem_cacheCarriers, toolCarrier, mem_blockCarriers, itemAt, Option.bind_eq_some_iff]
  grind

lemma mem_cacheCarriers_tool : tool i marker ∈ cacheCarriers req ↔
      marker ≠ [] ∧ req.tools[i]?.map cacheControlJson = some marker := by
  simp [mem_cacheCarriers, toolCarrier, mem_blockCarriers, mem_zipIdx_iff_getElem?]
  grind

lemma mem_toolTexts {p : TextPlace} : p ∈ toolTexts req ↔
      (req.itemAt p.message p.block p.item).bind textValue = some p.text := by
  obtain ⟨i, bi, ci, s⟩ := p
  have hblock : ∀ {i' bi' b}, ⟨i, bi, ci, s⟩ ∈ blockTexts i' bi' b ↔ i' = i ∧ bi' = bi ∧
      ∃ result, b.toolResult = some result ∧ ∃ item, result.content[ci]? = some item ∧
        item.textValue = some s := by
    intro i' bi' b
    unfold blockTexts
    cases b.toolResult with
    | none => simp
    | some result =>
      simp [mem_zipIdx_iff_getElem?]
      grind
  rw [toolTexts, mem_flatMap_blocks]
  simp [hblock, itemAt, Option.bind_eq_some_iff]
  grind

/-! ## Sizes of places -/

variable {ext : Externals}

lemma InMemory.blockAt (h : InMemory ext req) (hb : req.blockAt i bi = some b) :
    i < limit ∧ bi < limit := by
  obtain ⟨m, hm, hb⟩ := Option.bind_eq_some_iff.mp hb
  have hi := (List.getElem?_eq_some_iff.mp hm).1
  have hbi := (List.getElem?_eq_some_iff.mp hb).1
  have hmessages := h.messages
  have hblocks := h.blocks m (mem_of_getElem? hm)
  omega

lemma mem_toolResults_of_blockAt (hb : req.blockAt i bi = some b)
    (hr : b.toolResult = some result) : result ∈ req.toolResults := by
  obtain ⟨m, hm, hb⟩ := Option.bind_eq_some_iff.mp hb
  have hmem : b ∈ req.blocks := mem_flatMap.mpr ⟨m, mem_of_getElem? hm, mem_of_getElem? hb⟩
  exact mem_filterMap.mpr ⟨b, hmem, hr⟩

lemma InMemory.itemAt (h : InMemory ext req) {c : ToolResultContentBlock}
    (hc : req.itemAt i bi ci = some c) : i < limit ∧ bi < limit ∧ ci < limit := by
  obtain ⟨r, hr, hc⟩ := Option.bind_eq_some_iff.mp hc
  obtain ⟨b, hb, hr⟩ := Option.bind_eq_some_iff.mp hr
  obtain ⟨hi, hbi⟩ := h.blockAt hb
  have hci := (List.getElem?_eq_some_iff.mp hc).1
  have hcontent := h.contents r (mem_toolResults_of_blockAt hb hr)
  omega

lemma InMemory.cacheCarriers (h : InMemory ext req) : ∀ c ∈ cacheCarriers req, c.Small := by
  intro c hc
  cases c with
  | block i bi marker =>
    obtain ⟨b, hb, -⟩ := Option.bind_eq_some_iff.mp (mem_cacheCarriers_block.mp hc)
    exact h.blockAt hb
  | nested i bi ci marker =>
    obtain ⟨c, hc, -⟩ := Option.bind_eq_some_iff.mp (mem_cacheCarriers_nested.mp hc)
    exact h.itemAt hc
  | tool i marker =>
  obtain ⟨t, ht, -⟩ := Option.map_eq_some_iff.mp (mem_cacheCarriers_tool.mp hc).2
  have hi := (List.getElem?_eq_some_iff.mp ht).1
  have htools := h.tools
  show i < limit
  omega

lemma InMemory.toolTexts (h : InMemory ext req) :
    ∀ p ∈ toolTexts req, p.message < limit ∧ p.block < limit ∧ p.item < limit := by
  intro p hp
  obtain ⟨c, hc, -⟩ := Option.bind_eq_some_iff.mp (mem_toolTexts.mp hp)
  exact h.itemAt hc

/-! ## Equal digests, equal sections -/

section sections

variable {ext : Externals} {req req' : ChatRequest}

variable {p : Bytes}

lemma mem_hashedStrings_message {m : Message} (hm : m ∈ req.messages)
    (hp : messagePreimage ext m = .ok p) : p ∈ hashedStrings ext req := by
  have hmem : p ∈ req.messages.filterMap fun m => (messagePreimage ext m).toOption :=
    mem_filterMap.mpr ⟨m, hm, toOption_eq_some.mpr hp⟩
  simp [hashedStrings, hmem]

variable {entries : List RoleEntry} {role : String}

lemma mem_hashedStrings_role (hentries : roleEntries ext req = .ok entries)
    (hrole : role ∈ entries.map RoleEntry.role) :
    rolePreimage entries role ∈ hashedStrings ext req := by
  obtain ⟨e, he, rfl⟩ := mem_map.mp hrole
  have hmem : rolePreimage entries e.role ∈ (roleEntries ext req).toOption.toList.flatMap fun es =>
      es.map fun e => rolePreimage es e.role := by
    rw [hentries]
    simpa [Except.toOption] using ⟨e, he, rfl⟩
  simp [hashedStrings, hmem]

lemma mem_hashedStrings_checked
    (hp : toolContentPreimage ext req = .ok p ∨ paramsPreimage ext req = .ok p) :
    p ∈ hashedStrings ext req := by
  rcases hp with hp | hp <;> simp [hashedStrings, hp, Except.toOption]

lemma CollisionFree.string_inj (h : CollisionFree ext req req') (hin : InMemory ext req)
    {p q : Bytes} (hp : p ∈ hashedStrings ext req) (hq : q ∈ hashedStrings ext req')
    (heq : ext.sha256 p = ext.sha256 q) : p = q ∧ p.length < limit :=
  ⟨h.strings p (mem_append_left _ hp) q (mem_append_right _ hq) heq, hin.strings p hp⟩

section

variable (hcf : CollisionFree ext req req')
include hcf

section

variable (hin : InMemory ext req)
include hin

/-- A section that hashes a string from which what it was written from can be read. -/
lemma section_iff {α : Type} {preimage : ChatRequest → Bytes} (view : ChatRequest → α)
    (string : α → Bytes) (hmem : ∀ r, preimage r ∈ [cacheControlPreimage r, toolResultsPreimage r,
      toolErrorsPreimage r, toolsPreimage r, modelPreimage r])
    (hpre : ∀ r, preimage r = string (view r))
    (hread : (string (view req)).length < limit → string (view req) = string (view req') →
      view req = view req') :
    ext.sha256 (preimage req) = ext.sha256 (preimage req') ↔ view req = view req' := by
  have hhashed : ∀ r, preimage r ∈ hashedStrings ext r := by
    intro r
    simp only [hashedStrings, mem_append, hmem r, true_or, or_true]
  constructor
  · intro h
    obtain ⟨heq, hlen⟩ := hcf.string_inj hin (hhashed req) (hhashed req') h
    rw [hpre] at hlen
    rw [hpre, hpre] at heq
    exact hread hlen heq
  · intro h
    rw [hpre, hpre, h]

/-- Equal cache sections: the same markers at the same places. -/
lemma cacheControl_eq_iff (hin' : InMemory ext req') :
    ext.sha256 (cacheControlPreimage req) = ext.sha256 (cacheControlPreimage req') ↔
      cacheCarriers req = cacheCarriers req' := section_iff hcf hin _ _ (by simp) (fun _ => rfl)
    (readable_cacheCarrier.flatMap_inj encode_ne_nil hin.cacheCarriers hin'.cacheCarriers)

/-- Equal text sections: the same tool-result texts at the same places. -/
lemma toolResults_eq_iff (hin' : InMemory ext req') :
    ext.sha256 (toolResultsPreimage req) = ext.sha256 (toolResultsPreimage req') ↔
      toolTexts req = toolTexts req' := section_iff hcf hin _ _ (by simp) (fun _ => rfl)
    (readable_textPlace.flatMap_inj TextPlace.encode_ne_nil hin.toolTexts hin'.toolTexts)

/-- Equal error sections: the same error flags in encounter order. -/
lemma toolErrors_eq_iff :
    ext.sha256 (toolErrorsPreimage req) = ext.sha256 (toolErrorsPreimage req') ↔
      req.toolResults.map RequestToolResultBlock.isError =
        req'.toolResults.map RequestToolResultBlock.isError := by
  refine section_iff hcf hin (fun r => r.toolResults.map RequestToolResultBlock.isError) _
    (by simp) (fun r => ?_) ((readable_optOf (fun _ _ => boolByte_inj) 1).flatMap_inj
      (fun _ => field_ne_nil _ _ _) (fun _ _ => trivial) fun _ _ => trivial)
  rw [toolErrorsPreimage, flatMap_map]

/-- Equal tool sections: the same definitions, cache markers apart. -/
lemma tools_eq_iff (hin' : InMemory ext req') :
    ext.sha256 (toolsPreimage req) = ext.sha256 (toolsPreimage req') ↔
      req.tools.map unmarked = req'.tools.map unmarked := by
  have hdom : ∀ r : ChatRequest, InMemory ext r → (r.tools.map unmarked).length < limit ∧
      ∀ t ∈ r.tools.map unmarked, t.cacheControlJson = [] ∧ t.unknown = [] ∧
        t.namespacePath.length < limit := by
    intro r hr
    refine ⟨by simpa using hr.tools, ?_⟩
    intro t ht
    obtain ⟨t₀, ht₀, rfl⟩ := mem_map.mp ht
    exact ⟨rfl, rfl, hr.namespaces t₀ ht₀⟩
  refine section_iff hcf hin (fun r => r.tools.map unmarked) _ (by simp) (fun r => ?_)
    (readable_toolRecord.counted.injOn (hdom req hin) (hdom req' hin'))
  rw [toolsPreimage, counted, counted, length_map, flatMap_map]
  rfl

lemma model_eq_iff :
    ext.sha256 (modelPreimage req) = ext.sha256 (modelPreimage req') ↔ req.model = req'.model :=
  section_iff hcf hin _ (fun m => framed (utf8 m)) (by simp) (fun _ => rfl)
    (readable_text.injOn trivial trivial)

end

end

lemma maskedDigest_eq_ok {r : RequestToolResultBlock} {d : Digest}
    (h : maskedDigest ext r = .ok d) :
    ext.toolResultContentFingerprint (maskedContent r.content) = .ok d := by
  unfold maskedDigest at h
  split at h <;> cases h
  next d' hd' => exact hd'

/-- Equal content sections: the same masked content, in encounter order. -/
lemma toolContent_eq_iff (hcf : CollisionFree ext req req') (hin : InMemory ext req)
    (hin' : InMemory ext req') {p p' : Bytes} (hp : toolContentPreimage ext req = .ok p)
    (hp' : toolContentPreimage ext req' = .ok p') : ext.sha256 p = ext.sha256 p' ↔
    (req.toolResults.map fun r => (maskedContent r.content).map ToolResultContentBlock.declared) =
      req'.toolResults.map fun r =>
        (maskedContent r.content).map ToolResultContentBlock.declared := by
  have hstring := hcf.string_inj hin (mem_hashedStrings_checked (.inl hp))
    (mem_hashedStrings_checked (.inl hp'))
  obtain ⟨ds, hds, rfl⟩ := map_eq_ok.mp hp
  obtain ⟨ds', hds', rfl⟩ := map_eq_ok.mp hp'
  have hcontent := fun r hr r' hr' d d' hd hd' =>
    hcf.contents (maskedContent r.content) (mem_append_left _ (mem_flatMap.mpr ⟨r, hr, by simp⟩))
      (maskedContent r'.content) (mem_append_right _ (mem_flatMap.mpr ⟨r', hr', by simp⟩)) d d'
      (maskedDigest_eq_ok hd) (maskedDigest_eq_ok hd')
  constructor
  swap
  · intro h
    have hdigests : ds.map id = ds'.map id := map_eq_map_of_mapM hds hds' h
      fun r hr r' hr' d d' hd hd' => (hcontent r hr r' hr' d d' hd hd').mpr
    rw [map_id, map_id] at hdigests
    rw [hdigests]
  intro h
  obtain ⟨heq, hlen⟩ := hstring h
  have hsmall : ∀ {r : ChatRequest} {l : List Digest}, InMemory ext r →
      r.toolResults.mapM (maskedDigest ext) = .ok l → l.length < limit := by
    intro r l hr hl
    rw [← (mapM_eq_ok.mp hl).length_eq]
    exact hr.results
  -- the string determines the digests, and each digest its masked content
  have hdigests := readable_digest.zipIdx_inj (fun _ _ => trivial) (fun _ _ => trivial)
    (hsmall hin hds) (hsmall hin' hds') hlen heq
  subst hdigests
  exact map_eq_map_of_mapM_eq hds hds' fun r hr r' hr' d hd hd' =>
    (hcontent r hr r' hr' d d hd hd').mp rfl

lemma readable_optWord (tag : UInt8) :
    Readable (fun _ => True) fun x : Option UInt64 => optField tag (x.map fun v => le64 v.toNat) := by
  refine readable_optOf (fun v w hvw => ?_) tag
  exact UInt64.toNat_inj.mp (le64_inj v.toNat_lt w.toNat_lt hvw)

lemma readable_maxTokens (tag : UInt8) : Readable (fun _ => True)
      fun x : Option Int32 => optField tag (x.map fun v => le64 v.toUInt32.toNat) := by
  refine readable_optOf (fun v w hvw => ?_) tag
  have hv := v.toUInt32.toNat_lt
  have hw := w.toUInt32.toNat_lt
  have hword : v.toUInt32 = w.toUInt32 := UInt32.toNat_inj.mp (le64_inj (by omega) (by omega) hvw)
  exact Int32.toBitVec_inj.mp (congrArg UInt32.toBitVec hword)

/-- Equal encodings of the output formats: the same formats, as far as an
encoding tells. -/
lemma map_outputFormat_eq {α : Type} {key : OutputFormat → α}
    (hkey : ∀ f ∈ req.outputFormat, ∀ f' ∈ req'.outputFormat, ∀ b,
      ext.marshalOutputFormat f = .ok b → ext.marshalOutputFormat f' = .ok b → key f = key f')
    {format : Option Bytes} (h : encodedOutputFormat ext req = .ok format)
    (h' : encodedOutputFormat ext req' = .ok format) :
    req.outputFormat.map key = req'.outputFormat.map key := by
  unfold encodedOutputFormat at h h'
  split at h <;> split at h'
  · next hf _ hf' => rw [hf, hf']
  · cases h
    obtain ⟨b, -, hb⟩ := map_eq_ok.mp h'
    cases hb
  · cases h'
    obtain ⟨b, -, hb⟩ := map_eq_ok.mp h
    cases hb
  · next f hf _ f' hf' =>
    obtain ⟨b, hb, rfl⟩ := map_eq_ok.mp h
    obtain ⟨b', hb', heq⟩ := map_eq_ok.mp h'
    cases heq
    rw [hf, hf', Option.map_some, Option.map_some, hkey f hf f' hf' b hb hb']

/-- Equal parameter sections: the same parameters. -/
lemma params_eq_iff (hcf : CollisionFree ext req req') (hin : InMemory ext req)
    (hin' : InMemory ext req') {p p' : Bytes} (hp : paramsPreimage ext req = .ok p)
    (hp' : paramsPreimage ext req' = .ok p') : ext.sha256 p = ext.sha256 p' ↔
    req.maxTokens = req'.maxTokens ∧ req.temperature = req'.temperature ∧
      req.topP = req'.topP ∧ req.stream = req'.stream ∧
      req.providerExtensionsJson = req'.providerExtensionsJson ∧
      req.safetySettingsJson = req'.safetySettingsJson ∧ req.stopSequences = req'.stopSequences ∧
      encodedOutputFormat ext req = encodedOutputFormat ext req' := by
  constructor
  swap
  · rintro ⟨hmax, htemp, htop, hstr, hext, hsafe, hstops, hformat⟩
    rw [paramsPreimage, hmax, htemp, htop, hstr, hext, hsafe, hstops, hformat, ← paramsPreimage,
      hp'] at hp
    rw [Except.ok.inj hp]
  intro h
  obtain ⟨heq, hlen⟩ := hcf.string_inj hin (mem_hashedStrings_checked (.inr hp))
    (mem_hashedStrings_checked (.inr hp')) h
  obtain ⟨format, hformat, rfl⟩ := map_eq_ok.mp hp
  obtain ⟨format', hformat', rfl⟩ := map_eq_ok.mp hp'
  have hstream : Readable (fun _ => True) fun b : Bool => field 4 true (boolByte b) :=
    (readable_set 4).of_injective fun _ _ => boolByte_inj
  -- the six leading fields, then the stop sequences up to the end
  have hread := (readable_maxTokens 1).append ((readable_optWord 2).append
    ((readable_optWord 3).append (hstream.append ((readable_set 5).append (readable_set 6)))))
  have hstep := @hread
    (req.maxTokens, req.temperature, req.topP, req.stream, req.providerExtensionsJson,
      req.safetySettingsJson)
    (req'.maxTokens, req'.temperature, req'.topP, req'.stream, req'.providerExtensionsJson,
      req'.safetySettingsJson)
    (7 :: stopFrames req.stopSequences format) (7 :: stopFrames req'.stopSequences format')
    (by simp) (by simp) (by simpa only [append_assoc] using hlen) (by simpa using heq)
  obtain ⟨hfields, hrest⟩ := hstep
  simp only [Prod.mk.injEq] at hfields
  obtain ⟨hmax, htemp, htop, hstr, hext, hsafe⟩ := hfields
  rw [cons.injEq] at hrest
  have hframes : ∀ (r : ChatRequest) (f : Option Bytes), stopFrames r.stopSequences f =
      (r.stopSequences.map utf8).flatMap framed ++
        (framedNat r.stopSequences.length ++ optField 8 f) := by
    intro r f
    rw [stopFrames, flatMap_map]
  have hsize : (stopFrames req.stopSequences format).length < limit := by
    simp only [length_append, length_cons] at hlen
    omega
  rw [hframes] at hsize
  rw [hframes, hframes] at hrest
  obtain ⟨hstops, hfmt⟩ := frames_count_field_inj hin.stops hin'.stops hsize hrest.2
  refine ⟨hmax, htemp, htop, hstr, hext, hsafe, ?_, ?_⟩
  · exact map_injective_iff.mpr (fun _ _ => utf8_inj) hstops
  · rw [hformat, hformat', hfmt]

/-! ## Message sections -/

lemma lookup_roleSums (entries : List RoleEntry) (role : String) :
    (roleSums ext entries).lookup role =
      if role ∈ entries.map RoleEntry.role then some (ext.sha256 (rolePreimage entries role))
      else none := by
  have hlist : ∀ roles : List String,
      (roles.map fun r => (r, ext.sha256 (rolePreimage entries r))).lookup role =
        if role ∈ roles then some (ext.sha256 (rolePreimage entries role)) else none := by
    intro roles
    induction roles with
    | nil => rfl
    | cons r roles ih =>
    by_cases hr : role = r
    · subst hr
      simp
    have hbeq : (role == r) = false := by simpa using hr
    rw [map_cons, lookup_cons, hbeq, ih]
    simp [hr]
  rw [roleSums, hlist]
  simp

/-- Entries carry their position. -/
lemma map_index_roleEntries (h : roleEntries ext req = .ok entries) :
    entries.map RoleEntry.index = range entries.length := by
  have hindex := map_eq_of_mapM (g := RoleEntry.index) (h := Prod.snd) h (by
    intro m e he
    obtain ⟨d, -, rfl⟩ := map_eq_ok.mp he
    rfl)
  have hlength := (mapM_eq_ok.mp h).length_eq
  rw [hindex, zipIdx_map_snd, ← hlength, length_zipIdx, range_eq_range']

lemma map_fst_zipIdx (req : ChatRequest) :
    (req.messages.zipIdx.map fun m => (roleViewMessage m.1).declared) =
      req.messages.map fun m => (roleViewMessage m).declared := by
  conv_rhs => rw [← zipIdx_map_fst 0 req.messages]
  rw [map_map]
  rfl

lemma rolePreimage_of_not_mem (h : role ∉ entries.map RoleEntry.role) :
    rolePreimage entries role = [] := by
  have hnil : entries.filter (fun e => e.role == role) = [] := by
    rw [filter_eq_nil_iff]
    intro e he hrole
    exact h (mem_map.mpr ⟨e, he, by simpa using hrole⟩)
  rw [rolePreimage, hnil]
  rfl

/-- Equal role sums for every role: the same messages under the role view.  A
role of one request only would have to hash to the zero array. -/
lemma roleViews_eq (hcf : CollisionFree ext req req') (hin : InMemory ext req)
    (hin' : InMemory ext req') {entries entries' : List RoleEntry}
    (hentries : roleEntries ext req = .ok entries) (hentries' : roleEntries ext req' = .ok entries')
    (h : ∀ role, ((roleSums ext entries).lookup role).getD zeroDigest =
      ((roleSums ext entries').lookup role).getD zeroDigest) :
    (req.messages.map fun m => (roleViewMessage m).declared) =
      req'.messages.map fun m => (roleViewMessage m).declared := by
  have hpre : ∀ role, rolePreimage entries role = rolePreimage entries' role := by
    intro role
    have hsum := h role
    rw [lookup_roleSums, lookup_roleSums] at hsum
    by_cases hr : role ∈ entries.map RoleEntry.role <;>
      by_cases hr' : role ∈ entries'.map RoleEntry.role
    · rw [if_pos hr, if_pos hr'] at hsum
      exact (hcf.string_inj hin (mem_hashedStrings_role hentries hr)
        (mem_hashedStrings_role hentries' hr') hsum).1
    · rw [if_pos hr, if_neg hr'] at hsum
      exact absurd hsum
        (hcf.nonzero _ (mem_append_left _ (mem_hashedStrings_role hentries hr)))
    · rw [if_neg hr, if_pos hr'] at hsum
      exact absurd hsum.symm
        (hcf.nonzero _ (mem_append_right _ (mem_hashedStrings_role hentries' hr')))
    · rw [rolePreimage_of_not_mem hr, rolePreimage_of_not_mem hr']
  have hsmall : ∀ {r : ChatRequest} {es : List RoleEntry}, InMemory ext r →
      roleEntries ext r = .ok es → ∀ role, ∀ e ∈ es.filter fun e => e.role = role,
        e.role = role ∧ e.index < limit := by
    intro r es hr hes role e he
    obtain ⟨he, hrole⟩ := mem_filter.mp he
    refine ⟨by simpa using hrole, ?_⟩
    have hmem : e.index ∈ es.map RoleEntry.index := mem_map_of_mem he
    rw [map_index_roleEntries hes, mem_range] at hmem
    have hlength := (mapM_eq_ok.mp hes).length_eq
    rw [length_zipIdx] at hlength
    have hmessages := hr.messages
    omega
  have hsame : entries = entries' := by
    refine Align.eq_of_filter_eq RoleEntry.role (map_index_roleEntries hentries)
      (map_index_roleEntries hentries') ?_
    intro role
    have hp := hpre role
    refine (readable_roleEntry role).flatMap_inj RoleEntry.encode_ne_nil
      (hsmall hin hentries role) (hsmall hin' hentries' role) ?_ hp
    by_cases hr : role ∈ entries.map RoleEntry.role
    · have hlen := hin.strings _ (mem_hashedStrings_role hentries hr)
      simpa [rolePreimage, beq_eq_decide] using hlen
    have hnil := rolePreimage_of_not_mem hr
    simp only [rolePreimage, beq_eq_decide] at hnil
    rw [hnil]
    simp [limit]
  -- one entry, so one role and one digest, so one record, so one body fingerprint
  subst hsame
  rw [← map_fst_zipIdx req, ← map_fst_zipIdx req']
  refine map_eq_map_of_mapM_eq hentries hentries' ?_
  rintro ⟨m, i⟩ hm ⟨m', i'⟩ hm' e he he'
  replace hm := fst_mem_of_mem_zipIdx hm
  replace hm' := fst_mem_of_mem_zipIdx hm'
  obtain ⟨d, hd, rfl⟩ := map_eq_ok.mp he
  obtain ⟨d', hd', hee⟩ := map_eq_ok.mp he'
  obtain ⟨hrole, -, hdd⟩ := RoleEntry.mk.inj hee
  obtain ⟨p, hp, rfl⟩ := map_eq_ok.mp hd
  obtain ⟨p', hp', hsha⟩ := map_eq_ok.mp hd'
  obtain ⟨hpp, hlen⟩ := hcf.string_inj hin (mem_hashedStrings_message hm hp)
    (mem_hashedStrings_message hm' hp') (hsha.trans hdd).symm
  unfold messagePreimage at hp hp'
  split at hp <;> cases hp
  next s hs =>
  split at hp' <;> cases hp'
  next s' hs' =>
  rw [hrole] at hpp
  have hframe := append_cancel_left hpp
  rw [length_append] at hlen
  have hss : s = s' := readable_text.injOn trivial trivial (by omega) hframe
  exact hcf.bodies m hm m' hm' s hs (hss ▸ hs')

end sections

/-! ## All sections -/

/-- **A section digest tells its section.**  Two requests get the same digest for
a section exactly when they agree on what the section is about; the output
format counts as a whole where marshalling tells formats apart. -/
theorem fingerprintRequestSections_eq_iff (ext : Externals) (req req' : ChatRequest)
    (hcf : CollisionFree ext req req') (hin : InMemory ext req) (hin' : InMemory ext req')
    (hformats : ∀ f ∈ req.outputFormat, ∀ f' ∈ req'.outputFormat, ∀ b,
      ext.marshalOutputFormat f = .ok b → ext.marshalOutputFormat f' = .ok b → f = f')
    (s s' : RequestSections) (hs : fingerprintRequestSections ext req = .ok s)
    (hs' : fingerprintRequestSections ext req' = .ok s') :
    (s.tools = s'.tools ↔ req.tools.map ToolDef.unmarked = req'.tools.map ToolDef.unmarked) ∧
    (s.params = s'.params ↔ req.maxTokens = req'.maxTokens ∧ req.temperature = req'.temperature ∧
      req.topP = req'.topP ∧ req.stream = req'.stream ∧
      req.providerExtensionsJson = req'.providerExtensionsJson ∧
      req.safetySettingsJson = req'.safetySettingsJson ∧ req.stopSequences = req'.stopSequences ∧
      req.outputFormat = req'.outputFormat) ∧ (s.model = s'.model ↔ req.model = req'.model) ∧
    (s.cacheControl = s'.cacheControl ↔ cacheCarriers req = cacheCarriers req') ∧
    (s.toolResults = s'.toolResults ↔ toolTexts req = toolTexts req') ∧
    (s.toolContent = s'.toolContent ↔
      (req.toolResults.map fun r => (maskedContent r.content).map ToolResultContentBlock.declared) =
        req'.toolResults.map fun r =>
          (maskedContent r.content).map ToolResultContentBlock.declared) ∧
    (s.toolErrors = s'.toolErrors ↔ req.toolResults.map RequestToolResultBlock.isError =
      req'.toolResults.map RequestToolResultBlock.isError) := by
  obtain ⟨_, -, _, hcontent, _, hparams, ⟨⟩⟩ := bind₃_eq_ok.mp hs
  obtain ⟨_, -, _, hcontent', _, hparams', ⟨⟩⟩ := bind₃_eq_ok.mp hs'
  refine ⟨tools_eq_iff hcf hin hin', (params_eq_iff hcf hin hin' hparams hparams').trans ?_,
    model_eq_iff hcf hin, cacheControl_eq_iff hcf hin hin', toolResults_eq_iff hcf hin hin',
    toolContent_eq_iff hcf hin hin' hcontent hcontent', toolErrors_eq_iff hcf hin⟩
  have hformat : encodedOutputFormat ext req = encodedOutputFormat ext req' ↔
      req.outputFormat = req'.outputFormat := by
    obtain ⟨format, hformat, -⟩ := map_eq_ok.mp hparams
    refine ⟨fun h => ?_, fun h => by rw [encodedOutputFormat, h, encodedOutputFormat]⟩
    have hsame : req.outputFormat.map id = req'.outputFormat.map id :=
      map_outputFormat_eq hformats hformat (h ▸ hformat)
    simpa using hsame
  rw [hformat]

/-- A polynomial hash. -/
def polynomial (p : Bytes) : Digest :=
  ⟨leBytes 32 (p.foldl (fun a b => (a * 257 + b.toNat + 1) % (2 ^ 255 - 19)) 7), by simp⟩

/-- A small stand-in for what the host takes from elsewhere: fingerprints that list
the texts of a body and of a tool result. -/
def sampleExternals : Externals where
  sha256 := polynomial
  requestBlocksFingerprint m := .ok (String.join ((m.blocks.filterMap trailRef).map Prod.snd))
  toolResultContentFingerprint content := .ok (polynomial (content.flatMap fun c =>
    match c.kind with
    | some (.text b) => utf8 b.text
    | _ => []))
  marshalOutputFormat f := .ok (utf8 f.name)
  messageWriteSection role := "ir.messages.write." ++ role

/-- A tool with a marker, the result of a call behind a marker, an output format, and
the given stop sequences. -/
def withStops (stops : List String) : ChatRequest :=
  { model := "m"
    messages := [{ role := "tool"
                   blocks := [{ kind := some (.cacheBreakpoint { markerJson := utf8 "ephemeral" }) },
                     { kind := some (.toolResult
                        { toolCallId := "c1", toolName := "run", isError := some false
                          content := [{ kind := some (.text { text := "ok" }) }] }) }] }]
    tools := [{ name := "run", cacheControlJson := utf8 "ephemeral" }]
    stopSequences := stops
    outputFormat := some { mode := 1, name := "answer" } }

lemma collisionFree_withStops :
    CollisionFree sampleExternals (withStops ["ab", "c"]) (withStops ["a", "bc"]) where
  strings := by decide +kernel
  nonzero := by decide +kernel
  bodies := by
    intro m hm m' hm' _ _ _
    rw [mem_singleton.mp hm, mem_singleton.mp hm']
  contents := by
    have htold : ∀ c ∈ fingerprintedContents (withStops ["ab", "c"]) ++
        fingerprintedContents (withStops ["a", "bc"]), ∀ c' ∈ fingerprintedContents
          (withStops ["ab", "c"]) ++ fingerprintedContents (withStops ["a", "bc"]),
        (sampleExternals.toolResultContentFingerprint c =
            sampleExternals.toolResultContentFingerprint c' ↔
          c.map ToolResultContentBlock.declared = c'.map ToolResultContentBlock.declared) := by
      decide +kernel
    intro c hc c' hc' d d' hd hd'
    rw [← htold c hc c' hc', hd, hd', Except.ok.injEq]
  outputFormats := by
    rintro f ⟨⟩ f' ⟨⟩ _ _ _
    rfl

lemma inMemory_withStops : ∀ stops ∈ [["ab", "c"], ["a", "bc"]],
    InMemory sampleExternals (withStops stops) := by
  simp only [forall_mem_cons, not_mem_nil, false_imp_iff, implies_true, and_true]
  constructor <;> constructor <;> decide +kernel

/-- Moving a byte between two stop sequences moves the digest of the parameters, and
no other one. -/
theorem fingerprintRequestSections_eq_iff_stops : ∃ s s',
    fingerprintRequestSections sampleExternals (withStops ["ab", "c"]) = .ok s ∧
      fingerprintRequestSections sampleExternals (withStops ["a", "bc"]) = .ok s' ∧
      s.params ≠ s'.params ∧ s.tools = s'.tools ∧ s.cacheControl = s'.cacheControl ∧
      s.toolResults = s'.toolResults ∧ s.toolContent = s'.toolContent ∧
      s.toolErrors = s'.toolErrors := by
  obtain ⟨htools, hparams, -, hcache, htexts, hcontent, herrors⟩ :=
    fingerprintRequestSections_eq_iff sampleExternals _ _ collisionFree_withStops
      (inMemory_withStops _ (by simp)) (inMemory_withStops _ (by simp))
      (by rintro f ⟨⟩ f' ⟨⟩ _ _ _; rfl) _ _ rfl rfl
  refine ⟨_, _, rfl, rfl, ?_, htools.mpr rfl, hcache.mpr rfl, htexts.mpr rfl, hcontent.mpr rfl,
    herrors.mpr rfl⟩
  intro h
  obtain ⟨-, -, -, -, -, -, hstops, -⟩ := hparams.mp h
  exact absurd hstops (by decide)

end ToranaEdge
