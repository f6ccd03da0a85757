import ToranaEdge.Format.Fidelity.Nested

/-! # Content blocks

A block of a modelled arm has the members of its arm only, and each is written
from the field it was read into; a block of any other arm is written as it
came, its type and its cache member apart. -/

namespace ToranaEdge.Format.Anthropic

open Engine Attempt List ContentBlock

/-! ## What a block is read from -/

/-- What the fields of a content block are read from, given the occurrences of its
members. -/
structure FieldsRead (codec : WireCodec) (read : String → List Json) (cb : ContentBlock) :
    Prop where
  text : decodeString "" (read "text") = .ok cb.text
  id : decodeString "" (read "id") = .ok cb.id
  name : decodeString "" (read "name") = .ok cb.name
  toolUseID : decodeString "" (read "tool_use_id") = .ok cb.toolUseID
  isError : decodeBoolPtr (read "is_error") = .ok cb.isError
  thinking : decodeString "" (read "thinking") = .ok cb.thinking
  signature : decodeString "" (read "signature") = .ok cb.signature
  data : decodeString "" (read "data") = .ok cb.data
  input : rawMessage (read "input") = cb.input
  cacheControl : rawMessage (read "cache_control") = cb.cacheControl
  content : decodeBlockContent codec (rawMessage (read "content")) = .ok cb.content

/-- What a content block is read from. -/
structure BlockRead (codec : WireCodec) (members : Entries) (cb : ContentBlock) : Prop
    extends FieldsRead codec (bound codec contentBlockNames members) cb where
  type : readType codec members = .ok cb.type
  valid : validateContentBlockMembers codec members cb = .ok ()

variable {codec : WireCodec} {members : Entries} {cb : ContentBlock}

lemma BlockRead.of_decode
    (h : decodeContentBlock codec (.obj members) = .ok cb) : BlockRead codec members cb := by
  obtain ⟨fields, hfields, _, hvalid, content, hcontent, h⟩ := bind₃_eq_ok.mp h
  cases h
  obtain ⟨type, htype, text, htext, id, hid, hfields⟩ := bind₃_eq_ok.mp hfields
  obtain ⟨name, hname, toolUseID, htoolUseID, isError, hisError, hfields⟩ := bind₃_eq_ok.mp hfields
  obtain ⟨thinking, hthinking, signature, hsignature, data, hdata, hfields⟩ :=
      bind₃_eq_ok.mp hfields
  cases hfields
  exact ⟨⟨htext, hid, hname, htoolUseID, hisError, hthinking, hsignature, hdata, rfl, rfl,
    hcontent⟩, htype, hvalid⟩

variable {allowed : List String} {key : String}

/-- A block of a modelled arm has the members of its arm only. -/
lemma BlockRead.onlyNames (h : BlockRead codec members cb)
    (harm : armAllowedMembers cb.type = some allowed) : OnlyNames allowed members := by
  have hvalid := h.valid
  rw [validateContentBlockMembers, harm] at hvalid
  dsimp only at hvalid
  split at hvalid
  · cases hvalid
  next hfind =>
  intro m hm
  simpa using find?_eq_none.mp hfind m hm

lemma membersKept_names {rel : String → Json → Json → Prop}
    {members out : Entries} (hnodup : members.NodupKeys) (honly : OnlyNames allowed members) :
    MembersKept rel members out ↔
      ∀ key ∈ allowed, ∀ v ∈ members.dlookup key, ∃ w, out.dlookup key = some w ∧ rel key v w := by
  rw [membersKept_iff hnodup]
  constructor
  · intro h key _
    exact h key
  · intro h key v hv
    exact h key ((onlyNames_iff hnodup).mp honly key v hv) v hv

lemma lookup_contentBlock (cb : ContentBlock) (key : String) :
    (structMembers (contentBlockFields cb)).lookup key =
      ((contentBlockFields cb).lookup key).join :=
  lookup_structMembers _ _ (by simp [contentBlockFields])

lemma blockRel_iff {v w : Json} (hkey : key ≠ "content") :
    blockRel codec members key v w ↔ SameJson codec v w := by
  constructor
  · rintro (h | ⟨h, -⟩)
    · exact h
    · exact absurd h hkey
  · exact .inl

/-! ## The cache member -/

/-- A block with the breakpoint after it. -/
def closed (marker : Option CacheBreakpointBlock) (cb : ContentBlock) : ContentBlock :=
  match marker with
  | none => cb
  | some m => closeLast m.marker cb

/-- A cache member is read as a breakpoint and written back as it was. -/
lemma closed_eq {place : String} {cache : Option Json} {marker : Option CacheBreakpointBlock}
    (hstrict : ∀ v ∈ cache, strictJson v = true)
    (hmarker : markerAfter codec place cache = .ok marker) (hnone : cb.cacheControl = none) :
    closed marker cb = { cb with cacheControl := cache } := by
  cases cache with
  | none =>
    cases hmarker
    rw [← hnone]
    rfl
  | some v =>
  obtain ⟨parsed, hparse, rfl⟩ := map_eq_ok.mp hmarker
  have hjson := parseRequired_eq_ok (context_eq_ok.mp hparse) (hstrict v rfl)
  rw [closed, closeLast, hnone, hjson]
  rfl

/-! ## Arm by arm -/

section arms

variable {codec : WireCodec} {members : Entries} {cb : ContentBlock} {type : String}

lemma blockPlain_iff (h : readType codec members = .ok type) :
    BlockPlain codec members ↔ ArmPlain codec members type := by
  constructor
  · rintro ⟨type', h', hplain⟩
    cases h.symm.trans h'
    exact hplain
  · intro hplain
    exact ⟨type, h, hplain⟩

lemma blockKept_iff {out : Entries} : BlockKept codec (.obj members) (.obj out) ↔
      MembersKept (blockRel codec members) members out := by
  simp [BlockKept]

/-- The member of that name is kept by the field of that name. -/
def FieldKept (codec : WireCodec) (members : Entries) (sent : ContentBlock) (key : String) : Prop :=
  ∀ v ∈ members.dlookup key, ∃ w, ((contentBlockFields sent).lookup key).join = some w ∧
    blockRel codec members key v w

variable {sent : ContentBlock}

lemma marshalJSON_struct (hraw : sent.raw = none) :
    sent.marshalJSON = .obj (structMembers (contentBlockFields sent)).entries := by
  rw [marshalJSON, hraw]
  rfl

/-- A block written from a struct keeps its members exactly when each is kept by its
own field. -/
lemma blockKept_struct_iff (hstrict : strictJson (.obj members) = true)
    (honly : OnlyNames allowed members) (hraw : sent.raw = none) :
    BlockKept codec (.obj members) sent.marshalJSON ↔
      ∀ key ∈ allowed, FieldKept codec members sent key := by
  rw [marshalJSON_struct hraw, blockKept_iff, membersKept_names (strictJson_obj.mp hstrict).1 honly]
  simp only [FieldKept, ← lookup_contentBlock]
  rfl

/-- A field that is written as it was read. -/
lemma fieldKept_of_eq (h : ((contentBlockFields sent).lookup key).join = members.dlookup key) :
    FieldKept codec members sent key := by
  intro v hv
  exact ⟨v, h.trans hv, .inl (.refl v)⟩

/-- A string field with `omitempty`. -/
lemma fieldKept_string_iff {s : String} (hkey : key ≠ "content")
    (hread : decodeString "" (members.dlookup key).toList = .ok s)
    (hsent : ((contentBlockFields sent).lookup key).join = nonEmptyString s) :
    FieldKept codec members sent key ↔ ∀ v ∈ members.dlookup key, ¬ Omitted v := by
  simp only [FieldKept, hsent, blockRel_iff hkey]
  exact omitempty_iff hread

/-- A block of a modelled arm states the type it is read with, and every field of it
is the member of its name. -/
structure ArmRead (codec : WireCodec) (members : Entries) (cb : ContentBlock) : Prop
    extends FieldsRead codec (fun field => (members.dlookup field).toList) cb where
  stated : members.dlookup "type" = some (.str cb.type)

section

variable (hread : BlockRead codec members cb) (hstrict : strictJson (.obj members) = true)
include hread hstrict

/-- The type and the cache member of a modelled arm are always kept. -/
lemma BlockRead.kept_iff (keys : List String) (htype : cb.type = type)
    (hnames : armAllowedMembers type = some allowed) (hallowed : allowed ⊆ contentBlockNames)
    (hne : type ≠ "") (hkeys : allowed.filter (· ∉ ["type", "cache_control"]) = keys)
    (hraw : sent.raw = none) (hsent : sent.type = type)
    (hcache : sent.cacheControl = cb.cacheControl) (h : ArmRead codec members cb →
      ((∀ key ∈ keys, FieldKept codec members sent key) ↔ ArmPlain codec members type)) :
    BlockKept codec (.obj members) sent.marshalJSON ↔ BlockPlain codec members := by
  subst htype
  have honly := hread.onlyNames hnames
  have hbound := @bound_eq_lookup members codec contentBlockNames
    (fun m hm => hallowed (honly m hm)) (strictJson_obj.mp hstrict).1
  have htype := hread.type
  rw [readType, hbound] at htype
  have harm : ArmRead codec members cb :=
    ⟨funext hbound ▸ hread.toFieldsRead, eq_some_of_decodeString htype hne⟩
  rw [blockKept_struct_iff hstrict honly hraw, blockPlain_iff hread.type, ← h harm, ← hkeys]
  constructor
  · intro h key hkey
    exact h key (mem_of_mem_filter hkey)
  · intro h key hkey
    by_cases hkeyType : key = "type"
    · subst hkeyType
      apply fieldKept_of_eq
      rw [harm.stated, ← hsent]
      rfl
    by_cases hkeyCache : key = "cache_control"
    · subst hkeyCache
      apply fieldKept_of_eq
      rw [← rawMessage_toList (members.dlookup _), harm.cacheControl, ← hcache]
      rfl
    · exact h key (mem_filter.mpr ⟨hkey, by simp [hkeyType, hkeyCache]⟩)

lemma textArm_iff (htype : cb.type = "text") : BlockKept codec (.obj members) (marshalJSON
        { type := "text", text := cb.text, cacheControl := cb.cacheControl }) ↔
      BlockPlain codec members := by
  refine hread.kept_iff hstrict ["text"] htype rfl (by decide) (by decide) rfl rfl rfl rfl ?_
  intro harm
  rw [forall_mem_singleton]
  exact fieldKept_string_iff (by decide) harm.text rfl

lemma thinkingArm_iff (htype : cb.type = "thinking") : BlockKept codec (.obj members) (marshalJSON
        { type := "thinking", thinking := cb.thinking, signature := cb.signature
          cacheControl := cb.cacheControl }) ↔ BlockPlain codec members := by
  refine hread.kept_iff hstrict ["thinking", "signature"] htype rfl (by decide) (by decide) rfl rfl
    rfl rfl ?_
  intro harm
  rw [forall_mem_cons, forall_mem_singleton]
  exact and_congr (fieldKept_string_iff (by decide) harm.thinking rfl)
    (fieldKept_string_iff (by decide) harm.signature rfl)

lemma redactedArm_iff (htype : cb.type = "redacted_thinking") :
    BlockKept codec (.obj members) (marshalJSON
        { type := "redacted_thinking", data := cb.data, cacheControl := cb.cacheControl }) ↔
      BlockPlain codec members := by
  refine hread.kept_iff hstrict ["data"] htype rfl (by decide) (by decide) rfl rfl rfl rfl ?_
  intro harm
  rw [forall_mem_singleton]
  exact fieldKept_string_iff (by decide) harm.data rfl

omit hstrict

/-- What the arm check asks of a tool use. -/
lemma BlockRead.toolUse_valid (htype : cb.type = "tool_use") : cb.id ≠ "" ∧ cb.name ≠ "" := by
  have hvalid := hread.valid
  simp only [validateContentBlockMembers, htype, armAllowedMembers] at hvalid
  split at hvalid
  · cases hvalid
  split at hvalid
  · cases hvalid
  next hne => exact not_or.mp hne

/-- What the arm check asks of a tool result. -/
lemma BlockRead.toolResult_valid (htype : cb.type = "tool_result") :
    ("is_error" ∈ members.keys → cb.isError ≠ none) ∧ cb.toolUseID ≠ "" := by
  have hvalid := hread.valid
  simp only [validateContentBlockMembers, htype, armAllowedMembers] at hvalid
  split at hvalid
  · cases hvalid
  obtain ⟨herror, hvalid⟩ := guard_eq_ok.mp hvalid
  obtain ⟨hid, hvalid⟩ := guard_eq_ok.mp hvalid
  refine ⟨?_, hid⟩
  intro hkey hnone
  apply herror
  exact ⟨contains_iff_mem.mpr hkey, by simp [hnone]⟩

end

/-- A field that is never empty. -/
lemma fieldKept_nonEmpty {s : String} (hne : s ≠ "")
    (hread : decodeString "" (members.dlookup key).toList = .ok s)
    (hsent : ((contentBlockFields sent).lookup key).join = nonEmptyString s) :
    FieldKept codec members sent key := by
  apply fieldKept_of_eq
  rw [eq_some_of_decodeString hread hne, hsent, nonEmptyString, if_neg hne]

/-- A tool use loses nothing; one without an input gets an empty one. -/
lemma toolUseArm_iff {args : RequiredJSONObject} (hread : BlockRead codec members cb)
    (htype : cb.type = "tool_use") (hstrict : strictJson (.obj members) = true)
    (hargs : parseRequiredOrEmpty codec cb.input = .ok args) :
    BlockKept codec (.obj members) (marshalJSON
        { type := "tool_use", id := cb.id, name := cb.name, input := some args.members.json
          cacheControl := cb.cacheControl }) ↔ BlockPlain codec members := by
  refine hread.kept_iff hstrict ["id", "name", "input"] htype rfl (by decide) (by decide) rfl rfl
    rfl rfl ?_
  intro harm
  obtain ⟨hidNe, hnameNe⟩ := hread.toolUse_valid htype
  rw [forall_mem_cons, forall_mem_cons, forall_mem_singleton]
  refine iff_of_true ⟨fieldKept_nonEmpty hidNe harm.id rfl,
    fieldKept_nonEmpty hnameNe harm.name rfl, ?_⟩ trivial
  intro v hv
  rw [← harm.input, Option.mem_def.mp hv] at hargs
  have hjson := parseRequired_eq_ok hargs (strict_of_mem_lookup hstrict v hv)
  exact ⟨v, congrArg some hjson, .inl (.refl v)⟩

/-- What a tool result is written as. -/
def sentResult (cb : ContentBlock) (content : Json) : ContentBlock :=
  { type := "tool_result", toolUseID := cb.toolUseID, isError := cb.isError, name := cb.name
    content := some content, cacheControl := cb.cacheControl }

/-- A tool result keeps what its content keeps. -/
lemma toolResultArm_iff {content : List ToolResultContentBlock} {sent : Json}
    (hread : BlockRead codec members cb) (htype : cb.type = "tool_result")
    (hstrict : strictJson (.obj members) = true)
    (hcontent : resultContent codec cb.content = .ok content)
    (hsent : marshalNestedContent codec content = .ok sent) :
    BlockKept codec (.obj members) (sentResult cb sent).marshalJSON ↔ BlockPlain codec members := by
  refine hread.kept_iff hstrict ["tool_use_id", "content", "is_error"] htype rfl (by decide)
    (by decide) rfl rfl rfl rfl ?_
  intro harm
  obtain ⟨herrorNe, hidNe⟩ := hread.toolResult_valid htype
  have hread' := harm.content
  rw [forall_mem_cons, forall_mem_cons, forall_mem_singleton]
  refine Iff.trans (and_iff_right (fieldKept_nonEmpty hidNe harm.toolUseID rfl)) ?_
  have herrorKept : FieldKept codec members (sentResult cb sent) "is_error" := by
    rcases decodeBoolPtr_toList harm.isError with ⟨b, hlookup, hb⟩ | ⟨hlookup | hlookup, hb⟩
    · apply fieldKept_of_eq
      rw [hlookup]
      show cb.isError.map Json.bool = _
      rw [hb]
      rfl
    · intro v hv
      cases hlookup.symm.trans hv
    · -- null is refused by the arm check
      exact absurd hb (herrorNe (dlookup_isSome.mp (by rw [hlookup]; rfl)))
  rw [and_iff_left herrorKept]
  unfold ArmPlain
  cases hlookup : members.dlookup "content" with
  | none =>
    rw [hlookup] at hread'
    rw [← Except.ok.inj hread'] at hcontent
    cases hcontent
  | some v =>
  rw [hlookup] at hread'
  have hkept := resultContent_iff (strict_of_mem_lookup hstrict v hlookup) hread' hcontent hsent
  have hfield : FieldKept codec members (sentResult cb sent) "content" ↔
      ContentKept codec (FlatKept codec) v sent := by
    rw [FieldKept, hlookup]
    constructor
    · intro h
      obtain ⟨w, hw, hrel⟩ := h v rfl
      cases hw
      rcases hrel with hsame | ⟨-, -, hrel⟩
      · exact .inl (.inl hsame)
      · exact hrel
    · intro h v' hv'
      cases hv'
      exact ⟨sent, rfl, .inr ⟨rfl, by rw [harm.stated, htype], h⟩⟩
  refine hfield.trans (hkept.trans ?_)
  simp

/-- What a block of any other arm is written as. -/
def sentUnmodelled (members : Entries) (type : String) : Members :=
  (withoutMembers unknownNames members.toAList).insert "type" (.str (unmodelledKind type))

lemma unmodelledArm_iff (hread : BlockRead codec members cb) (htype : cb.type ∉ modeledArms)
    (hstrict : strictJson (.obj members) = true) : BlockKept codec (.obj members)
        (withCache cb.cacheControl (sentUnmodelled members cb.type)).json ↔
      BlockPlain codec members := by
  have hnone : (sentUnmodelled members cb.type).lookup "cache_control" = none := by
    rw [sentUnmodelled, lookup_unknown, if_neg (by decide), if_pos (by decide)]
  have hplain : ArmPlain codec members cb.type ↔
      (∀ v ∈ members.dlookup "type", v = .str (unmodelledKind cb.type)) ∧
        ∀ v ∈ members.dlookup "cache_control",
          ∃ w ∈ rawMessage (bound codec contentBlockNames members "cache_control"),
            SameJson codec v w := by
    simp only [modeledArms] at htype
    unfold ArmPlain
    all_goals simp_all
  refine (blockKept_iff.trans (membersKept_iff (strictJson_obj.mp hstrict).1)).trans ?_
  show (∀ key, ∀ v ∈ members.dlookup key, ∃ w, (withCache _ _).lookup key = some w ∧ _) ↔ _
  rw [blockPlain_iff hread.type, hplain, hread.cacheControl]
  simp only [lookup_withCache hnone]
  simp only [sentUnmodelled, lookup_unknown]
  constructor
  · intro h
    constructor
    · intro v hv
      obtain ⟨w, hw, hrel⟩ := h "type" v hv
      cases hw
      exact sameJson_str_right.mp ((blockRel_iff (by decide)).mp hrel)
    · intro v hv
      obtain ⟨w, hw, hrel⟩ := h "cache_control" v hv
      exact ⟨w, hw, (blockRel_iff (by decide)).mp hrel⟩
  · rintro ⟨htypeKept, hcacheKept⟩ key v hv
    by_cases hcache : key = "cache_control"
    · subst hcache
      obtain ⟨w, hw, hsame⟩ := hcacheKept v hv
      exact ⟨w, by rw [if_pos rfl]; exact hw, .inl hsame⟩
    by_cases hkey : key = "type"
    · subst hkey
      rw [htypeKept v hv]
      exact ⟨_, by rw [if_neg hcache, if_pos rfl], .inl (.refl _)⟩
    refine ⟨v, ?_, .inl (.refl v)⟩
    rw [if_neg hcache, if_neg hkey, if_neg (by simp [unknownNames, hcache, hkey])]
    exact hv

end arms

end ToranaEdge.Format.Anthropic
