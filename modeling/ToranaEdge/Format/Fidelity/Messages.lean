import ToranaEdge.Format.Fidelity.Blocks
import ToranaEdge.Format.Fidelity.Struct

/-! # Messages and tool definitions

Both are read into closed structs, so a member that is no field is lost.  The
blocks of a message are followed through the loop that writes them, each with
the breakpoint its cache member stands for. -/

namespace ToranaEdge.Format.Anthropic

open Engine Attempt List ContentBlock

/-! ## The blocks of a message -/

variable {codec : WireCodec} {block : Block} {role : Role} {members : Entries}
  {marker : Option CacheBreakpointBlock} {place : String} {i : Nat}

/-- A block read and written: it keeps what it had exactly when it is plain. -/
lemma block_iff {cb wb : ContentBlock} (hread : BlockRead codec members cb)
    (hstrict : strictJson (.obj members) = true)
    (hblock : blockToEngine codec cb (some (.obj members)) = .ok block)
    (hmarker : markerAfter codec place cb.cacheControl = .ok marker)
    (hsent : marshalBlock codec role i block = .ok (some wb)) :
    BlockKept codec (.obj members) (closed marker wb).marshalJSON ↔ BlockPlain codec members := by
  have hcache : ∀ v ∈ cb.cacheControl, strictJson v = true := by
    rw [← hread.cacheControl]
    exact strict_of_mem_bound hstrict
  unfold blockToEngine at hblock
  split at hblock
  case h_1 htype =>
    cases hblock
    cases hsent
    rw [closed_eq hcache hmarker rfl]
    exact textArm_iff hread hstrict htype
  case h_2 htype =>
    cases hblock
    cases hsent
    rw [closed_eq hcache hmarker rfl]
    exact thinkingArm_iff hread hstrict htype
  case h_3 htype =>
    cases hblock
    cases hsent
    rw [closed_eq hcache hmarker rfl]
    exact redactedArm_iff hread hstrict htype
  case h_4 htype =>
    obtain ⟨args, hargs, hblock⟩ := bind_eq_ok.mp hblock
    cases hblock
    simp only [marshalBlock] at hsent
    split at hsent <;> cases hsent
    rw [closed_eq hcache hmarker rfl]
    exact toolUseArm_iff hread htype hstrict (context_eq_ok.mp hargs)
  case h_5 htype =>
    obtain ⟨content, hcontent, hblock⟩ := bind_eq_ok.mp hblock
    cases hblock
    simp only [marshalBlock] at hsent
    split at hsent
    · cases hsent
    obtain ⟨sent, hnested, hsent⟩ := bind_eq_ok.mp hsent
    cases hsent
    rw [closed_eq hcache hmarker rfl]
    exact toolResultArm_iff hread htype hstrict hcontent hnested
  case h_6 htext hthinking hredacted huse hresult =>
    obtain ⟨payload, hpayload, hblock⟩ := bind_eq_ok.mp hblock
    cases hblock
    cases context_eq_ok.mp hpayload
    simp only [marshalBlock, marshalUnknownBlock] at hsent
    split at hsent
    · cases hsent
    case h_2 sent hunknown =>
    cases hsent
    split at hunknown
    · cases hunknown
    split at hunknown
    · cases hunknown
    cases hunknown
    rw [closed_eq hcache hmarker rfl]
    have hmodeled : cb.type ∉ modeledArms := by
      simp only [modeledArms, mem_cons, not_mem_nil, or_false, not_or]
      exact ⟨htext, hthinking, hredacted, huse, hresult⟩
    rw [← unmodelledArm_iff hread hmodeled hstrict]
    cases cb.cacheControl with
    | none | some v => exact Iff.rfl

variable {cb : ContentBlock} {raw : Option Json} {res : List ContentBlock} {v : Json}

/-- The engine's block of a content block is no breakpoint. -/
lemma cacheBreakpoint_blockToEngine (h : blockToEngine codec cb raw = .ok block) :
    block.cacheBreakpoint = none := by
  unfold blockToEngine at h
  split at h
  case h_1 | h_2 | h_3 =>
    cases h
    rfl
  case h_4 | h_5 | h_6 =>
    obtain ⟨_, -, h⟩ := bind_eq_ok.mp h
    cases h
    rfl

/-- Only a breakpoint is written as no block of its own. -/
lemma cacheBreakpoint_of_marshalBlock {codec : Codec}
    (h : marshalBlock codec role i block = .ok none) : block.cacheBreakpoint ≠ none := by
  unfold marshalBlock at h
  split at h
  case h_6 hmarker =>
    rw [hmarker]
    simp
  case h_1 | h_2 | h_3 | h_8 | h_9 => cases h
  case h_4 =>
    split at h
    · cases h
    · cases h
  case h_5 =>
    split at h
    · cases h
    · obtain ⟨_, -, h⟩ := bind_eq_ok.mp h
      cases h
  case h_7 =>
    split at h
    · cases h
    · cases h

/-- A block and the breakpoint after it become one block. -/
lemma contentLoop_block {blocks rest : List Block} {out : List ContentBlock}
    (hread : blockWithMarker codec cb raw = .ok blocks)
    (hloop : contentLoop codec role i out (blocks ++ rest) = .ok res) :
    ∃ block marker wb j, blockToEngine codec cb raw = .ok block ∧
      markerAfter codec "content cache_control" cb.cacheControl = .ok marker ∧
      marshalBlock codec role i block = .ok (some wb) ∧
      contentLoop codec role j (out ++ [closed marker wb]) rest = .ok res := by
  obtain ⟨block, hblock, marker, hmarker, hread⟩ := bind₂_eq_ok.mp hread
  cases hread
  obtain ⟨sent, hsent, hloop⟩ := bind_eq_ok.mp hloop
  cases sent with
  | none =>
    exact absurd (cacheBreakpoint_blockToEngine hblock) (cacheBreakpoint_of_marshalBlock hsent)
  | some wb =>
  cases marker with
  | none => exact ⟨block, none, wb, i + 1, hblock, hmarker, hsent, hloop⟩
  | some m =>
  refine ⟨block, some m, wb, i + 2, hblock, hmarker, hsent, ?_⟩
  obtain ⟨sent, hnone, hloop⟩ := bind_eq_ok.mp hloop
  cases hnone
  simpa [closePrefix, closed] using hloop

/-- An element that is read as a block is an object. -/
lemma exists_obj_of_blockToEngine (hdecode : decodeContentBlock codec v = .ok cb)
    (hblock : blockToEngine codec cb (some v) = .ok block) : ∃ members, v = .obj members := by
  cases v with
  | obj members => exact ⟨members, rfl⟩
  | null =>
    cases hdecode
    cases hblock
  | bool _ | num _ | str _ | arr _ => cases hdecode

variable {blocks : List (List Block)} {s : String} {t : AnthropicToolDef} {td : ToolDef}

/-- The elements of a content array, one after another. -/
lemma contentLoop_blocks {before elems : List Json} {cbs : List ContentBlock} {i : Nat}
    {out res : List ContentBlock} (hstrict : ∀ v ∈ elems, strictJson v = true)
    (hdecode : elems.mapM (decodeContentBlock codec) = .ok cbs)
    (hread : ((cbs.zipIdx before.length).mapM fun b =>
      blockWithMarker codec b.1 (before ++ elems)[b.2]?) = .ok blocks)
    (hloop : contentLoop codec role i out blocks.flatten = .ok res) :
    ∃ ws : List ContentBlock, res = out ++ ws ∧
      Forall₂ (Written (BlockKept codec) (BlockPlain codec)) elems
        ((ws.map marshalJSON).map some) := by
  replace hdecode := mapM_eq_ok.mp hdecode
  induction hdecode generalizing blocks before i out with
  | nil =>
    cases hread
    cases hloop
    exact ⟨[], by simp, .nil⟩
  | @cons v cb vs cbs hcb _ ih =>
  have hforall := mapM_eq_ok.mp hread
  rw [zipIdx_cons, forall₂_cons_left_iff] at hforall
  obtain ⟨first, blocks, hfirst, hrest, rfl⟩ := hforall
  have hraw : (before ++ v :: vs)[before.length]? = some v := by simp
  rw [hraw] at hfirst
  rw [forall_mem_cons] at hstrict
  obtain ⟨block, marker, wb, j, hblock, hmarker, hsent, hloop⟩ := contentLoop_block hfirst hloop
  obtain ⟨members, rfl⟩ := exists_obj_of_blockToEngine hcb hblock
  have hplain := block_iff (.of_decode hcb) hstrict.1 hblock hmarker hsent
  have hbefore : before ++ .obj members :: vs = (before ++ [.obj members]) ++ vs := by simp
  obtain ⟨ws, rfl, hws⟩ := @ih blocks (before ++ [.obj members]) j _ hstrict.2
    (by simpa using mapM_eq_ok.mpr hrest) hloop
  exact ⟨closed marker wb :: ws, by simp, .cons ⟨members, rfl, hplain⟩ hws⟩

lemma blockKept_of_sameJson {w : Json}
    (hnodup : members.NodupKeys) (h : SameJson codec (.obj members) w) :
    BlockKept codec (.obj members) w := by
  obtain ⟨out, rfl⟩ := exists_obj_of_sameJson h
  exact blockKept_iff.mpr (membersKept_of_sameJson (fun _ _ _ h => .inl h) hnodup h)

/-- A string content is written as one text block, and is kept unless it is empty. -/
lemma textArray_block_iff : ContentKept codec (BlockKept codec) (.str s)
        (.arr [marshalJSON { type := "text", text := s }]) ↔ s ≠ "" := by
  have htext : ∀ sent : ContentBlock, sent.raw = none → (TextArray s (.arr [sent.marshalJSON]) ↔
        ((contentBlockFields sent).lookup "type").join = some (.str "text") ∧
          ((contentBlockFields sent).lookup "text").join = some (.str s)) := by
    intro sent hraw
    rw [marshalJSON_struct hraw, ← lookup_contentBlock, ← lookup_contentBlock]
    constructor
    · rintro ⟨_, heq, h⟩
      cases heq
      exact h
    · intro h
      exact ⟨_, rfl, h⟩
  constructor
  · rintro ((h | ⟨_, _, h, -⟩) | ⟨_, h, harray⟩)
    · cases sameJson_str.mp h
    · cases h
    · cases h
      obtain ⟨-, h⟩ := (htext _ rfl).mp harray
      rintro rfl
      cases h
  · intro hne
    refine .inr ⟨s, rfl, (htext _ rfl).mpr ⟨rfl, ?_⟩⟩
    show nonEmptyString s = _
    rw [nonEmptyString, if_neg hne]

/-- A text block without a cache member, written alone. -/
lemma contentLoop_text
    (hread : ([({ type := "text", text := s } : ContentBlock)].zipIdx.mapM fun b =>
      blockWithMarker codec b.1 ([] : List Json)[b.2]?) = .ok blocks)
    (hloop : contentLoop codec role 0 [] blocks.flatten = .ok res) :
    res = [{ type := "text", text := s }] := by
  cases hread
  cases hloop
  rfl

/-- The content of a message, from the member it is read from to what is written. -/
lemma content_iff {v : Json} {am : AnthropicMessage} {res : List ContentBlock}
    (hstrict : strictJson v = true)
    (hdecode : decodeContent codec (some v) = .ok (am.content, am.contentRaw))
    (hread : (am.content.zipIdx.mapM fun b => blockWithMarker codec b.1 am.contentRaw[b.2]?) =
      .ok blocks) (hloop : contentLoop codec role 0 [] blocks.flatten = .ok res) :
    ContentKept codec (BlockKept codec) v (sliceJson (res.map marshalJSON)) ↔
      (∃ s, v = .str s ∧ s ≠ "") ∨ ∃ elems, v = .arr elems ∧ elems ≠ [] ∧
          ∀ block, .obj block ∈ elems → BlockPlain codec block := by
  obtain ⟨_, cbs, raws⟩ := am
  cases v with
  | bool _ | num _ | obj _ => cases hdecode
  | null =>
    cases hdecode
    rw [contentLoop_text hread hloop]
    apply iff_of_false
    · rintro ((h | ⟨_, _, h, -⟩) | ⟨_, h, -⟩)
      · cases sameJson_null.mp h
      · cases h
      · cases h
    · rintro (⟨_, h, -⟩ | ⟨_, h, -⟩)
      · cases h
      · cases h
  | str s =>
    cases hdecode
    rw [contentLoop_text hread hloop]
    refine textArray_block_iff.trans ?_
    constructor
    · intro hne
      exact .inl ⟨s, rfl, hne⟩
    · rintro (⟨_, h, hne⟩ | ⟨_, h, -⟩)
      · cases h
        exact hne
      · cases h
  | arr elems =>
    obtain ⟨cbs', hcbs, heq⟩ := map_eq_ok.mp (context_eq_ok.mp hdecode)
    obtain ⟨rfl, rfl⟩ := Prod.mk.inj heq
    have helems := strictJson_arr.mp hstrict
    obtain ⟨_, rfl, hwritten⟩ :=
      @contentLoop_blocks codec role blocks [] elems cbs' 0 [] res helems hcbs hread hloop
    have hkept := arrayKept_written_iff blockKept_of_sameJson helems hwritten
    rw [filterMap_map_some] at hkept
    cases res with
    | nil =>
      -- an empty array is written as null
      cases hwritten
      apply iff_of_false
      · rintro ((h | ⟨_, _, -, h, -⟩) | ⟨_, h, -⟩)
        · cases h
        · cases h
        · cases h
      · simp
    | cons w ws =>
    rw [contentKept_arr_iff]
    refine hkept.trans ?_
    cases hwritten
    simp

/-- A message that is no system message is written, and keeps what it had exactly
when it is plain. -/
lemma message_iff {w : Json} {am : AnthropicMessage} {m : Message} (hstrict : strictJson v = true)
    (hdecode : decodeMessage codec v = .ok am) (hread : unmarshalMessage codec am = .ok m)
    (hsent : marshalMessage codec m = .ok (some w)) :
    ∃ members, v = .obj members ∧ (MessageKept codec v w ↔ MessagePlain codec members) := by
  cases v with
  | null | bool _ | num _ | str _ | arr _ => cases hdecode
  | obj members =>
  refine ⟨members, rfl, ?_⟩
  obtain ⟨role, hrole, content, hcontent, hdecode⟩ := bind₂_eq_ok.mp hdecode
  cases hdecode
  obtain ⟨blocks, hblocks, hread⟩ := bind_eq_ok.mp hread
  cases hread
  unfold marshalMessage at hsent
  split at hsent
  · cases hsent
  case isFalse hsystem =>
  split at hsent
  · cases hsent
  case isFalse htool =>
  have hunmap : unmapRole role = role := if_neg htool
  obtain ⟨res, hloop, hsent⟩ := bind_eq_ok.mp hsent
  cases hsent
  refine structKept_congr hstrict rfl (by decide) fun _ hbound => ?_
  rw [hbound] at hrole hcontent
  rw [fieldsKept_cons, fieldsKept_cons, and_iff_left fieldsKept_nil]
  refine and_congr ?_ ?_
  · show Writes codec _ (some (.str (unmapRole role))) ↔ _
    rw [hunmap, writes_string_iff codec hrole]
    refine forall₂_congr fun v hv => (and_iff_left ?_).symm
    rintro rfl
    rcases decodeString_toList.mp hrole with hstated | ⟨hstated | hstated, -⟩
    · cases hv.symm.trans hstated
      exact hsystem rfl
    · cases hv.symm.trans hstated
    · cases hv.symm.trans hstated
  · cases hlookup : members.dlookup "content" with
    | none =>
      rw [hlookup] at hcontent
      cases hcontent
    | some c =>
    rw [hlookup] at hcontent
    have hc := @content_iff codec role blocks c ⟨role, content.1, content.2⟩ res
      (strict_of_mem_lookup hstrict c hlookup) hcontent hblocks hloop
    simp only [Option.mem_def, Option.some.injEq, forall_eq', exists_eq_left']
    exact hc

/-! ## Tool definitions -/

/-- The cache member of a tool definition is written as it was read. -/
lemma markerBytes_eq {cache : Option Json} (hstrict : ∀ v ∈ cache, strictJson v = true)
    (hmarker : markerAfter codec place cache = .ok marker) :
    markerBytes (marker.map fun m => m.marker.members) = cache := by
  cases cache with
  | none =>
    cases hmarker
    rfl
  | some v =>
  obtain ⟨parsed, hparse, rfl⟩ := map_eq_ok.mp hmarker
  have hjson := parseRequired_eq_ok (context_eq_ok.mp hparse) (hstrict v rfl)
  exact congrArg some hjson

/-- What a tool definition is read from. -/
lemma tool_read (hdecode : decodeToolDef codec {} (.obj members) = .ok t)
    (hread : unmarshalTool codec t = .ok td) (hstrict : strictJson (.obj members) = true) :
    decodeString "" (bound codec toolNames members "name") = .ok td.name ∧
      decodeString "" (bound codec toolNames members "description") = .ok td.description ∧
      parseRequiredOrEmpty codec (rawMessage (bound codec toolNames members "input_schema")) =
        .ok td.parameters ∧
      markerBytes td.cacheControl = rawMessage (bound codec toolNames members "cache_control") := by
  obtain ⟨name, hname, description, hdescription, hdecode⟩ := bind₂_eq_ok.mp hdecode
  cases hdecode
  obtain ⟨params, hparams, marker, hmarker, hread⟩ := bind₂_eq_ok.mp hread
  cases hread
  simp only [Option.or_none] at hparams hmarker
  exact ⟨hname, hdescription, context_eq_ok.mp hparams,
    markerBytes_eq (strict_of_mem_bound hstrict) hmarker⟩

/-- A tool definition keeps what it had exactly when it is plain. -/
lemma tool_iff (hstrict : strictJson v = true) (hdecode : decodeToolDef codec {} v = .ok t)
    (hread : unmarshalTool codec t = .ok td) (hne : td.name ≠ "") :
    ∃ members, v = .obj members ∧ (FlatKept codec v (marshalTool td) ↔ ToolPlain members) := by
  cases v with
  | bool _ | num _ | str _ | arr _ => cases hdecode
  | null =>
    cases hdecode
    cases hread
    exact absurd rfl hne
  | obj members =>
  refine ⟨members, rfl, ?_⟩
  obtain ⟨hname, hdescription, hparams, hcache⟩ := tool_read hdecode hread hstrict
  refine structKept_congr hstrict rfl (by decide) fun _ hbound => ?_
  simp only [hbound, rawMessage_toList] at hname hdescription hparams hcache
  simp only [flatFields_cons, and_iff_left fieldsKept_nil]
  rw [writes_nonEmpty_iff codec hdescription,
    and_iff_right (writes_of_eq codec (eq_some_of_decodeString hname hne).symm),
    and_iff_left ⟨writes_required codec (strict_of_mem_lookup hstrict) hparams,
      writes_of_eq codec hcache⟩]

end ToranaEdge.Format.Anthropic
