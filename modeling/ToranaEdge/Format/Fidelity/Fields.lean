import ToranaEdge.Format.Fidelity.Messages

/-! # The fields of a body

Each field of the body, from the member it is read from to what is written for
it: the arrays element by element, the scalars by their value. -/

namespace ToranaEdge.Format.Anthropic

open Engine Attempt List ContentBlock Json

variable {codec : WireCodec} {w : Json}

/-! ## Messages and tools -/

lemma messageKept_of_sameJson {members : Entries} (hnodup : members.NodupKeys)
    (h : SameJson codec (.obj members) w) : MessageKept codec (.obj members) w := by
  refine objectKept_of_sameJson (fun key v w h => ?_) hnodup h
  unfold messageRel
  split
  · exact .inl (.inl h)
  · exact h

variable {v : Json}

/-- A system message of the array is not written, and is not plain. -/
lemma message_dropped {am : AnthropicMessage} {m : Message} (hstrict : strictJson v = true)
    (hdecode : decodeMessage codec v = .ok am) (hread : unmarshalMessage codec am = .ok m)
    (hsent : marshalMessage codec m = .ok none) :
    ∃ members, v = .obj members ∧ ¬ MessagePlain codec members := by
  cases v with
  | null | bool _ | num _ | str _ | arr _ => cases hdecode
  | obj members =>
  refine ⟨members, rfl, ?_⟩
  obtain ⟨role, hrole, content, -, hdecode⟩ := bind₂_eq_ok.mp hdecode
  cases hdecode
  obtain ⟨blocks, -, hread⟩ := bind_eq_ok.mp hread
  cases hread
  have hsystem : role = roleSystem := by
    by_contra hne
    rw [marshalMessage, if_neg (show ¬ mapRole role = roleSystem from hne)] at hsent
    split at hsent
    · cases hsent
    · obtain ⟨_, -, hsent⟩ := bind_eq_ok.mp hsent
      cases hsent
  rintro ⟨honly, hplain, -⟩
  rw [bound_eq_lookup honly (strictJson_obj.mp hstrict).1] at hrole
  have hstated := eq_some_of_decodeString hrole (by rw [hsystem]; decide)
  exact (hplain _ hstated).2 (by rw [hsystem])

variable {elems : List Json} {ams : List AnthropicMessage} {outs : List (Option Json)}
  {ms : List Message} {ts : List AnthropicToolDef} {tds : List ToolDef}

/-- The messages of a body and what is written for them. -/
lemma messages_written (hstrict : ∀ v ∈ elems, strictJson v = true)
    (hdecode : elems.mapM (decodeMessage codec) = .ok ams)
    (hread : ams.mapM (unmarshalMessage codec) = .ok ms)
    (hsent : ms.mapM (marshalMessage codec) = .ok outs) :
    Forall₂ (Written (MessageKept codec) (MessagePlain codec)) elems outs := by
  have hwritten : Forall₂ (fun am o => ∃ m, unmarshalMessage codec am = .ok m ∧
      marshalMessage codec m = .ok o) ams outs :=
    Align.forall₂_trans (fun _ m _ hm ho => ⟨m, hm, ho⟩) (mapM_eq_ok.mp hread)
      (mapM_eq_ok.mp hsent)
  have hthrough : Forall₂ (fun v o => ∃ am m, decodeMessage codec v = .ok am ∧
      unmarshalMessage codec am = .ok m ∧ marshalMessage codec m = .ok o) elems outs :=
    Align.forall₂_trans (fun _ am _ ham ⟨m, hm, ho⟩ => ⟨am, m, ham, hm, ho⟩)
      (mapM_eq_ok.mp hdecode) hwritten
  refine ((forall₂_and_left _ _).mpr ⟨hstrict, hthrough⟩).imp ?_
  rintro v (_ | w) ⟨hv, am, m, ham, hm, ho⟩
  · exact message_dropped hv ham hm ho
  · exact message_iff hv ham hm ho

/-- The messages member, null or an array. -/
lemma messages_iff (hstrict : strictJson v = true)
    (hslice : decodeSlice ⟨"", [], []⟩ (fun _ => decodeMessage codec) [v] = .ok ams)
    (hread : ams.mapM (unmarshalMessage codec) = .ok ms)
    (hsent : ms.mapM (marshalMessage codec) = .ok outs) :
    ArrayKept codec (MessageKept codec) v (sliceJson (outs.filterMap id)) ↔
      ∀ elems, v = .arr elems → elems ≠ [] ∧ ∀ m, .obj m ∈ elems → MessagePlain codec m := by
  rcases decodeSlice_singleton hslice with ⟨rfl, rfl⟩ | ⟨elems, rfl, hdecode⟩
  · -- no messages are written as null
    cases hread
    cases hsent
    apply iff_of_true
    · exact .inl (.refl _)
    · intro elems h
      cases h
  have hwritten := messages_written (strictJson_arr.mp hstrict) hdecode hread hsent
  have hkept := arrayKept_written_iff messageKept_of_sameJson (strictJson_arr.mp hstrict) hwritten
  simp only [arr.injEq, forall_eq']
  cases hout : outs.filterMap id with
  | nil =>
    apply iff_of_false
    · rintro (h | ⟨_, _, -, h, -⟩)
      · cases h
      · cases h
    · rintro ⟨hne, hall⟩
      rw [← forall₂_written_iff hwritten, hout, forall₂_nil_right_iff] at hall
      exact hne hall
  | cons w ws =>
  rw [hout] at hkept
  have hne : elems ≠ [] := by
    rintro rfl
    cases hwritten
    cases hout
  rw [and_iff_right hne]
  exact hkept

lemma tools_written (hstrict : ∀ v ∈ elems, strictJson v = true)
    (hdecode : elems.mapM (decodeToolDef codec {}) = .ok ts)
    (hread : ts.mapM (unmarshalTool codec) = .ok tds) (hnames : ∀ td ∈ tds, td.name ≠ "") :
    Forall₂ (Written (FlatKept codec) ToolPlain) elems ((tds.map marshalTool).map some) := by
  have hnamed := ((forall₂_and_left _ _).mpr ⟨hnames, (mapM_eq_ok.mp hread).flip⟩).flip
  have hthrough : Forall₂ (fun v td => ∃ t, decodeToolDef codec {} v = .ok t ∧
      unmarshalTool codec t = .ok td ∧ td.name ≠ "") elems tds :=
    Align.forall₂_trans (fun _ t _ ht htd => ⟨t, ht, htd.2, htd.1⟩) (mapM_eq_ok.mp hdecode)
      hnamed
  rw [forall₂_map_right_iff, forall₂_map_right_iff]
  refine ((forall₂_and_left _ _).mpr ⟨hstrict, hthrough⟩).imp ?_
  rintro v td ⟨hv, t, ht, htd, hne⟩
  exact tool_iff hv ht htd hne

/-- The tools member; no tools are not written. -/
lemma tools_iff (hstrict : strictJson v = true)
    (hslice : decodeSlice {} (decodeToolDef codec) [v] = .ok ts)
    (hread : ts.mapM (unmarshalTool codec) = .ok tds) (hnames : ∀ td ∈ tds, td.name ≠ "") :
    (∃ w, nonEmptySlice (tds.map marshalTool) = some w ∧ ArrayKept codec (FlatKept codec) v w) ↔
      v ≠ .null ∧ ∀ elems, v = .arr elems → elems ≠ [] ∧ ∀ t, .obj t ∈ elems → ToolPlain t := by
  rcases decodeSlice_singleton hslice with ⟨rfl, rfl⟩ | ⟨elems, rfl, hdecode⟩
  · cases hread
    apply iff_of_false
    · rintro ⟨_, h, -⟩
      cases h
    · rintro ⟨h, -⟩
      exact h rfl
  have hwritten := tools_written (strictJson_arr.mp hstrict) hdecode hread hnames
  have hkept := arrayKept_written_iff flatKept_of_sameJson (strictJson_arr.mp hstrict) hwritten
  rw [filterMap_map_some] at hkept
  simp only [arr.injEq, forall_eq']
  rw [exists_nonEmptySlice, hkept, Align.ne_nil_iff hwritten]
  simp

/-! ## The system member -/

/-- A block of the system array. -/
def systemBlock (text : String) (cache : Option Json) : ContentBlock :=
  { type := "text", text, cacheControl := cache }

/-- The other fields of the struct are empty. -/
lemma marshalJSON_systemBlock (text : String) (cache : Option Json) :
    (systemBlock text cache).marshalJSON = structJson [("type", some (.str "text")),
      ("text", nonEmptyString text), ("cache_control", cache)] := rfl

variable {e : Json × Nat} {cb : ContentBlock}

/-- What an element of the system array is read from. -/
lemma systemElement_read (h : decodeSystemElement codec e = .ok cb) :
    ∃ members, e.1 = .obj members ∧
      cb = systemBlock cb.text (rawMessage (bound codec systemNames members "cache_control")) ∧
      decodeString "" (bound codec systemNames members "type") = .ok "text" ∧
      decodeStringPtr (bound codec systemNames members "text") = .ok (some cb.text) := by
  obtain ⟨v, i⟩ := e
  cases v with
  | null | bool _ | num _ | str _ | arr _ => cases h
  | obj members =>
  refine ⟨members, rfl, ?_⟩
  unfold decodeSystemElement at h
  dsimp only at h
  split at h
  · cases h
  obtain ⟨type, htype, text, htext, h⟩ := bind₂_eq_ok.mp h
  cases text with
  | none => cases h
  | some text =>
  dsimp only at h
  split at h
  case isFalse => cases h
  case isTrue heq =>
  cases h
  rw [heq] at htype
  exact ⟨rfl, context_eq_ok.mp htype, context_eq_ok.mp htext⟩

/-- An element of the system array in a system block: its text and its cache member
are there, and it has nothing else. -/
lemma systemElement_iff {text : String} {cache : Option Json} (hstrict : strictJson e.1 = true)
    (h : decodeSystemElement codec e = .ok cb) : ∃ members, e.1 = .obj members ∧
      (OnlyNames systemNames members → members.dlookup "text" = some (.str cb.text)) ∧
      (FlatKept codec e.1 (systemBlock text cache).marshalJSON ↔
        OnlyNames systemNames members ∧ text = cb.text ∧ cb.text ≠ "" ∧
          ∀ v ∈ cb.cacheControl, ∃ w ∈ cache, SameJson codec v w) := by
  obtain ⟨v, i⟩ := e
  obtain ⟨members, rfl, hcb, htype, htext⟩ := systemElement_read h
  have hstated : OnlyNames systemNames members → members.dlookup "text" = some (.str cb.text) := by
    intro honly
    rw [bound_eq_lookup honly (strictJson_obj.mp hstrict).1] at htext
    rcases decodeStringPtr_toList htext with ⟨t, hstated, heq⟩ | ⟨-, heq⟩
    · cases heq
      exact hstated
    · cases heq
  refine ⟨members, rfl, hstated, ?_⟩
  rw [marshalJSON_systemBlock]
  refine structKept_congr hstrict rfl (by decide) fun honly hbound => ?_
  rw [hbound] at htype
  have hcache : members.dlookup "cache_control" = cb.cacheControl := by
    rw [hcb]
    show _ = rawMessage _
    rw [hbound, rawMessage_toList]
  have htext : Writes codec (members.dlookup "text") (nonEmptyString text) ↔
      text = cb.text ∧ cb.text ≠ "" := by
    rw [hstated honly]
    by_cases hempty : text = ""
    · subst hempty
      refine iff_of_false (by simp [Writes, nonEmptyString]) ?_
      rintro ⟨heq, hne⟩
      exact hne heq.symm
    rw [nonEmptyString, if_neg hempty]
    simp only [Writes, Option.mem_def, Option.some.injEq, forall_eq', exists_eq_left', sameJson_str,
      str.injEq]
    exact ⟨fun h => ⟨h, h ▸ hempty⟩, fun h => h.1⟩
  simp only [flatFields_cons, and_iff_left fieldsKept_nil]
  rw [and_iff_right (writes_of_eq codec (eq_some_of_decodeString htype (by decide)).symm), htext,
    hcache, and_assoc]
  rfl

variable {out res : List ContentBlock}

/-- An element with a text is written as a system block. -/
lemma systemLoop_element {blocks rest : List Block} {i : Nat} (hne : cb.text ≠ "")
    (hstrict : ∀ v ∈ cb.cacheControl, strictJson v = true)
    (hread : systemWithMarker codec cb = .ok blocks)
    (hloop : systemLoop i out (blocks ++ rest) = .ok res) :
    ∃ j, systemLoop j (out ++ [systemBlock cb.text cb.cacheControl]) rest = .ok res := by
  rw [systemWithMarker, if_neg hne] at hread
  obtain ⟨marker, hmarker, hread⟩ := bind_eq_ok.mp hread
  cases hread
  have hclosed : closed marker (systemBlock cb.text none) = systemBlock cb.text cb.cacheControl :=
    closed_eq hstrict hmarker rfl
  rw [← hclosed]
  cases marker with
  | none => exact ⟨i + 1, hloop⟩
  | some m =>
    refine ⟨i + 2, ?_⟩
    simpa [systemLoop, closePrefix, closed, systemBlock] using hloop

lemma strict_cacheControl
    (hstrict : strictJson e.1 = true) (h : decodeSystemElement codec e = .ok cb) :
    ∀ v ∈ cb.cacheControl, strictJson v = true := by
  obtain ⟨members, hobj, hcb, -⟩ := systemElement_read h
  rw [hobj] at hstrict
  rw [hcb]
  exact strict_of_mem_bound hstrict

variable {blocks : List (List Block)} {cbs : List ContentBlock} {s : String}

/-- The elements of the system array and what is written for them: nothing for an
empty text. -/
lemma system_written {k : Nat} {i : Nat} (hstrict : ∀ v ∈ elems, strictJson v = true)
    (hdecode : (elems.zipIdx k).mapM (decodeSystemElement codec) = .ok cbs)
    (hread : cbs.mapM (systemWithMarker codec) = .ok blocks)
    (hloop : systemLoop i out blocks.flatten = .ok res) :
    ∃ outs : List (Option ContentBlock), res = out ++ outs.filterMap id ∧
      Forall₂ (Written (FlatKept codec) SystemElementPlain) elems
        (outs.map (Option.map marshalJSON)) := by
  induction elems generalizing k cbs blocks i out with
  | nil =>
    cases hdecode
    cases hread
    cases hloop
    exact ⟨[], by simp, .nil⟩
  | cons v vs ih =>
  have hforall := mapM_eq_ok.mp hdecode
  rw [zipIdx_cons, forall₂_cons_left_iff] at hforall
  obtain ⟨cb, cbs, hcb, hcbs, rfl⟩ := hforall
  have hforall := mapM_eq_ok.mp hread
  rw [forall₂_cons_left_iff] at hforall
  obtain ⟨first, blocks, hfirst, hrest, rfl⟩ := hforall
  rw [forall_mem_cons] at hstrict
  obtain ⟨members, hobj, hstated, hkept⟩ :=
    @systemElement_iff codec (v, k) cb cb.text cb.cacheControl hstrict.1 hcb
  have hplain : SystemElementPlain members ↔ OnlyNames systemNames members ∧ cb.text ≠ "" := by
    apply and_congr_right
    intro honly
    rw [hstated honly]
    simp
  by_cases hempty : cb.text = ""
  · rw [systemWithMarker, if_pos hempty] at hfirst
    cases hfirst
    obtain ⟨outs, rfl, houts⟩ := ih hstrict.2 (mapM_eq_ok.mpr hcbs)
      (mapM_eq_ok.mpr hrest) hloop
    refine ⟨none :: outs, rfl, .cons ⟨members, hobj, ?_⟩ houts⟩
    intro h
    exact (hplain.mp h).2 hempty
  obtain ⟨j, hloop⟩ := systemLoop_element hempty
    (strict_cacheControl hstrict.1 hcb) hfirst hloop
  obtain ⟨outs, rfl, houts⟩ := ih hstrict.2 (mapM_eq_ok.mpr hcbs)
    (mapM_eq_ok.mpr hrest) hloop
  refine ⟨some (systemBlock cb.text cb.cacheControl) :: outs, by simp,
    .cons ⟨members, hobj, ?_⟩ houts⟩
  show FlatKept codec v _ ↔ _
  rw [hkept, hplain]
  constructor
  · rintro ⟨honly, -, hne, -⟩
    exact ⟨honly, hne⟩
  · rintro ⟨honly, hne⟩
    exact ⟨honly, rfl, hne, fun c hc => ⟨c, hc, .refl c⟩⟩

/-- Only system blocks. -/
def SystemBlocks (cbs : List ContentBlock) : Prop :=
  ∀ cb ∈ cbs, ∃ text cache, cb = systemBlock text cache

lemma systemBlocks_nil : SystemBlocks [] := by
  simp [SystemBlocks]

/-- Whatever message it is written from, the system array holds system blocks. -/
lemma systemLoop_blocks {blocks : List Block} {i : Nat} (hout : SystemBlocks out)
    (hloop : systemLoop i out blocks = .ok res) : SystemBlocks res := by
  induction blocks generalizing i out with
  | nil =>
    cases hloop
    exact hout
  | cons b blocks ih =>
  rw [systemLoop] at hloop
  split at hloop
  · refine ih ?_ hloop
    rw [SystemBlocks, forall_mem_append, forall_mem_singleton]
    exact ⟨hout, _, none, rfl⟩
  · split at hloop
    · cases hloop
    refine ih ?_ hloop
    unfold closePrefix
    split
    · exact hout
    case h_2 last hlast =>
    rw [SystemBlocks, forall_mem_append, forall_mem_singleton]
    constructor
    · intro cb hcb
      exact hout cb ((dropLast_sublist out).subset hcb)
    · obtain ⟨text, cache, rfl⟩ := hout last (mem_of_getLast? hlast)
      exact ⟨text, _, rfl⟩
  · cases hloop

/-- A string system value in a system array. -/
lemma textArray_system_iff (hblocks : SystemBlocks cbs) :
    ContentKept codec (FlatKept codec) (.str s) (.arr (cbs.map marshalJSON)) ↔
      s ≠ "" ∧ ∃ cache, cbs = [systemBlock s cache] := by
  constructor
  · rintro ((h | ⟨_, _, h, -⟩) | ⟨_, h, block, harray, -, htext⟩)
    · cases sameJson_str.mp h
    · cases h
    · cases h
      obtain ⟨cb, rfl⟩ : ∃ cb, cbs = [cb] := by
        rw [← length_eq_one_iff, ← cbs.length_map marshalJSON]
        rw [arr.inj harray]
        rfl
      obtain ⟨text, cache, rfl⟩ := hblocks cb mem_cons_self
      have hobj : (systemBlock text cache).marshalJSON = .obj block :=
        head_eq_of_cons_eq (arr.inj harray)
      rw [marshalJSON_systemBlock] at hobj
      rw [← obj.inj hobj] at htext
      have htext : nonEmptyString text = some (.str s) :=
        (lookup_structMembers _ "text" (by simp)).symm.trans htext
      rw [nonEmptyString] at htext
      split at htext
      · cases htext
      case isFalse hne =>
      cases htext
      exact ⟨hne, cache, rfl⟩
  · rintro ⟨hne, cache, rfl⟩
    refine .inr ⟨s, rfl, _, rfl, lookup_structMembers _ "type" (by simp [contentBlockFields]), ?_⟩
    refine (lookup_structMembers _ "text" (by simp [contentBlockFields])).trans ?_
    exact if_neg hne

section system

variable (hstrict : strictJson v = true) (hdecode : decodeSystem codec (some v) = .ok cbs)
  (hread : cbs.mapM (systemWithMarker codec) = .ok blocks)
include hstrict hdecode hread

/-- The system value, written from the blocks it was read into. -/
lemma system_own_iff (hloop : systemLoop 0 [] blocks.flatten = .ok res) : (res ≠ [] ∧
      ContentKept codec (FlatKept codec) v (.arr (res.map marshalJSON))) ↔ SystemPlain v := by
  cases v with
  | null | bool _ | num _ | obj _ => cases hdecode
  | str s =>
    cases hdecode
    have hforall := mapM_eq_ok.mp hread
    rw [forall₂_cons_left_iff] at hforall
    obtain ⟨first, _, hfirst, hnil, rfl⟩ := hforall
    rw [forall₂_nil_left_iff.mp hnil] at hloop
    have hplain : SystemPlain (.str s) ↔ s ≠ "" := by simp [SystemPlain]
    rw [textArray_system_iff (systemLoop_blocks systemBlocks_nil hloop), hplain]
    constructor
    · rintro ⟨-, hne, -⟩
      exact hne
    · intro hne
      obtain ⟨j, hloop⟩ := @systemLoop_element codec _ [] res first [] 0 hne (by simp) hfirst
        (by simpa using hloop)
      cases hloop
      exact ⟨by simp, hne, none, rfl⟩
  | arr elems =>
    obtain ⟨outs, rfl, hwritten⟩ := system_written (strictJson_arr.mp hstrict) hdecode hread hloop
    have hkept := forall₂_written_iff hwritten
    have hsent : (outs.map (Option.map marshalJSON)).filterMap id =
        (outs.filterMap id).map marshalJSON := by
      simp [map_filterMap]
    have hplain : SystemPlain (.arr elems) ↔
        elems ≠ [] ∧ ∀ block, .obj block ∈ elems → SystemElementPlain block := by
      simp [SystemPlain]
    rw [hplain, ← hkept, hsent, contentKept_arr_iff, arrayKept_iff (rel_of_written
      flatKept_of_sameJson (strictJson_arr.mp hstrict) hwritten)]
    apply and_congr_left
    intro hall
    rw [Align.ne_nil_iff hall, ne_eq, ne_eq, map_eq_nil_iff]

/-- A system value without a block is not kept, even where the system array is
written from a message. -/
lemma system_empty (hempty : blocks.flatten = [])
    (hblocks : SystemBlocks res) : ¬ (res ≠ [] ∧
      ContentKept codec (FlatKept codec) v (.arr (res.map marshalJSON))) := by
  rintro ⟨hne, hkept⟩
  have htext : ∀ cb ∈ cbs, cb.text = "" := by
    intro cb hcb
    by_contra hcbText
    obtain ⟨bs, hbs, hread⟩ := exists_ok_of_mem hread hcb
    rw [systemWithMarker, if_neg hcbText] at hread
    obtain ⟨_, -, hread⟩ := bind_eq_ok.mp hread
    cases hread
    have hnil := flatten_eq_nil_iff.mp hempty _ hbs
    cases hnil
  cases v with
  | null | bool _ | num _ | obj _ => cases hdecode
  | str s =>
    cases hdecode
    exact ((textArray_system_iff hblocks).mp hkept).1 (htext _ mem_cons_self)
  | arr elems =>
  have helems := strictJson_arr.mp hstrict
  have hdecode' : elems.zipIdx.mapM (decodeSystemElement codec) = .ok cbs := hdecode
  obtain ⟨outs, -, hwritten⟩ := @system_written codec elems [] [] blocks cbs 0 0 helems hdecode'
    hread (by rw [hempty]; rfl)
  rw [contentKept_arr_iff, arrayKept_iff (rel_of_written flatKept_of_sameJson helems hwritten)]
    at hkept
  cases elems with
  | nil =>
    rw [forall₂_nil_left_iff, map_eq_nil_iff] at hkept
    exact hne hkept
  | cons v vs =>
  have hforall := mapM_eq_ok.mp hdecode'
  rw [zipIdx_cons, forall₂_cons_left_iff] at hforall
  obtain ⟨cb, cbs, hcb, -, rfl⟩ := hforall
  obtain ⟨sent, rest, rfl⟩ := exists_cons_of_ne_nil hne
  obtain ⟨text, cache, rfl⟩ := hblocks sent mem_cons_self
  rw [map_cons, forall₂_cons] at hkept
  obtain ⟨members, -, -, hiff⟩ := @systemElement_iff codec (v, 0) cb text cache
    (helems v mem_cons_self) hcb
  exact (hiff.mp hkept.1).2.2.1 (htext cb mem_cons_self)

/-- The system member, whatever the messages are. -/
lemma system_iff {messages : List Message}
    (hsent : marshalSystem (systemMessage blocks.flatten ++ messages) = .ok res) :
    (∃ w, nonEmptySlice (res.map marshalJSON) = some w ∧
      ContentKept codec (FlatKept codec) v w) ↔ SystemPlain v := by
  rw [exists_nonEmptySlice, ne_eq, map_eq_nil_iff]
  cases hflat : blocks.flatten with
  | nil =>
    have hblocks : SystemBlocks res := by
      unfold marshalSystem at hsent
      split at hsent
      · cases hsent
        exact systemBlocks_nil
      · exact systemLoop_blocks systemBlocks_nil hsent
    apply iff_of_false
    · exact system_empty hstrict hdecode hread hflat hblocks
    · rw [← @system_own_iff codec v [] blocks cbs hstrict hdecode hread (by rw [hflat]; rfl)]
      rintro ⟨hne, -⟩
      exact hne rfl
  | cons b bs =>
    have hown : marshalSystem (systemMessage blocks.flatten ++ messages) =
        systemLoop 0 [] blocks.flatten := by
      rw [hflat]
      rfl
    rw [hown] at hsent
    exact system_own_iff hstrict hdecode hread hsent

end system

/-! ## Scalars -/

/-- What `strconv` and `encoding/json` do with numbers: a positive integer written
in decimal denotes the double its text did, and a double is written as a number
that denotes it. -/
structure NumberLaws (codec : WireCodec) : Prop where
  int : ∀ lexeme n, codec.parseInt lexeme = .ok n → 1 ≤ n →
    ∃ bits, codec.parseFloat lexeme = .ok bits ∧ codec.parseFloat (toString n) = .ok bits
  float : ∀ lexeme bits w, codec.parseFloat lexeme = .ok bits → codec.encodeFloat bits = .ok w →
    ∃ lexeme', w = .num lexeme' ∧ codec.parseFloat lexeme' = .ok bits

lemma decodeNumber_singleton {α : Type} {parse : String → Except String α}
    {o : Option α} (h : decodeNumber parse [v] = .ok o) :
    v = .null ∧ o = none ∨ ∃ lexeme a, v = .num lexeme ∧ parse lexeme = .ok a ∧ o = some a := by
  obtain ⟨o', ho', h⟩ := bind_eq_ok.mp h
  cases h
  cases v with
  | null =>
    cases ho'
    exact .inl ⟨rfl, rfl⟩
  | num lexeme =>
    obtain ⟨a, hparse, rfl⟩ := map_eq_ok.mp ho'
    exact .inr ⟨lexeme, a, rfl, hparse, rfl⟩
  | bool _ | str _ | arr _ | obj _ => cases ho'

section scalars

variable {v : Json}

lemma string_iff (h : decodeString "" [v] = .ok s) :
    (∃ w, nonEmptyString s = some w ∧ SameJson codec v w) ↔ ¬ Omitted v := by
  have homit := @omitempty_iff codec s (some v) h
  simpa using homit

lemma int_iff {o : Option Int} (laws : NumberLaws codec)
    (h : decodeNumber codec.parseInt [v] = .ok o) (hpos : ∀ n ∈ o, 1 ≤ n) :
    (∃ w, o.map encodeInt = some w ∧ SameJson codec v w) ↔ v ≠ .null := by
  rcases decodeNumber_singleton h with ⟨rfl, rfl⟩ | ⟨lexeme, n, rfl, hparse, rfl⟩
  · simp
  obtain ⟨bits, hbits, hback⟩ := laws.int lexeme n hparse (hpos n rfl)
  apply iff_of_true
  · exact ⟨_, rfl, .num hbits hback⟩
  · simp

lemma float_iff {o : Option UInt64} {written : Option Json} (laws : NumberLaws codec)
    (h : decodeNumber codec.parseFloat [v] = .ok o)
    (hwritten : encodeOptFloat codec o = .ok written) :
    (∃ w, written = some w ∧ SameJson codec v w) ↔ v ≠ .null := by
  rcases decodeNumber_singleton h with ⟨rfl, rfl⟩ | ⟨lexeme, bits, rfl, hparse, rfl⟩
  · cases hwritten
    simp
  obtain ⟨w, hencode, rfl⟩ := map_eq_ok.mp hwritten
  obtain ⟨lexeme', rfl, hback⟩ := laws.float lexeme bits w hparse hencode
  apply iff_of_true
  · exact ⟨_, rfl, .num hparse hback⟩
  · simp

lemma bool_iff {b : Bool} (h : decodeBool [v] = .ok b) :
    (∃ w, trueOnly b = some w ∧ SameJson codec v w) ↔ v = .bool true := by
  cases v with
  | null =>
    cases h
    simp [trueOnly]
  | bool c =>
    cases h
    cases b with
    | false => simp [trueOnly]
    | true =>
    apply iff_of_true
    · exact ⟨_, rfl, .refl _⟩
    · rfl
  | num _ | str _ | arr _ | obj _ => cases h

/-- A null among the strings is read as the empty string. -/
lemma forall₂_strings_iff {strings : List String}
    (h : elems.mapM (decodeElemString "") = .ok strings) :
    Forall₂ (SameJson codec) elems (stringsJson strings) ↔ .null ∉ elems := by
  have hforall := mapM_eq_ok.mp h
  clear h
  unfold stringsJson
  induction hforall with
  | nil => simp
  | @cons v s vs strings hfirst _ ih =>
  rw [map_cons, forall₂_cons, mem_cons, not_or]
  refine and_congr ?_ ih
  rcases (@decodeString_toList (some v) "" s).mp hfirst with heq | ⟨heq | heq, -⟩
  · cases heq
    exact iff_of_true (.refl _) (by simp)
  · cases heq
  · cases heq
    simp [sameJson_null]

lemma strings_iff {strings : List String} (h : decodeSlice "" decodeElemString [v] = .ok strings) :
    (∃ w, nonEmptySlice (stringsJson strings) = some w ∧ SameJson codec v w) ↔
      v ≠ .null ∧ ∀ elems, v = .arr elems → elems ≠ [] ∧ .null ∉ elems := by
  rcases decodeSlice_singleton h with ⟨rfl, rfl⟩ | ⟨elems, rfl, hdecode⟩
  · simp [nonEmptySlice, stringsJson]
  rw [exists_nonEmptySlice, sameJson_arr_iff, forall₂_strings_iff hdecode]
  simp [Align.ne_nil_iff (mapM_eq_ok.mp hdecode), stringsJson]

end scalars

end ToranaEdge.Format.Anthropic
