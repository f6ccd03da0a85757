import ToranaEdge.Format.Fidelity.Request
import ToranaEdge.Format.GeminiFidelity.Tools
import ToranaEdge.Format.GeminiPairing

/-! # Whole Gemini bodies

`unmarshalBody` and `Marshal` one after the other, on the bare wire and in the
envelope of Code Assist. -/

namespace ToranaEdge.Format.Gemini

open Engine Attempt List AList
open Anthropic (OnlyNames Omitted strict_of_mem_lookup)

variable {codec : GeminiCodec} {messages : List Message}

/-! ## Messages -/

/-- Every content gives a message, and those without blocks are left out. -/
lemma projectContents_spec {cs : List (GeminiContent × Nat)} {r r' : List Message × Synthesized}
    (h : cs.foldlM (projectContent codec) r = .ok r') :
    ∃ ms, r'.1 = r.1 ++ ms.filter (fun m => !m.blocks.isEmpty) ∧
      Forall₂ (fun c (m : Message) => ∃ ids ids',
        geminiContentToMessage codec ids c = .ok (m, ids')) cs ms := by
  induction cs generalizing r with
  | nil =>
    cases h
    exact ⟨[], by simp, .nil⟩
  | cons c cs ih =>
  obtain ⟨r₁, hfirst, hrest⟩ := bind_eq_ok.mp h
  obtain ⟨⟨m, ids⟩, hmessage, hfirst⟩ := bind_eq_ok.mp hfirst
  cases hfirst
  obtain ⟨ms, hms, hall⟩ := ih hrest
  refine ⟨m :: ms, ?_, .cons ⟨r.2, ids, hmessage⟩ hall⟩
  rw [hms]
  cases hempty : m.blocks.isEmpty <;> simp [hempty]

/-- The contents of a body and the messages they became. -/
lemma contentsRead {elems : List Json} {contents : List GeminiContent}
    (hstrict : ∀ v ∈ elems, strictJson v = true)
    (hdecode : elems.mapM (decodeContent codec) = .ok contents)
    (h : contentMessages codec contents = .ok messages) :
    ∃ ms, messages = ms.filter (fun m => !m.blocks.isEmpty) ∧
      Forall₂ (fun v m => ∃ i, ContentRead codec i v m) elems ms := by
  obtain ⟨r, hr, rfl⟩ := map_eq_ok.mp h
  obtain ⟨ms, hms, hall⟩ := projectContents_spec hr
  refine ⟨ms, by rw [hms]; rfl, ?_⟩
  have hdecoded : Forall₂ (fun v (c : GeminiContent × Nat) => strictJson v = true ∧
      decodeContent codec v = .ok c.1) elems contents.zipIdx := by
    have hforall := mapM_eq_ok.mp hdecode
    rw [← zipIdx_map_fst 0 contents, forall₂_map_right_iff] at hforall
    exact (forall₂_and_left _ _).mpr ⟨hstrict, hforall⟩
  exact Align.forall₂_trans (fun v c m hv ⟨ids, ids', hm⟩ =>
    ⟨c.2, contentRead_of_decode hv.1 hv.2 hm⟩) hdecoded hall

variable {codeAssist : Bool}

/-- What is written for the messages that are left is what is written for all. -/
lemma images_of_filter {codec : Codec} {ms : List Message} {images : List (List Json)}
    (h : (ms.filter fun m => !m.blocks.isEmpty).mapM (messageContents codec codeAssist) =
      .ok images) : ∃ all, all.flatten = images.flatten ∧ Forall₂ (fun (m : Message) image =>
      if m.blocks = [] then image = [] else messageContents codec codeAssist m = .ok image)
        ms all := by
  induction ms generalizing images with
  | nil =>
    cases h
    exact ⟨[], rfl, .nil⟩
  | cons m ms ih =>
  by_cases hempty : m.blocks = []
  · rw [filter_cons_of_neg (by simp [hempty])] at h
    obtain ⟨all, hflatten, hall⟩ := ih h
    refine ⟨[] :: all, hflatten, .cons ?_ hall⟩
    rw [if_pos hempty]
  rw [filter_cons_of_pos (by simpa using hempty), mapM_eq_ok, forall₂_cons_left_iff] at h
  obtain ⟨image, rest, himage, hrest, rfl⟩ := h
  obtain ⟨all, hflatten, hall⟩ := ih (mapM_eq_ok.mpr hrest)
  refine ⟨image :: all, ?_, .cons ?_ hall⟩
  · rw [flatten_cons, flatten_cons, hflatten]
  · rwa [if_neg hempty]

lemma buildContents_system {codec : Codec} {parts : Option (List WirePart)}
    {system : List Message} {contents : List Json} (hsystem : systemMessage parts = .ok system)
    (h : buildContents codec codeAssist (system ++ messages) = .ok contents) :
    ∃ images, messages.mapM (messageContents codec codeAssist) = .ok images ∧
      contents = images.flatten := by
  obtain ⟨images, himages, h⟩ := bind_eq_ok.mp h
  cases h
  obtain ⟨before, after, hbefore, hafter, rfl⟩ := mapM_append_eq_ok.mp himages
  refine ⟨after, hafter, ?_⟩
  have hnone : before.flatten = [] := by
    rw [flatten_eq_nil_iff]
    intro image himage
    obtain ⟨m, hm, hsent⟩ := exists_of_mem_mapM hbefore himage
    obtain ⟨blocks, -, hsystem⟩ := bind_eq_ok.mp hsystem
    cases hsystem
    split at hm
    · cases hm
    rw [mem_singleton.mp hm] at hsent
    cases hsent
    rfl
  rw [flatten_append, hnone, nil_append]

/-! ## What is sent -/

lemma lookup_stripGeneration {inner out : OptionalJSONObject}
    (h : stripGenerationCanonicalMembers inner = .ok out) {key : String}
    (hkey : key ≠ "generationConfig") : (out.getD ∅).lookup key = (inner.getD ∅).lookup key := by
  unfold stripGenerationCanonicalMembers at h
  split at h
  · cases h
    rfl
  split at h
  · cases h
  rcases ite_eq_iff.mp h with ⟨-, h⟩ | ⟨-, h⟩
  · cases h
    exact lookup_deleteMember_ne inner hkey
  · cases h
    exact lookup_setMember_ne inner _ hkey

variable {body : Json} {ext : OptionalJSONObject}

/-- The extensions hold what is no canonical member. -/
lemma lookup_innerExtensions (h : innerExtensions body = .ok ext) :
    ∃ members, body = .obj members ∧ strictJson body = true ∧ ∀ key, key ≠ "generationConfig" →
        (ext.getD ∅).lookup key = if key ∈ innerCanonical then none else members.dlookup key := by
  obtain ⟨inner, hinner, h⟩ := bind_eq_ok.mp h
  unfold parseOptionalJSONObjectExcluding at hinner
  split at hinner
  case isFalse => cases hinner
  case isTrue hstrict =>
  split at hinner
  case h_2 => cases hinner
  case h_1 members =>
  cases hinner
  refine ⟨members, rfl, hstrict, fun key hkey => ?_⟩
  rw [lookup_stripGeneration h hkey]
  exact (lookup_withoutMembers _ _ key).trans (by rw [lookup_toAList])

lemma wrappedRequest_json (out : Members) :
    wrappedRequest out.json = match out.lookup "request" with
      | some (.obj members) => some (.obj members)
      | _ => none := by
  show (match (toAList out.entries).lookup "request" with
    | some (.obj members) => some (Json.obj members)
    | _ => none) = _
  rw [lookup_toAList]
  rfl

/-- The contents and the tools of what is sent. -/
structure SentAs (codec : Codec) (chat : ChatRequest) (out : Members) (elems : List Json) :
    Prop where
  built : buildContents codec chat.codeAssist chat.messages = .ok elems
  contents : (requestOf out.json).dlookup "contents" = some (sliceJson elems)
  tools : (requestOf out.json).dlookup "tools" = nonEmptySlice (buildTools chat.tools)

variable {out : Members} {chat : ChatRequest}

lemma sentAs_bare {codec : Codec} (hbare : chat.codeAssist = false)
    (hcanonical : ∀ key ∈ innerCanonical, (chat.providerExtensions.getD ∅).lookup key = none)
    (hrequest : ∀ members, (chat.providerExtensions.getD ∅).lookup "request" ≠ some (.obj members))
    (h : marshal codec chat = .ok out) : ∃ elems, SentAs codec chat out elems := by
  obtain ⟨hlookup, ⟨fields, hown⟩, -⟩ := gemini_spec hbare h
  simp only [requestMember_eq hown] at hlookup
  obtain ⟨sys, -, elems, helems, safety, -, hfields⟩ := bind₃_eq_ok.mp hown
  cases hfields
  -- what the extensions hold under `request` is no object, so the body is bare again
  have hwrapped : wrappedRequest out.json = none := by
    rw [wrappedRequest_json, hlookup "request" (by decide)]
    cases hext : (chat.providerExtensions.getD ∅).lookup "request" with
    | none => rfl
    | some v =>
    cases v with
    | obj members => exact absurd hext (hrequest members)
    | null | bool _ | num _ | str _ | arr _ => rfl
  have hmembers : requestOf out.json = out.entries := by
    rw [requestOf, hwrapped]
    rfl
  refine ⟨elems, by rwa [hbare], ?_, ?_⟩
  · rw [hmembers]
    refine (hlookup "contents" (by decide)).trans ?_
    rw [hcanonical "contents" (by decide)]
    rfl
  · rw [hmembers]
    refine (hlookup "tools" (by decide)).trans ?_
    rw [hcanonical "tools" (by decide)]
    rfl

lemma lookup_setOrDelete_ne (obj : OptionalJSONObject) {key other : String} (value : Option Json)
    (hkey : other ≠ key) :
    ((setOrDelete obj key value).getD ∅).lookup other = (obj.getD ∅).lookup other := by
  cases value with
  | none => exact lookup_deleteMember_ne obj hkey
  | some v => exact lookup_setMember_ne obj v hkey

lemma lookup_setOrDelete (obj : OptionalJSONObject) (key : String) (value : Option Json) :
    ((setOrDelete obj key value).getD ∅).lookup key = value := by
  cases value with
  | none =>
    cases obj with
    | none => rfl
    | some members => exact lookup_erase key members
  | some v => exact lookup_insert (obj.getD ∅)

lemma sentAs_wrapped {codec : Codec}
    (hwrapped : chat.codeAssist = true) (hformat : chat.outputFormat = none)
    (h : marshal codec chat = .ok out) : ∃ elems, SentAs codec chat out elems := by
  obtain ⟨-, -, raw, hraw, happly⟩ := bind₂_eq_ok.mp h
  rw [applyOutputFormat, hformat] at happly
  cases happly
  unfold marshalBody at hraw
  split at hraw
  · cases hraw
  obtain ⟨-, -, hbody⟩ := bind_eq_ok.mp hraw
  rw [if_pos hwrapped] at hbody
  obtain ⟨sys, -, elems, helems, hbody⟩ := bind₂_eq_ok.mp hbody
  rcases ite_eq_iff.mp hbody with ⟨-, hbody⟩ | ⟨-, hbody⟩
  · cases hbody
  obtain ⟨⟨⟩, -, extra, -, configured, -, hbody⟩ := bind₃_eq_ok.mp hbody
  cases hbody
  refine ⟨elems, by rwa [hwrapped], ?_, ?_⟩
  · show AList.lookup "contents" _ = _
    rw [lookup_setOrDelete_ne _ _ (by decide), lookup_setOrDelete_ne _ _ (by decide)]
    exact lookup_insert _
  · exact lookup_setOrDelete _ "tools" _

/-! ## What is read -/

/-- The request a body was read into. -/
structure BodyRead (codec : GeminiCodec) (body : Json) (members : Entries) (chat : ChatRequest) :
    Prop where
  request : (wrappedRequest body).getD body = .obj members
  strict : strictJson (.obj members) = true
  codeAssist : chat.codeAssist = (wrappedRequest body).isSome
  messages : ∃ parts system contents messages, systemMessage parts = .ok system ∧
    decodeSlice ⟨"", []⟩ (fun _ => decodeContent codec.toWireCodec)
      (bound codec.toWireCodec requestNames members "contents") = .ok contents ∧
    contentMessages codec contents = .ok messages ∧ chat.messages = system ++ messages
  tools : ∃ slices, decodeSlice {} (decodeTool codec.toWireCodec)
      (bound codec.toWireCodec requestNames members "tools") = .ok slices ∧
    (slices.flatMap Slice.values).mapM (unmarshalTool codec) = .ok chat.tools
  outputFormat : chat.outputFormat = none
  extensions : wrappedRequest body = none →
    (∀ key ∈ innerCanonical, (chat.providerExtensions.getD ∅).lookup key = none) ∧
      ∀ members, (chat.providerExtensions.getD ∅).lookup "request" ≠ some (.obj members)

/-- The topology: the request is an object, strictly, and on the bare wire its
extensions hold no canonical member and no request. -/
lemma topology_spec {model : String} (h : topology body = .ok (codeAssist, model, ext)) :
    codeAssist = (wrappedRequest body).isSome ∧
      (∃ members, (wrappedRequest body).getD body = .obj members ∧
        strictJson (.obj members) = true) ∧
      (wrappedRequest body = none → (∀ key ∈ innerCanonical, (ext.getD ∅).lookup key = none) ∧
        ∀ members, (ext.getD ∅).lookup "request" ≠ some (.obj members)) := by
  unfold topology at h
  cases hwrapped : wrappedRequest body with
  | some inner =>
    rw [hwrapped] at h
    obtain ⟨env, henv, hpair⟩ := map_eq_ok.mp h
    obtain ⟨outer, -, henv⟩ := bind_eq_ok.mp (context_eq_ok.mp henv)
    obtain ⟨extra, hextra, -⟩ := bind_eq_ok.mp henv
    obtain ⟨members, rfl, hstrict, -⟩ := lookup_innerExtensions hextra
    cases hpair
    exact ⟨rfl, ⟨members, rfl, hstrict⟩, fun hnone => nomatch hnone⟩
  | none =>
  rw [hwrapped] at h
  obtain ⟨inner, hinner, hpair⟩ := map_eq_ok.mp h
  obtain ⟨members, rfl, hstrict, hlookup⟩ := lookup_innerExtensions (context_eq_ok.mp hinner)
  cases hpair
  have hnormal : ∀ key, ((normalizeExtensionObject inner).getD ∅).lookup key =
      (inner.getD ∅).lookup key := by
    intro key
    cases inner with
    | none => rfl
    | some inner => exact Anthropic.lookup_normalizeExtensionObject inner key
  refine ⟨rfl, ⟨members, rfl, hstrict⟩, fun _ => ⟨fun key hkey => ?_, fun request => ?_⟩⟩
  · have hconfig : key ≠ "generationConfig" := by
      rintro rfl
      exact absurd hkey (by decide)
    rw [hnormal, hlookup key hconfig, if_pos hkey]
  · rw [hnormal, hlookup _ (by decide), if_neg (by decide)]
    intro hrequest
    unfold wrappedRequest at hwrapped
    simp only [decodeMap, Option.bind_some, envelopeRequestMember, lookup_toAList,
      hrequest] at hwrapped
    cases hwrapped

lemma read_of_unmarshalBody
    (h : unmarshalBody codec body = .ok chat) : ∃ members, BodyRead codec body members chat := by
  unfold unmarshalBody at h
  split at h
  · cases h
  obtain ⟨req, hreq, ⟨⟩, -, safety, -, h⟩ := bind₃_eq_ok.mp h
  obtain ⟨⟨codeAssist, model, ext⟩, htopology, system, hsystem, messages, hmessages, h⟩ :=
      bind₃_eq_ok.mp h
  obtain ⟨tools, htools, h⟩ := bind_eq_ok.mp h
  cases h
  obtain ⟨hcode, ⟨members, hmembers, hstrict⟩, hext⟩ := topology_spec htopology
  have hreq := context_eq_ok.mp hreq
  rw [hmembers] at hreq
  obtain ⟨instruction, -, contents, hcontents, slices, hslices, hreq⟩ := bind₃_eq_ok.mp hreq
  obtain ⟨config, -, settings, -, hreq⟩ := bind₂_eq_ok.mp hreq
  cases hreq
  exact ⟨members, hmembers, hstrict, hcode,
    ⟨instruction, system, contents, messages, hsystem, hcontents, hmessages, rfl⟩,
    ⟨slices, hslices, htools⟩, rfl, hext⟩

lemma BodyRead.sentAs {members : Entries}
    (h : BodyRead codec body members chat) (hmarshal : marshal codec chat = .ok out) :
    ∃ elems, SentAs codec chat out elems := by
  cases hwrapped : wrappedRequest body with
  | some inner =>
    exact sentAs_wrapped (by rw [h.codeAssist, hwrapped]; rfl) h.outputFormat hmarshal
  | none =>
  obtain ⟨hcanonical, hrequest⟩ := h.extensions hwrapped
  exact sentAs_bare (by rw [h.codeAssist, hwrapped]; rfl) hcanonical hrequest hmarshal

/-- **A Gemini body through the engine.**  No member of its contents and of its tools
is lost exactly when it is plain. -/
theorem unmarshalBody_marshal_survives_iff (laws : TextLaws codec) {body : Json}
    {chat : ChatRequest} {out : Members} (hspelled : SpelledAlike codec.toWireCodec body)
    (hunmarshal : unmarshalBody codec body = .ok chat)
    (hmarshal : marshal codec.toCodec chat = .ok out) :
    Survives codec.toWireCodec body out ↔ Plain codec.toWireCodec body := by
  obtain ⟨members, hread⟩ := read_of_unmarshalBody hunmarshal
  have hmembers : requestOf body = members := by
    rw [requestOf, hread.request]
    rfl
  obtain ⟨elems, hsent⟩ := hread.sentAs hmarshal
  have hcontents : ∀ vs, (requestOf body).dlookup "contents" = some (.arr vs) →
      (Forall₂ (ContentKept codec.toWireCodec) vs
          (elemsOf ((requestOf out.json).dlookup "contents")) ↔ ∀ v ∈ vs, ∃ c, v = .obj c ∧
        ContentPlain codec.toWireCodec (wrappedRequest body).isSome c) := by
    intro vs hvs
    have halike := hspelled.contents _ hvs
    rw [hmembers] at hvs halike
    rw [hsent.contents, elemsOf_sliceJson]
    obtain ⟨parts, system, contents, messages, hsystem, hdecode, hmessages, hchat⟩ := hread.messages
    rw [halike] at hdecode
    have hstrict := strictJson_arr.mp (strict_of_mem_lookup hread.strict _ hvs)
    obtain ⟨ms, rfl, hms⟩ := contentsRead hstrict (decodeSlice_arr hdecode) hmessages
    have hbuilt := hsent.built
    rw [hchat] at hbuilt
    obtain ⟨images, himages, rfl⟩ := buildContents_system hsystem hbuilt
    obtain ⟨all, hflatten, hall⟩ := images_of_filter himages
    rw [← hflatten, ← hread.codeAssist]
    exact contents_iff laws hstrict
      (Align.forall₂_trans (fun v m image ⟨i, hm⟩ himage => ⟨i, m, hm, himage⟩) hms hall)
  have htools : ∀ vs, (requestOf body).dlookup "tools" = some (.arr vs) →
      (ToolsKept codec.toWireCodec vs (elemsOf ((requestOf out.json).dlookup "tools")) ↔
        ∀ tool ∈ vs, ToolPlain tool) := by
    intro vs hvs
    have halike := hspelled.tools _ hvs
    rw [hmembers] at hvs halike
    rw [hsent.tools, elemsOf_nonEmptySlice]
    obtain ⟨slices, hdecode, hts⟩ := hread.tools
    rw [halike] at hdecode
    exact tools_iff (strictJson_arr.mp (strict_of_mem_lookup hread.strict _ hvs))
      (decodeSlice_arr hdecode) hts
  exact ⟨fun h => ⟨fun vs hvs => (hcontents vs hvs).mp (h.contents vs hvs),
      fun vs hvs => (htools vs hvs).mp (h.tools vs hvs)⟩,
    fun h => ⟨fun vs hvs => (hcontents vs hvs).mpr (h.contents vs hvs),
      fun vs hvs => (htools vs hvs).mpr (h.tools vs hvs)⟩⟩

lemma textLaws_oneHash : TextLaws oneHash where
  quoted s v h := by
    have hread : readAll (String.ofList (spell (.str s))) = .ok v := h
    rw [readAll_spell] at hread
    cases hread
    rfl
  spelled i j members _ := by
    refine ⟨?_, readAll_spell _⟩
    intro hempty
    have hlist : spell (.obj members) = [] := by
      have hlist := congrArg String.toList hempty
      rwa [oneHash, String.toList_ofList] at hlist
    cases hlist

def runCall : Entries :=
  [⟨"name", .str "run"⟩, ⟨"args", .obj [⟨"path", .str "a"⟩]⟩, ⟨"id", .str "c1"⟩]

def runResponse : Entries :=
  [⟨"name", .str "run"⟩, ⟨"response", .obj [⟨"output", .str "ok"⟩]⟩, ⟨"id", .str "c1"⟩]

/-- A question, the call of a tool, and its response. -/
def toolTurns : Json :=
  .obj [
    ⟨"contents", .arr [
      .obj [⟨"role", .str "user"⟩, ⟨"parts", .arr [.obj [⟨"text", .str "hi"⟩]]⟩],
      .obj [⟨"role", .str "model"⟩, ⟨"parts", .arr [
        .obj [⟨"functionCall", .obj runCall⟩, ⟨"thoughtSignature", .str "s"⟩]]⟩],
      .obj [⟨"role", .str "user"⟩, ⟨"parts", .arr [.obj [⟨"functionResponse", .obj runResponse⟩]]⟩]]⟩,
    ⟨"tools", .arr [.obj [⟨"functionDeclarations", .arr [
      .obj [⟨"name", .str "run"⟩, ⟨"parameters", .obj [⟨"type", .str "object"⟩]⟩]]⟩]]⟩]

lemma plain_call : PartPlain oneHash
    [⟨"functionCall", .obj runCall⟩, ⟨"thoughtSignature", .str "s"⟩] := by
  refine ⟨⟨?_, by simp⟩, ?_⟩
  · rintro _ ⟨⟩
    exact ⟨"s", rfl, by decide, rfl⟩
  · refine ⟨runCall, rfl, ?_⟩
    simp [CallPlain, OnlyNames, runCall, funcCallNames, Omitted]

lemma plain_response : UserPartPlain oneHash [⟨"functionResponse", .obj runResponse⟩] := by
  refine ⟨⟨⟨by simp, by simp⟩, ?_⟩, by simp⟩
  refine ⟨runResponse, rfl, ?_⟩
  simp [ResponsePlain, runResponse, Omitted]

lemma plain_text : UserPartPlain oneHash [⟨"text", .str "hi"⟩] := by
  refine ⟨⟨⟨by simp, by simp⟩, ?_⟩, by simp⟩
  rw [ArmPlain]
  simp

lemma plain_toolTurns : Plain oneHash toolTurns where
  contents := by
    rintro _ ⟨⟩
    simp only [forall_mem_cons, not_mem_nil, false_imp_iff, implies_true, and_true,
      Json.obj.injEq, exists_eq_left']
    refine ⟨⟨by simp [OnlyNames, contentNames], _, rfl, by simp, .inl ⟨rfl, ?_⟩⟩,
      ⟨by simp [OnlyNames, contentNames], _, rfl, by simp, .inr ⟨rfl, ?_, .call, ?_⟩⟩,
      ⟨by simp [OnlyNames, contentNames], _, rfl, by simp, .inl ⟨rfl, ?_⟩⟩⟩
    · simpa [entriesOf] using plain_text
    · simpa [entriesOf] using plain_call
    · simp [partSort, entriesOf]
    · simpa [entriesOf] using plain_response
  tools := by
    rintro _ ⟨⟩
    simp [ToolPlain, DeclarationPlain, OnlyNames, funcDeclNames]

lemma spelledAlike_toolTurns : SpelledAlike oneHash toolTurns := by
  refine ⟨?_, ?_⟩ <;> rintro _ ⟨⟩ <;> rfl

theorem unmarshalBody_marshal_survives_iff_toolTurns : ∃ chat out,
    unmarshalBody oneHash toolTurns = .ok chat ∧
      marshal oneHash.toCodec chat = .ok out ∧ Plain oneHash.toWireCodec toolTurns ∧
      Survives oneHash.toWireCodec toolTurns out := by
  obtain ⟨chat, out, hchat, hout⟩ := exists_of_bind_isOk (x := unmarshalBody oneHash toolTurns)
    (f := marshal oneHash.toCodec) (by decide +kernel)
  exact ⟨chat, out, hchat, hout, plain_toolTurns, (unmarshalBody_marshal_survives_iff
    textLaws_oneHash spelledAlike_toolTurns hchat hout).mpr plain_toolTurns⟩

/-- A question with the search tool of the provider. -/
def searchBody : Json :=
  .obj [
    ⟨"contents", .arr [.obj [⟨"role", .str "user"⟩, ⟨"parts", .arr [.obj [⟨"text", .str "hi"⟩]]⟩]]⟩,
    ⟨"tools", .arr [.obj [⟨"googleSearch", .obj []⟩]]⟩]

/-- **The search tool is lost.** -/
theorem searchTool_lost : ∃ chat out,
    unmarshalBody oneHash searchBody = .ok chat ∧ marshal oneHash.toCodec chat = .ok out ∧
      ¬ Survives oneHash.toWireCodec searchBody out := by
  obtain ⟨chat, out, hchat, hout⟩ := exists_of_bind_isOk (x := unmarshalBody oneHash searchBody)
    (f := marshal oneHash.toCodec) (by decide +kernel)
  refine ⟨chat, out, hchat, hout, fun h => ?_⟩
  obtain ⟨members, hread⟩ := read_of_unmarshalBody hchat
  obtain ⟨elems, hsent⟩ := hread.sentAs hout
  have hkept := (h.tools [.obj [⟨"googleSearch", .obj []⟩]] rfl).1
  rw [hsent.tools, elemsOf_nonEmptySlice] at hkept
  obtain ⟨members, hmembers, honly⟩ :=
    (toolMembers_iff chat.tools _).mp (hkept _ (mem_singleton_self _))
  cases hmembers
  exact absurd (honly _ (mem_singleton_self _)).1 (by decide)

end ToranaEdge.Format.Gemini
