import ToranaEdge.Format.Fidelity.Request
import ToranaEdge.Format.OpenAIFidelity.Messages

/-! # Whole Chat Completions bodies -/

namespace ToranaEdge.Format.OpenAI

open Engine Attempt List Align
open Anthropic (OnlyNames Omitted strict_of_mem_lookup lookup_normalizeExtensionObject)

variable {codec : WireCodec}

/-- A message of a body, and what is written for it. -/
def MessageThrough (codec : WireCodec) (v w : Json) : Prop :=
  ∃ cm m, decodeStruct (decodeChatMessage codec) {} [v] = .ok cm ∧
    convertChatMessage codec cm = .ok m ∧ marshalChatMessage codec.toCodec m = .ok w

lemma convertChatMessage_role {cm : ChatMessage} {m : Message}
    (h : convertChatMessage codec cm = .ok m) : m.role = cm.role := by
  obtain ⟨blocks, -, h⟩ := bind_eq_ok.mp h
  rcases ite_eq_iff.mp h with ⟨-, h⟩ | ⟨-, h⟩
  · obtain ⟨blocks, -, h⟩ := bind_eq_ok.mp h
    cases h
    rfl
  · cases h
    rfl

lemma messageThrough_iff (laws : FoldLaws codec) {v w : Json} (hstrict : strictJson v = true)
    (h : MessageThrough codec v w) :
    MessageKept codec v w ↔ ∃ message, v = .obj message ∧ MessagePlain codec message := by
  obtain ⟨cm, m, hdecode, hconvert, hmarshal⟩ := h
  rcases decodeStruct_toList (o := some v) hdecode v rfl with ⟨rfl, -⟩ | ⟨message, rfl, hmessage⟩
  · refine iff_of_false ?_ (by simp)
    rintro ⟨_, _, hnull, -⟩
    cases hnull
  obtain ⟨mm, hloop, hmarshal⟩ := bind_eq_ok.mp hmarshal
  cases hmarshal
  simp only [Json.obj.injEq, exists_eq_left']
  rw [convertChatMessage_role hconvert]
  exact message_iff laws hstrict hmessage (messageSent_of_convert hconvert hloop)

/-- The request a body was read into. -/
structure BodyRead (codec : WireCodec) (body : Entries) (chat : ChatRequest) : Prop where
  strict : strictJson (.obj body) = true
  messages : ∃ cms, decodeSlice {} (fun m v => decodeStruct (decodeChatMessage codec) m [v])
      (bound codec requestNames body "messages") = .ok cms ∧
    cms.mapM (convertChatMessage codec) = .ok chat.messages
  tools : ∃ tds, decodeSlice {} (fun t v => decodeStruct (decodeToolDef codec) t [v])
      (bound codec requestNames body "tools") = .ok tds ∧
    tds.mapM (unmarshalTool codec) = .ok chat.tools
  extensions : ∀ key ∈ requestNames, (chat.providerExtensions.getD ∅).lookup key = none

variable {chat : ChatRequest} {body : Entries}

lemma read_of_unmarshalChat (h : unmarshalChat codec (.obj body) = .ok chat) :
    BodyRead codec body chat := by
  obtain ⟨cr, hcr, h⟩ := bind_eq_ok.mp h
  have hcr := context_eq_ok.mp hcr
  obtain ⟨⟨⟩, -, stop, -, ext, hext, h⟩ := bind₃_eq_ok.mp h
  obtain ⟨messages, hmessages, tools, htools, h⟩ := bind₂_eq_ok.mp h
  cases h
  obtain ⟨model, -, cms, hcms, tds, htds, hcr⟩ := bind₃_eq_ok.mp hcr
  obtain ⟨stream, -, maxTokens, -, temperature, -, hcr⟩ := bind₃_eq_ok.mp hcr
  obtain ⟨topP, -, rawStop, -, hcr⟩ := bind₂_eq_ok.mp hcr
  cases hcr
  unfold parseOptionalJSONObjectExcluding at hext
  split at hext
  case isFalse => cases hext
  case isTrue hstrict =>
  cases hext
  refine ⟨hstrict, ⟨cms, hcms, hmessages⟩, ⟨tds, htds, htools⟩, fun key hkey => ?_⟩
  rw [lookup_normalizeExtensionObject, lookup_withoutMembers, if_pos hkey]

/-- The messages and the tools of what is written. -/
lemma sent_of_marshalChat {codec : Codec} {out : Members}
    (hext : ∀ key ∈ requestNames, (chat.providerExtensions.getD ∅).lookup key = none)
    (h : marshalChat codec chat = .ok out) :
    ∃ messages, chat.messages.mapM (marshalChatMessage codec) = .ok messages ∧
      out.lookup "messages" = some (.arr messages) ∧
      out.lookup "tools" = nonEmptySlice (chat.tools.map marshalTool) := by
  obtain ⟨fields, hfields, h⟩ := bind_eq_ok.mp h
  have hown : requestFields codec .openai chat = .ok fields := hfields
  have hlookup : ∀ key ∈ requestNames, out.lookup key = (fields.lookup key).join := by
    intro key hkey
    rw [lookup_spliced hown h, requestMember_eq hown, hext key hkey, Option.none_or]
  obtain ⟨messages, hmessages, temperature, -, topP, -, hfields⟩ := bind₃_eq_ok.mp hfields
  cases hfields
  refine ⟨messages, hmessages, hlookup "messages" (by decide), ?_⟩
  rw [hlookup "tools" (by decide)]
  rfl

lemma messages_iff (laws : FoldLaws codec) {vs ws : List Json} (hspelled : SpelledAlike codec body)
    (hread : BodyRead codec body chat) (hvs : body.dlookup "messages" = some (.arr vs))
    (hws : chat.messages.mapM (marshalChatMessage codec) = .ok ws) :
    Forall₂ (MessageKept codec) vs ws ↔
      ∀ v ∈ vs, ∃ message, v = .obj message ∧ MessagePlain codec message := by
  obtain ⟨cms, hdecode, hconvert⟩ := hread.messages
  rw [hspelled.messages _ hvs] at hdecode
  have hstrict := strictJson_arr.mp (strict_of_mem_lookup hread.strict _ hvs)
  have hwritten : Forall₂ (fun cm w => ∃ m, convertChatMessage codec cm = .ok m ∧
      marshalChatMessage codec m = .ok w) cms ws :=
    forall₂_trans (fun _ m _ hm hw => ⟨m, hm, hw⟩) (mapM_eq_ok.mp hconvert)
      (mapM_eq_ok.mp hws)
  have hthrough : Forall₂ (MessageThrough codec) vs ws :=
    forall₂_trans (fun _ cm _ hcm ⟨m, hm, hw⟩ => ⟨cm, m, hcm, hm, hw⟩)
      (mapM_eq_ok.mp (decodeSlice_arr hdecode)) hwritten
  exact forall₂_iff_forall hthrough fun v hv w h => messageThrough_iff laws (hstrict v hv) h

lemma tools_iff {vs : List Json} (hspelled : SpelledAlike codec body)
    (hread : BodyRead codec body chat) (hvs : body.dlookup "tools" = some (.arr vs)) :
    Forall₂ (FunctionKept codec) vs (chat.tools.map marshalTool) ↔ ∀ tool ∈ vs, ToolPlain tool := by
  obtain ⟨tds, hdecode, hunmarshal⟩ := hread.tools
  rw [hspelled.tools _ hvs] at hdecode
  have hstrict := strictJson_arr.mp (strict_of_mem_lookup hread.strict _ hvs)
  have hthrough : Forall₂ (ToolRead codec) vs chat.tools :=
    forall₂_trans (fun _ td _ htd ht => ⟨td, htd, ht⟩)
      (mapM_eq_ok.mp (decodeSlice_arr hdecode)) (mapM_eq_ok.mp hunmarshal)
  rw [forall₂_map_right_iff]
  exact forall₂_iff_forall hthrough fun tool htool t h => tool_iff (hstrict tool htool) h

/-- **A Chat Completions body through the engine.**  No member of its messages and of
its tools is lost exactly when it is plain. -/
theorem unmarshalChat_marshalChat_survives_iff (laws : FoldLaws codec) {body : Entries}
    {chat : ChatRequest} {out : Members} (hspelled : SpelledAlike codec body)
    (hunmarshal : unmarshalChat codec (.obj body) = .ok chat)
    (hmarshal : marshalChat codec.toCodec chat = .ok out) :
    Survives codec body out ↔ Plain codec body := by
  have hread := read_of_unmarshalChat hunmarshal
  obtain ⟨ws, hws, hmessages, htools⟩ := sent_of_marshalChat hread.extensions hmarshal
  have htools : elemsOf (out.lookup "tools") = chat.tools.map marshalTool := by
    rw [htools, elemsOf_nonEmptySlice]
  constructor
  · intro ⟨hm, ht⟩
    rw [hmessages] at hm
    rw [htools] at ht
    exact ⟨fun vs hvs => (messages_iff laws hspelled hread hvs hws).mp (hm vs hvs),
      fun vs hvs => (tools_iff hspelled hread hvs).mp (ht vs hvs)⟩
  · intro ⟨hm, ht⟩
    refine ⟨?_, ?_⟩
    · rw [hmessages]
      exact fun vs hvs => (messages_iff laws hspelled hread hvs hws).mpr (hm vs hvs)
    · rw [htools]
      exact fun vs hvs => (tools_iff hspelled hread hvs).mpr (ht vs hvs)

lemma foldLaws_spellingCodec : FoldLaws spellingCodec := ⟨by decide⟩

def runFunction : Entries := [⟨"name", .str "run"⟩, ⟨"arguments", .str "\x7b\x7d"⟩]

def runCall : Entries :=
  [⟨"id", .str "c1"⟩, ⟨"type", .str "function"⟩, ⟨"function", .obj runFunction⟩]

/-- A question, the call of a tool, and its result; the tools are spelled twice. -/
def toolTurns : Entries := [
  ⟨"messages", .arr [
    .obj [⟨"role", .str "user"⟩, ⟨"content", .str "hi"⟩],
    .obj [⟨"role", .str "assistant"⟩, ⟨"content", .null⟩, ⟨"tool_calls", .arr [.obj runCall]⟩],
    .obj [⟨"role", .str "tool"⟩, ⟨"tool_call_id", .str "c1"⟩, ⟨"content", .str "ok"⟩]]⟩,
  ⟨"tools", .arr [.obj [⟨"type", .str "function"⟩, ⟨"function", .obj [⟨"name", .str "run"⟩]⟩]]⟩,
  ⟨"Tools", .arr [.obj [⟨"type", .str "function"⟩, ⟨"function", .obj [⟨"name", .str "run"⟩]⟩]]⟩]

lemma spelledAlike_toolTurns : SpelledAlike spellingCodec toolTurns := by
  refine ⟨?_, ?_⟩ <;> rintro _ ⟨⟩ <;> rfl

lemma callPlain_runCall : CallPlain (.obj runCall) := by
  refine ⟨runCall, rfl, ?_⟩
  simp [OnlyNames, runCall, runFunction, toolCallNames, toolFuncNames, CallFunctionPlain, Omitted]

lemma plain_toolTurns : Plain spellingCodec toolTurns where
  messages := by
    rintro _ ⟨⟩
    simp only [forall_mem_cons]
    refine ⟨?_, ?_, ?_⟩
    · simp [MessagePlain, OnlyNames, messageNames, ContentPlain]
    · simp [MessagePlain, OnlyNames, messageNames, ContentPlain, roleAssistant, WritesNull, callsOf,
        elemsOf, callPlain_runCall]
    · simp [MessagePlain, OnlyNames, messageNames, ContentPlain, roleTool]
  tools := by
    rintro _ ⟨⟩
    simp [ToolPlain, ToolFunctionPlain, OnlyNames, toolDefNames, toolFuncDefNames]

theorem unmarshalChat_marshalChat_survives_iff_toolTurns : ∃ chat out,
    unmarshalChat spellingCodec (.obj toolTurns) = .ok chat ∧
      marshalChat spellingCodec.toCodec chat = .ok out ∧ Plain spellingCodec toolTurns ∧
      Survives spellingCodec toolTurns out := by
  obtain ⟨chat, out, hchat, hout⟩ := exists_of_bind_isOk
    (x := unmarshalChat spellingCodec (.obj toolTurns)) (f := marshalChat spellingCodec.toCodec)
    (by decide +kernel)
  exact ⟨chat, out, hchat, hout, plain_toolTurns, (unmarshalChat_marshalChat_survives_iff
    foldLaws_spellingCodec spelledAlike_toolTurns hchat hout).mpr plain_toolTurns⟩

def namedMessage : Entries :=
  [⟨"role", .str "user"⟩, ⟨"name", .str "alice"⟩, ⟨"content", .str "hi"⟩]

/-- A question with the name of who asks it. -/
def namedBody : Entries := [⟨"messages", .arr [.obj namedMessage]⟩]

lemma spelledAlike_namedBody : SpelledAlike spellingCodec namedBody := by
  refine ⟨?_, by rintro _ ⟨⟩⟩
  rintro _ ⟨⟩
  rfl

/-- **The name of a user is lost.** -/
theorem userName_lost : ∃ chat out, unmarshalChat spellingCodec (.obj namedBody) = .ok chat ∧
      marshalChat spellingCodec.toCodec chat = .ok out ∧
      ¬ Survives spellingCodec namedBody out := by
  obtain ⟨chat, out, hchat, hout⟩ := exists_of_bind_isOk
    (x := unmarshalChat spellingCodec (.obj namedBody)) (f := marshalChat spellingCodec.toCodec)
    (by decide +kernel)
  refine ⟨chat, out, hchat, hout, fun h => ?_⟩
  have hread := read_of_unmarshalChat hchat
  obtain ⟨ws, hws, hmessages, -⟩ := sent_of_marshalChat hread.extensions hout
  have hkept := h.messages [.obj namedMessage] rfl
  rw [hmessages] at hkept
  obtain ⟨message, hmessage, hplain⟩ := (messages_iff foldLaws_spellingCodec
    spelledAlike_namedBody hread rfl hws).mp hkept _ (mem_singleton_self _)
  cases hmessage
  -- only the message of a tool may have a name
  obtain ⟨-, -, -, -, -, -, hother⟩ := hplain
  exact (hother (by simp [namedMessage, roleTool])).2 (by simp [namedMessage])

end ToranaEdge.Format.OpenAI
