import ToranaEdge.Format.OpenAIFidelity.Parts

/-! # Which messages keep their members

A message is read into blocks in a fixed order, its content, its reasoning and
its calls, and the loop over the blocks puts each where it came from.  The
message of a tool has its result in the place of content and calls. -/

namespace ToranaEdge.Format.OpenAI

open Engine Attempt List Option Align
open Anthropic (SameJson ArrayKept FlatKept OnlyNames Omitted sameJson_null sameJson_str
  sameJson_str_right arrayKept_iff flatKept_of_sameJson strict_of_mem_lookup objectKept_of_sameJson)

variable {codec : WireCodec} {role : Role} {i : Nat} {mm mm' : MarshalMsg}

/-! ## The loop over the blocks -/

lemma blockLoop_append {codec : Codec} {bs bs' : List Block}
    (h : blockLoop codec role i mm (bs ++ bs') = .ok mm') :
    ∃ mid j, blockLoop codec role i mm bs = .ok mid ∧ blockLoop codec role j mid bs' = .ok mm' := by
  induction bs generalizing i mm with
  | nil => exact ⟨mm, i, rfl, h⟩
  | cons b bs ih =>
  obtain ⟨next, hnext, h⟩ := bind_eq_ok.mp h
  obtain ⟨mid, j, hmid, h⟩ := ih h
  exact ⟨mid, j, bind_eq_ok.mpr ⟨next, hnext, hmid⟩, h⟩

variable {bs : List Block} {raws : List Json} {tcs : List ChatToolCall} {cm : ChatMessage}

lemma blockLoop_parts (hblocks : Forall₂ (fun raw b => openAIPartToBlock codec raw = .ok b) raws bs)
    (h : blockLoop codec role i mm bs = .ok mm') : ∃ parts, Forall₂ (PartSent codec) raws parts ∧
      mm' = { mm with parts := mm.parts ++ parts } := by
  induction hblocks generalizing i mm with
  | nil =>
    cases h
    exact ⟨[], .nil, by simp⟩
  | cons hblock _ ih =>
  obtain ⟨next, hnext, h⟩ := bind_eq_ok.mp h
  obtain ⟨part, hpart, rfl⟩ := marshalBlock_of_part hblock hnext
  obtain ⟨parts, hparts, rfl⟩ := ih h
  exact ⟨part :: parts, .cons hpart hparts, by simp⟩

/-- A call that was read and what is written for it. -/
def CallWritten (codec : WireCodec) (tc : ChatToolCall) (w : Json) : Prop :=
  ∃ args, parseArguments codec tc.function.arguments = .ok args ∧
    w = marshalTC { id := tc.id, name := tc.function.name, arguments := args }

lemma blockLoop_calls (hblocks : Forall₂ (fun tc b => toolCallBlock codec tc = .ok b) tcs bs)
    (h : blockLoop codec role i mm bs = .ok mm') :
    ∃ ws, Forall₂ (CallWritten codec) tcs ws ∧ (role ≠ roleAssistant → ws = []) ∧
      mm' = { mm with toolCalls := mm.toolCalls ++ ws } := by
  induction hblocks generalizing i mm with
  | nil =>
    cases h
    exact ⟨[], .nil, fun _ => rfl, by simp⟩
  | cons hblock _ ih =>
  obtain ⟨args, hargs, hblock⟩ := bind_eq_ok.mp hblock
  cases hblock
  obtain ⟨next, hnext, h⟩ := bind_eq_ok.mp h
  obtain ⟨hrole, hnext⟩ := guard_eq_ok.mp hnext
  cases hnext
  obtain ⟨ws, hws, -, rfl⟩ := ih h
  exact ⟨_ :: ws, .cons ⟨args, context_eq_ok.mp hargs, rfl⟩ hws,
    fun hne => absurd hne hrole, by simp⟩

lemma blockLoop_reasoning {codec : Codec} (hmm : mm.reasoningContent = none)
    (h : blockLoop codec role i mm (reasoningBlocks cm) = .ok mm') :
    mm' = { mm with reasoningContent := cm.reasoningContent } := by
  unfold reasoningBlocks at h
  cases hreasoning : cm.reasoningContent <;> rw [hreasoning] at h <;> cases h
  · rw [← hmm]
  · rfl

/-! ## What a message is written from -/

/-- The content that was read, if there was any, and the parts that are written; no
block at all is written as an empty text. -/
def ContentSent (codec : WireCodec) (c : ChatContent) (parts : List ChatContentPart) : Prop :=
  c.present = true →
    match c.text with
    | some s => parts = [textContentPart s]
    | none => Forall₂ (PartSent codec) c.parts parts ∨
        c.parts = [] ∧ parts = [textContentPart ""]

structure MessageSent (codec : WireCodec) (cm : ChatMessage) (mm : MarshalMsg) : Prop where
  content : ContentSent codec cm.content mm.parts
  reasoning : mm.reasoningContent = cm.reasoningContent
  calls : if cm.role = roleTool then mm.toolCalls = []
    else Forall₂ (CallWritten codec) cm.toolCalls.values mm.toolCalls
  assistant : cm.role ≠ roleAssistant → mm.toolCalls = []
  ids : if cm.role = roleTool then
      mm.toolCallID = cm.toolCallID ∧ cm.toolCallID ≠ "" ∧ mm.name = cm.name
    else mm.toolCallID = "" ∧ mm.name = ""

variable {c : ChatContent}

lemma contentSent_blocks
    (hblocks : contentBlocks codec c = .ok bs) (h : blockLoop codec role i mm bs = .ok mm') :
    ∃ parts, ContentSent codec c parts ∧ mm' = { mm with parts := mm.parts ++ parts } := by
  unfold ContentSent
  rcases ite_eq_iff.mp hblocks with ⟨hpresent, hblocks⟩ | ⟨hpresent, hblocks⟩
  · cases htext : c.text with
    | some s =>
      rw [htext] at hblocks
      cases hblocks
      cases h
      exact ⟨[textContentPart s], fun _ => rfl, rfl⟩
    | none =>
    rw [htext] at hblocks
    obtain ⟨parts, hparts, rfl⟩ := blockLoop_parts (mapM_eq_ok.mp hblocks) h
    exact ⟨parts, fun _ => .inl hparts, rfl⟩
  cases hblocks
  cases h
  exact ⟨[], fun h => absurd h hpresent, by simp⟩

lemma contentSent_empty (h : contentBlocks codec c = .ok []) :
    ContentSent codec c [textContentPart ""] := by
  intro hpresent
  unfold contentBlocks at h
  rw [if_pos hpresent] at h
  cases htext : c.text with
  | some s =>
    rw [htext] at h
    cases h
  | none =>
  rw [htext] at h
  exact .inr ⟨forall₂_nil_right_iff.mp (mapM_eq_ok.mp h), rfl⟩

/-- The parts of a tool result. -/
lemma contentSent_result {content : List ToolResultContentBlock}
    {parts : List ChatContentPart} (hcontent : chatToolResultContent codec c = .ok content)
    (h : content.mapM (resultPart codec) = .ok parts) : ContentSent codec c parts := by
  intro hpresent
  unfold chatToolResultContent at hcontent
  cases htext : c.text with
  | some s =>
    rw [if_pos (by simp [htext])] at hcontent
    cases hcontent
    cases h
    rw [htext]
    rfl
  | none =>
  rw [if_neg (by simp [htext, hpresent])] at hcontent
  obtain ⟨out, hout, hcontent⟩ := bind_eq_ok.mp hcontent
  cases hcontent
  have hread : Forall₂ (fun raw c => openAIPartToToolResultContent codec raw = .ok c)
      c.parts out := by
    have hforall := (mapM_eq_ok.mp hout).imp fun _ _ h => context_eq_ok.mp h
    rw [← zipIdx_map_fst 0 c.parts, forall₂_map_left_iff]
    exact hforall
  by_cases hempty : out = []
  · rw [if_pos (by simp [hempty])] at h
    cases h
    subst hempty
    exact .inr ⟨forall₂_nil_right_iff.mp hread, rfl⟩
  rw [if_neg (by simpa using hempty)] at h
  refine .inl (forall₂_trans ?_ hread (mapM_eq_ok.mp h))
  exact fun _ _ _ hraw hpart => resultPart_of_part hraw hpart

lemma no_thinking_content (h : contentBlocks codec c = .ok bs) : ∀ b ∈ bs, b.thinking = none := by
  intro b hb
  rcases ite_eq_iff.mp h with ⟨-, h⟩ | ⟨-, h⟩
  · split at h
    · cases h
      rw [mem_singleton.mp hb]
    · obtain ⟨raw, -, hraw⟩ := exists_of_mem_mapM h hb
      obtain ⟨type, -, hraw⟩ := bind_eq_ok.mp hraw
      rcases ite_eq_iff.mp hraw with ⟨-, hraw⟩ | ⟨-, hraw⟩
      · obtain ⟨text, -, hraw⟩ := bind_eq_ok.mp hraw
        cases text <;> cases hraw
        rfl
      rcases ite_eq_iff.mp hraw with ⟨-, hraw⟩ | ⟨-, hraw⟩
      · cases hraw
      · split at hraw <;> cases hraw
        rfl
  · cases h
    cases hb

lemma no_thinking_calls (h : tcs.mapM (toolCallBlock codec) = .ok bs) :
    ∀ b ∈ bs, b.thinking = none := by
  intro b hb
  obtain ⟨tc, -, htc⟩ := exists_of_mem_mapM h hb
  obtain ⟨args, -, htc⟩ := bind_eq_ok.mp htc
  cases htc
  rfl

/-- **A message** and what its blocks are written to. -/
theorem messageSent_of_convert {m : Message} (hconvert : convertChatMessage codec cm = .ok m)
    (h : blockLoop codec m.role 0 {} m.blocks = .ok mm) : MessageSent codec cm mm := by
  obtain ⟨blocks, hblocks, hconvert⟩ := bind_eq_ok.mp hconvert
  obtain ⟨content, hcontent, calls, hcalls, hblocks⟩ := bind₂_eq_ok.mp hblocks
  cases hblocks
  rcases ite_eq_iff.mp hconvert with ⟨hrole, hconvert⟩ | ⟨hrole, hconvert⟩
  · obtain ⟨blocks, hblocks, hconvert⟩ := bind_eq_ok.mp hconvert
    obtain ⟨hid, hblocks⟩ := guard_eq_ok.mp hblocks
    obtain ⟨result, hresult, hblocks⟩ := bind_eq_ok.mp hblocks
    cases hblocks
    cases hconvert
    rw [if_neg (by simp)] at h
    -- of the blocks that were read only the reasoning stays
    have hkept : (content ++ reasoningBlocks cm ++ calls).filter (fun b => b.thinking.isSome) =
        reasoningBlocks cm := by
      have hnone : ∀ bs : List Block, (∀ b ∈ bs, b.thinking = none) →
          bs.filter (fun b => b.thinking.isSome) = [] := by
        intro bs hbs
        rw [filter_eq_nil_iff]
        intro b hb
        simp [hbs b hb]
      have hall : (reasoningBlocks cm).filter (fun b => b.thinking.isSome) = reasoningBlocks cm := by
        unfold reasoningBlocks
        cases cm.reasoningContent <;> rfl
      rw [filter_append, filter_append, hnone content (no_thinking_content hcontent),
        hnone calls (no_thinking_calls hcalls), hall, nil_append, append_nil]
    rw [hkept] at h
    obtain ⟨mid, j, hmid, h⟩ := blockLoop_append h
    have hmid := blockLoop_reasoning rfl hmid
    obtain ⟨last, hlast, h⟩ := bind_eq_ok.mp h
    cases h
    rcases ite_eq_iff.mp hlast with ⟨hne, -⟩ | ⟨-, hlast⟩
    · exact absurd hrole hne
    obtain ⟨parts, hparts, hlast⟩ := bind_eq_ok.mp hlast
    cases hlast
    subst hmid
    refine ⟨contentSent_result hresult hparts, rfl, ?_, fun _ => rfl, ?_⟩
    · rw [if_pos hrole]
    · rw [if_pos hrole]
      exact ⟨rfl, hid, rfl⟩
  · cases hconvert
    by_cases hempty : content ++ reasoningBlocks cm ++ calls = []
    · rw [if_pos (by simp [hempty])] at h
      cases h
      rw [append_eq_nil_iff, append_eq_nil_iff] at hempty
      obtain ⟨⟨rfl, hreasoning⟩, rfl⟩ := hempty
      refine ⟨contentSent_empty hcontent, ?_, ?_, fun _ => rfl, ?_⟩
      · cases hnone : cm.reasoningContent with
        | none => rfl
        | some text => simp [reasoningBlocks, hnone] at hreasoning
      · rw [if_neg hrole]
        rw [forall₂_nil_right_iff.mp (mapM_eq_ok.mp hcalls)]
        exact .nil
      · rw [if_neg hrole]
        exact ⟨rfl, rfl⟩
    · rw [if_neg (by simpa using hempty)] at h
      obtain ⟨mid, j, hmid, h⟩ := blockLoop_append h
      obtain ⟨first, k, hfirst, hmid⟩ := blockLoop_append hmid
      obtain ⟨parts, hparts, rfl⟩ := contentSent_blocks hcontent hfirst
      obtain rfl := blockLoop_reasoning rfl hmid
      obtain ⟨ws, hws, hassistant, rfl⟩ := blockLoop_calls (mapM_eq_ok.mp hcalls) h
      refine ⟨?_, rfl, ?_, ?_, ?_⟩
      · simpa using hparts
      · rw [if_neg hrole]
        simpa using hws
      · simpa using hassistant
      · rw [if_neg hrole]
        exact ⟨rfl, rfl⟩

/-! ## The content -/

section content

variable {message : Entries}

/-- An array that is written as an array. -/
lemma partsKept_iff (laws : FoldLaws codec) {parts : List ChatContentPart}
    (hstrict : ∀ raw ∈ raws, strictJson raw = true) (h : Forall₂ (PartSent codec) raws parts) :
    ContentKept codec (.arr raws) (.arr (parts.map ChatContentPart.value)) ↔
      ∀ raw ∈ raws, PartPlain codec raw := by
  have hboth := (forall₂_and_left _ _).mpr ⟨hstrict, h⟩
  have harray : ContentKept codec (.arr raws) (.arr (parts.map ChatContentPart.value)) ↔
      ArrayKept codec (FlatKept codec) (.arr raws) (.arr (parts.map ChatContentPart.value)) := by
    simp [ContentKept]
  rw [harray, arrayKept_iff, forall₂_map_right_iff]
  · exact forall₂_iff_forall hboth fun raw _ part h => part_iff laws h.1 h.2
  · rw [forall₂_map_right_iff, forall₂_map_right_iff]
    refine fun hsame => (hboth.mp (fun _ _ => And.intro) hsame).imp ?_
    rintro raw part ⟨⟨hraw, members, type, rfl, -⟩, hsame⟩
    exact flatKept_of_sameJson (strictJson_obj.mp hraw).1 hsame

variable {part : ChatContentPart} {raw : Json} {s : String}

lemma contentKept_arr_str :
    ContentKept codec (.arr raws) (.str s) ↔ ∃ part, raws = [part] ∧ IsTextPart s part := by
  simp [ContentKept, ArrayKept, sameJson_str_right]

/-- An array of one part that is written as a string. -/
lemma partText_iff (laws : FoldLaws codec) (hstrict : strictJson raw = true)
    (h : PartSent codec raw part) (hpart : part.text = some s) :
    ContentKept codec (.arr [raw]) (.str s) ↔ PartPlain codec raw := by
  rw [partPlain_iff_isTextPart laws hstrict h hpart, contentKept_arr_str]
  simp

lemma not_contentKept_null : ¬ ContentKept codec (.arr raws) .null := by
  rintro ((hsame | ⟨_, _, _, hnull, -⟩) | ⟨_, _, hstr, -⟩ | ⟨_, _, -, hnull, -⟩)
  · cases hsame
  · cases hnull
  · cases hstr
  · cases hnull

lemma text_of_isTextPart (laws : FoldLaws codec) (hstrict : strictJson raw = true)
    (h : PartSent codec raw part) (htext : IsTextPart s raw) : part.text = some s := by
  obtain ⟨members, hraw, htype, htext, honly⟩ := htext
  obtain ⟨_, type, rfl, hread, hpart⟩ := h
  cases hraw
  have hnodup := (strictJson_obj.mp hstrict).1
  have hread : decodeString "" (bound codec ["type"] members "type") = .ok type := hread
  rw [bound_probe laws hnodup honly (by decide), htype] at hread
  cases hread
  obtain ⟨t, ht, rfl⟩ := hpart
  have ht : decodeStringPtr (bound codec ["text"] members "text") = .ok (some t) := ht
  rw [bound_probe laws hnodup honly (by decide), htext] at ht
  cases ht
  rfl

/-- One text part is written as a string, or as null beside the calls. -/
lemma messageContent_text (hparts : mm.parts = [part]) (htext : part.text = some s) :
    messageContent role mm =
      if s = "" ∧ role = roleAssistant ∧ mm.toolCalls ≠ [] then some .null else some (.str s) := by
  unfold messageContent
  rw [hparts]
  dsimp only
  rw [htext]
  dsimp only
  by_cases hs : s = ""
  · subst hs
    by_cases hnull : role = roleAssistant ∧ mm.toolCalls ≠ []
    · rw [if_neg (by simp), if_pos hnull, if_pos ⟨rfl, hnull⟩]
    · rw [if_neg (by simp), if_neg hnull, if_neg fun h => hnull h.2]
  · rw [if_pos hs, if_neg fun h => hs h.1]

/-- An array of one part. -/
lemma singlePart_iff (laws : FoldLaws codec) (hstrict : strictJson raw = true)
    (h : PartSent codec raw part) (hparts : mm.parts = [part])
    (hnull : WritesNull message ↔ role = roleAssistant ∧ mm.toolCalls ≠ []) :
    (∃ w, messageContent role mm = some w ∧ ContentKept codec (.arr [raw]) w) ↔
      PartPlain codec raw ∧ (IsTextPart "" raw → ¬ WritesNull message) := by
  cases hpart : part.text with
  | none =>
    have hcontent : messageContent role mm = some (.arr [part.value]) := by
      unfold messageContent
      rw [hparts]
      dsimp only
      rw [hpart]
    have hnotText : ¬ IsTextPart "" raw := by
      intro htext
      rw [text_of_isTextPart laws hstrict h htext] at hpart
      cases hpart
    rw [hcontent, and_iff_left fun htext => absurd htext hnotText]
    have hkept := @partsKept_iff codec [raw] laws [part] (by simpa using hstrict) (.cons h .nil)
    simpa using hkept
  | some s =>
    rw [messageContent_text hparts hpart]
    split
    next hempty =>
      obtain ⟨rfl, hwrites⟩ := hempty
      refine iff_of_false ?_ ?_
      · rintro ⟨w, ⟨⟩, hkept⟩
        exact not_contentKept_null hkept
      · rintro ⟨hplain, hnot⟩
        exact hnot ((partPlain_iff_isTextPart laws hstrict h hpart).mp hplain) (hnull.mpr hwrites)
    next hne =>
      have hnot : IsTextPart "" raw → ¬ WritesNull message := by
        intro htext hwrites
        rw [text_of_isTextPart laws hstrict h htext] at hpart
        cases hpart
        exact hne ⟨rfl, hnull.mp hwrites⟩
      rw [and_iff_left hnot, ← partText_iff laws hstrict h hpart]
      simp

/-- **The content** of a message is kept exactly when it is plain. -/
theorem content_iff (laws : FoldLaws codec) {v : Json} (hstrict : strictJson v = true)
    (hread : decodeChatContent {} [v] = .ok c) (h : ContentSent codec c mm.parts)
    (hnull : WritesNull message ↔ role = roleAssistant ∧ mm.toolCalls ≠ []) :
    (∃ w, messageContent role mm = some w ∧ ContentKept codec v w) ↔
      ContentPlain codec message v := by
  obtain ⟨c', hread, hdone⟩ := bind_eq_ok.mp hread
  cases hdone
  cases v with
  | null =>
    cases hread
    have hparts : mm.parts = [textContentPart ""] := h rfl
    rw [messageContent_text hparts rfl]
    show _ ↔ WritesNull message
    rw [hnull]
    by_cases hwrites : role = roleAssistant ∧ mm.toolCalls ≠ []
    · rw [if_pos ⟨rfl, hwrites⟩]
      exact iff_of_true ⟨.null, rfl, .inl (.inl (.refl _))⟩ hwrites
    rw [if_neg fun h => hwrites h.2]
    refine iff_of_false ?_ hwrites
    simp [ContentKept, ArrayKept, sameJson_null]
  | str s =>
    cases hread
    have hparts : mm.parts = [textContentPart s] := h rfl
    rw [messageContent_text hparts rfl]
    show _ ↔ (s = "" → ¬ WritesNull message)
    rw [hnull]
    split
    next hempty =>
      refine iff_of_false ?_ fun h => h hempty.1 hempty.2
      simp [ContentKept, ArrayKept, sameJson_str]
    next hne =>
      exact iff_of_true ⟨.str s, rfl, .inl (.inl (.refl _))⟩ fun hs hwrites => hne ⟨hs, hwrites⟩
  | arr raws =>
    cases hread
    have hparts : Forall₂ (PartSent codec) raws mm.parts ∨
      raws = [] ∧ mm.parts = [textContentPart ""] := h rfl
    have hstrict := strictJson_arr.mp hstrict
    match raws, hparts with
    | [], hparts =>
      -- whatever is written for an empty array, it is no array
      refine iff_of_false ?_ fun hplain => hplain.1 rfl
      rintro ⟨w, hw, hkept⟩
      rcases hparts with hnil | ⟨-, htext⟩
      · unfold messageContent at hw
        rw [forall₂_nil_left_iff.mp hnil] at hw
        obtain ⟨-, hw⟩ := ite_none_right_eq_some.mp hw
        cases hw
        exact not_contentKept_null hkept
      rw [messageContent_text htext rfl] at hw
      split at hw
      · cases hw
        exact not_contentKept_null hkept
      · cases hw
        simp [contentKept_arr_str] at hkept
    | [raw], .inl hparts =>
      obtain ⟨part, parts, hpart, hnil, hmm⟩ := forall₂_cons_left_iff.mp hparts
      cases hnil
      exact singlePart_iff laws (hstrict raw (by simp)) hpart hmm hnull
    | raw :: raw' :: raws, .inl hparts =>
      have hcontent : messageContent role mm = some (.arr (mm.parts.map ChatContentPart.value)) := by
        obtain ⟨part, parts, -, hparts, hmm⟩ := forall₂_cons_left_iff.mp hparts
        obtain ⟨part', parts, -, -, rfl⟩ := forall₂_cons_left_iff.mp hparts
        unfold messageContent
        rw [hmm]
      rw [hcontent]
      simp only [some.injEq, exists_eq_left']
      rw [partsKept_iff laws hstrict hparts]
      show _ ↔ raw :: raw' :: raws ≠ [] ∧ _
      rw [and_iff_right (by simp)]
  | bool _ | num _ | obj _ => cases hread

end content

/-! ## Messages -/

section message

variable {message : Entries} {cm : ChatMessage}

/-- The message as it is written. -/
def messageFields (role : Role) (mm : MarshalMsg) : List (String × Option Json) :=
  [("role", some (.str role)), ("content", messageContent role mm),
    ("reasoning_content", mm.reasoningContent.map Json.str),
    ("tool_calls", nonEmptySlice mm.toolCalls), ("tool_call_id", nonEmptyString mm.toolCallID),
    ("name", nonEmptyString mm.name)]

/-- What a message that names its fields exactly is read from. -/
structure MessageRead (codec : WireCodec) (message : Entries) (cm : ChatMessage) : Prop where
  role : decodeString "" (message.dlookup "role").toList = .ok cm.role
  content : decodeChatContent {} (message.dlookup "content").toList = .ok cm.content
  reasoning : decodeStringPtr (message.dlookup "reasoning_content").toList =
    .ok cm.reasoningContent
  calls : decodeSlice {} (fun call v => decodeStruct (decodeToolCall codec) call [v])
    (message.dlookup "tool_calls").toList = .ok cm.toolCalls.values
  toolCallID : decodeString "" (message.dlookup "tool_call_id").toList = .ok cm.toolCallID
  name : decodeString "" (message.dlookup "name").toList = .ok cm.name

lemma messageRead_of_decode (hbound : ∀ field,
      bound codec messageNames message field = (message.dlookup field).toList)
    (h : decodeChatMessage codec {} message = .ok cm) : MessageRead codec message cm := by
  obtain ⟨role, hrole, content, hcontent, reasoning, hreasoning, h⟩ := bind₃_eq_ok.mp h
  obtain ⟨calls, hcalls, id, hid, name, hname, h⟩ := bind₃_eq_ok.mp h
  cases h
  simp only [hbound] at hrole hcontent hreasoning hcalls hid hname
  refine ⟨hrole, hcontent, ?_, map_eq_ok.mpr ⟨calls, hcalls, rfl⟩, hid, hname⟩
  revert hreasoning
  cases message.dlookup "reasoning_content" with
  | none | some v => exact fun h => h

/-- A role that is not empty is the member of that name. -/
lemma MessageRead.role_iff (h : MessageRead codec message cm) {role : Role} (hrole : role ≠ "") :
    message.dlookup "role" = some (.str role) ↔ cm.role = role := by
  rcases decodeString_toList.mp h.role with hlookup | ⟨hlookup | hlookup, hempty⟩
  · rw [hlookup]
    simp
  all_goals
    rw [hlookup, hempty]
    simp [Ne.symm hrole]

lemma MessageRead.calls_cases (h : MessageRead codec message cm) :
    ∀ v ∈ message.dlookup "tool_calls", v = .null ∧ cm.toolCalls.values = [] ∨
      ∃ calls, v = .arr calls ∧ Forall₂ (fun call tc =>
        decodeStruct (decodeToolCall codec) {} [call] = .ok tc) calls cm.toolCalls.values := by
  intro v hv
  have hcalls := h.calls
  rw [mem_def.mp hv] at hcalls
  rcases decodeSlice_singleton hcalls with hnull | ⟨calls, rfl, helems⟩
  · exact .inl hnull
  · exact .inr ⟨calls, rfl, mapM_eq_ok.mp helems⟩

lemma MessageRead.callsOf_eq_nil_iff (h : MessageRead codec message cm) :
    callsOf message = [] ↔ cm.toolCalls.values = [] := by
  unfold callsOf
  cases hv : message.dlookup "tool_calls" with
  | none =>
    have hcalls := h.calls
    rw [hv] at hcalls
    exact iff_of_true rfl (Except.ok.inj hcalls).symm
  | some v =>
  rcases h.calls_cases v hv with ⟨rfl, hnil⟩ | ⟨calls, rfl, hcalls⟩
  · exact iff_of_true rfl hnil
  · exact not_iff_not.mp (ne_nil_iff hcalls)

lemma writesNull_iff (hread : MessageRead codec message cm) (hsent : MessageSent codec cm mm) :
    WritesNull message ↔ cm.role = roleAssistant ∧ mm.toolCalls ≠ [] := by
  unfold WritesNull
  rw [hread.role_iff (by decide)]
  refine and_congr_right fun hrole => not_congr ?_
  have hcalls := hsent.calls
  rw [if_neg (by rw [hrole]; decide)] at hcalls
  rw [hread.callsOf_eq_nil_iff]
  exact not_iff_not.mp (ne_nil_iff hcalls)

lemma functionKept_of_sameJson {call w : Json} (hstrict : strictJson call = true)
    (h : CallSent codec call w) (hsame : SameJson codec call w) : FunctionKept codec call w := by
  obtain ⟨tc, args, hread, -, rfl⟩ := h
  cases call with
  | obj members =>
    exact objectKept_of_sameJson (fun _ _ _ hsame => .inl hsame) (strictJson_obj.mp hstrict).1 hsame
  | null => exact absurd (sameJson_null.mp hsame) (fun hnull => nomatch hnull)
  | bool _ | num _ | str _ | arr _ => cases hread

/-- The calls of a message. -/
lemma calls_iff (hstrict : strictJson (.obj message) = true)
    (hread : MessageRead codec message cm) (hsent : MessageSent codec cm mm) :
    (∀ v ∈ message.dlookup "tool_calls", ∃ w, nonEmptySlice mm.toolCalls = some w ∧
        ArrayKept codec (FunctionKept codec) v w) ↔
      ∀ v ∈ message.dlookup "tool_calls", message.dlookup "role" = some (.str roleAssistant) ∧
        ∃ calls, v = .arr calls ∧ calls ≠ [] ∧ ∀ call ∈ calls, CallPlain call := by
  refine forall₂_congr fun v hv => ?_
  have hstrictCalls := strict_of_mem_lookup hstrict v hv
  rw [hread.role_iff (by decide)]
  have hcalls := hsent.calls
  by_cases hassistant : cm.role = roleAssistant
  · rw [if_neg (by rw [hassistant]; decide)] at hcalls
    rw [and_iff_right hassistant]
    rcases hread.calls_cases v hv with ⟨rfl, hnil⟩ | ⟨calls, rfl, hdecode⟩
    · rw [hnil] at hcalls
      rw [forall₂_nil_left_iff.mp hcalls]
      simp [nonEmptySlice]
    have hboth : Forall₂ (CallSent codec) calls mm.toolCalls :=
      forall₂_trans (fun call tc w htc hw => ⟨tc, hw.imp fun args h => ⟨htc, h⟩⟩)
        hdecode hcalls
    simp only [Json.arr.injEq, exists_eq_left']
    rw [exists_nonEmptySlice, ne_nil_iff hboth]
    refine and_congr_right fun _ => ?_
    have hpairs := (forall₂_and_left _ _).mpr ⟨strictJson_arr.mp hstrictCalls, hboth⟩
    rw [arrayKept_iff fun hsame => (hpairs.mp (fun _ _ => And.intro) hsame).imp
      fun _ _ h => functionKept_of_sameJson h.1.1 h.1.2 h.2]
    exact forall₂_iff_forall hpairs fun call _ w h => call_iff h.1 h.2
  · rw [hsent.assistant hassistant]
    simp [nonEmptySlice, hassistant]

lemma writes_nothing_iff {key : String} :
    Writes codec (message.dlookup key) none ↔ key ∉ message.keys := by
  rw [← dlookup_eq_none]
  constructor
  · intro hwrites
    cases hv : message.dlookup key with
    | none => rfl
    | some v =>
      obtain ⟨w, hw, -⟩ := hwrites v hv
      cases hw
  · intro hnone
    rw [hnone]
    exact writes_none codec

/-- The id and the name are written for the message of a tool alone. -/
lemma ids_iff (hread : MessageRead codec message cm) (hsent : MessageSent codec cm mm) :
    (Writes codec (message.dlookup "tool_call_id") (nonEmptyString mm.toolCallID) ∧
        Writes codec (message.dlookup "name") (nonEmptyString mm.name)) ↔
      (message.dlookup "role" = some (.str roleTool) → ∀ v ∈ message.dlookup "name", ¬ Omitted v) ∧
        (message.dlookup "role" ≠ some (.str roleTool) →
          "tool_call_id" ∉ message.keys ∧ "name" ∉ message.keys) := by
  rw [ne_eq, hread.role_iff (by decide)]
  have hids := hsent.ids
  by_cases hrole : cm.role = roleTool
  · rw [if_pos hrole] at hids
    obtain ⟨hid, hne, hname⟩ := hids
    have hwritesID : Writes codec (message.dlookup "tool_call_id") (nonEmptyString mm.toolCallID) := by
      rw [hid, nonEmptyString, if_neg hne, writes_str_iff]
      rcases decodeString_toList.mp hread.toolCallID with hlookup | ⟨-, hempty⟩
      · rw [hlookup]
        simp
      · exact absurd hempty hne
    rw [and_iff_right hwritesID, hname, writes_nonEmpty_iff codec hread.name]
    simp [hrole]
  · rw [if_neg hrole] at hids
    have hnone : nonEmptyString "" = none := rfl
    rw [hids.1, hids.2, hnone, writes_nothing_iff, writes_nothing_iff]
    simp [hrole]

/-- **A message** keeps its members exactly when it is plain. -/
theorem message_iff (laws : FoldLaws codec) (hstrict : strictJson (.obj message) = true)
    (hdecode : decodeChatMessage codec {} message = .ok cm) (hsent : MessageSent codec cm mm) :
    MessageKept codec (.obj message) (structJson (messageFields cm.role mm)) ↔
      MessagePlain codec message := by
  refine structKept_congr hstrict rfl (by decide) fun _ hbound => ?_
  have hread := messageRead_of_decode (hbound codec) hdecode
  have hflat : ∀ (name : String) (value : Option Json), name ≠ "content" → name ≠ "tool_calls" →
      ((∀ v ∈ message.dlookup name, ∃ w, value = some w ∧ messageRel codec name v w) ↔
        Writes codec (message.dlookup name) value) := by
    intro name value hcontent hcalls
    simp [messageRel, hcontent, hcalls, Writes]
  have hcontent : (∀ v ∈ message.dlookup "content", ∃ w, messageContent cm.role mm = some w ∧
      messageRel codec "content" v w) ↔
        ∀ v ∈ message.dlookup "content", ContentPlain codec message v := by
    refine forall₂_congr fun v hv => ?_
    have hv' := hread.content
    rw [mem_def.mp hv] at hv'
    exact content_iff laws (strict_of_mem_lookup hstrict v hv) hv' hsent.content
      (writesNull_iff hread hsent)
  unfold messageFields
  rw [fieldsKept_cons, fieldsKept_cons, fieldsKept_cons, fieldsKept_cons, fieldsKept_cons,
    fieldsKept_cons, and_iff_left fieldsKept_nil, hcontent, hflat "role" _ (by decide) (by decide),
    hflat "reasoning_content" _ (by decide) (by decide),
    writes_string_iff codec hread.role, hsent.reasoning, writes_stringPtr_iff codec hread.reasoning]
  refine and_congr_right fun _ => and_congr_right fun _ => and_congr_right fun _ =>
    and_congr (calls_iff hstrict hread hsent) ?_
  exact ids_iff hread hsent

end message

end ToranaEdge.Format.OpenAI
