import ToranaEdge.Format.GeminiFidelity.Kept

/-! # Which parts keep their members

The grammar leaves a part one arm.  A part of an arm the adapter models is
written as a struct; one of any other arm is written as it is, with the
signature and the metadata put back. -/

namespace ToranaEdge.Format.Gemini

open Engine Attempt List Option Json
open Anthropic (SameJson FlatKept OnlyNames Omitted sameJson_str sameJson_null sameJson_obj_iff_at
  omitempty_iff sameJson_arr_iff strict_of_mem_lookup)

/-! ## The grammar -/

variable {key : String} {members : Entries}

section grammar

variable {codec : WireCodec} {part : Entries} {arm : String}

/-- What the grammar says of a part with that arm. -/
structure Grammar (codec : WireCodec) (part : Entries) (arm : String) : Prop where
  mem : arm ∈ part.keys
  noModifier : arm ∉ geminiAncillaryPartMembers ∧ arm ∉ geminiMediaAncillaryMembers
  only : ∀ key ∈ part.keys, key = arm ∨ key ∈ geminiAncillaryPartMembers ∨
    key ∈ geminiMediaAncillaryMembers
  thought : "thought" ∈ part.keys → arm = "text"
  media : arm ∉ mediaArms → ∀ key ∈ geminiMediaAncillaryMembers, key ∉ part.keys
  response : arm = "functionResponse" → ∀ v, part.dlookup arm = some v →
    ∃ place, validateGeminiFunctionResponse codec place v = .ok ()

lemma keys_toAList (hnodup : members.NodupKeys) : members.toAList.keys = members.keys := by
  show members.toAList.entries.keys = _
  rw [toAList_entries hnodup]

lemma lookup_toAList (members : Entries) (key : String) :
    members.toAList.lookup key = members.dlookup key := AList.lookup_to_alist members

lemma grammar_of_validate {place : String} (hnodup : part.NodupKeys)
    (h : validateGeminiPartRaw codec place (.obj part) = .ok arm) : Grammar codec part arm := by
  rw [validateGeminiPartRaw] at h
  simp only [decodeMap] at h
  split at h
  case h_2 => cases h
  next arm' harms =>
  have hmem : arm' ∈ armMembers part.toAList := by
    rw [harms]
    exact mem_singleton_self _
  have hkey := mem_filter.mp hmem
  rw [keys_toAList hnodup] at hkey
  have hnoModifier : arm' ∉ geminiAncillaryPartMembers ∧ arm' ∉ geminiMediaAncillaryMembers := by
    simpa using hkey.2
  have honly : ∀ key ∈ part.keys, key = arm' ∨ key ∈ geminiAncillaryPartMembers ∨
      key ∈ geminiMediaAncillaryMembers := by
    intro key hk
    by_contra hne
    push Not at hne
    have : key ∈ armMembers part.toAList := by
      rw [armMembers, mem_filter, keys_toAList hnodup]
      exact ⟨hk, by simp [hne.2.1, hne.2.2]⟩
    rw [harms, mem_singleton] at this
    exact hne.1 this
  obtain ⟨hthought, h⟩ := guard_eq_ok.mp h
  split at h
  · cases h
  next hmedia =>
  have hresponse : arm' = arm ∧ (arm' = "functionResponse" →
      validateGeminiFunctionResponse codec place ((part.toAList.lookup arm').getD .null) =
        .ok ()) := by
    rcases ite_eq_iff.mp h with ⟨-, h⟩ | ⟨hne, h⟩
    · obtain ⟨⟨⟩, hvalid, h⟩ := bind_eq_ok.mp h
      cases h
      exact ⟨rfl, fun _ => hvalid⟩
    · cases h
      exact ⟨rfl, fun harm => absurd harm hne⟩
  obtain ⟨rfl, hresponse⟩ := hresponse
  refine ⟨hkey.1, hnoModifier, honly, ?_, ?_, ?_⟩
  · intro hk
    by_contra hne
    refine hthought ⟨?_, hne⟩
    rw [lookup_toAList]
    exact dlookup_isSome.mpr hk
  · intro hnot key hk
    rw [if_neg (by simpa using hnot)] at hmedia
    have hnone := find?_eq_none.mp hmedia key hk
    exact dlookup_eq_none.mp (by simpa using hnone)
  · intro harm v hv
    have hvalid := hresponse harm
    rw [lookup_toAList, hv] at hvalid
    exact ⟨place, hvalid⟩

/-- The arms the adapter models. -/
def modelledArms : List String := ["text", "functionCall", "functionResponse"]

namespace Grammar

lemma onlyNames (h : Grammar codec part arm) (harm : arm ∈ modelledArms) :
    OnlyNames partNames part := by
  intro m hm
  have hkey : m.1 ∈ part.keys := mem_keys_of_mem hm
  have hnotMedia : ∀ arm ∈ modelledArms, arm ∉ mediaArms := by decide
  have hnames : ∀ arm ∈ modelledArms ++ geminiAncillaryPartMembers, arm ∈ partNames := by decide
  rcases h.only m.1 hkey with heq | hmodifier | hmedia
  · exact hnames _ (mem_append_left _ (heq ▸ harm))
  · exact hnames _ (mem_append_right _ hmodifier)
  · exact absurd hkey (h.media (hnotMedia arm harm) m.1 hmedia)

/-- A modelled arm is a member only of a part with that arm. -/
lemma eq_of_mem (h : Grammar codec part arm) (hkey : key ∈ modelledArms)
    (hmem : key ∈ part.keys) : arm = key := by
  have hnoModifier : ∀ arm ∈ modelledArms, arm ∉ geminiAncillaryPartMembers ∧
      arm ∉ geminiMediaAncillaryMembers := by decide
  rcases h.only key hmem with heq | hmodifier | hmedia
  · exact heq.symm
  · exact absurd hmodifier (hnoModifier key hkey).1
  · exact absurd hmedia (hnoModifier key hkey).2

lemma not_mem (h : Grammar codec part arm) (hkey : key ∈ modelledArms)
    (hne : key ≠ arm) : key ∉ part.keys := fun hmem => hne (h.eq_of_mem hkey hmem).symm

lemma not_mem_partNames (h : Grammar codec part arm) (harm : arm ∉ modelledArms) :
    arm ∉ partNames := by
  have hnames : ∀ arm ∈ partNames, arm ∈ modelledArms ∨ arm ∈ geminiAncillaryPartMembers := by
    decide
  exact fun hmem => (hnames arm hmem).elim harm h.noModifier.1

end Grammar

end grammar

/-! ## What is read -/

section read

variable {codec : WireCodec} {part : Entries} {p : WirePart} {values : List Json}

structure PartRead (codec : WireCodec) (part : Entries) (p : WirePart) : Prop where
  text : decodeStringPtr (bound codec partNames part "text") = .ok p.text
  thought : decodeBool (bound codec partNames part "thought") = .ok p.thought
  thoughtSignature :
    Format.decodeString "" (bound codec partNames part "thoughtSignature") = .ok p.thoughtSignature
  functionCall :
    decodePtr (decodeFuncCall codec) (bound codec partNames part "functionCall") =
      .ok p.functionCall
  functionResponse :
    decodePtr (decodeFuncResp codec) (bound codec partNames part "functionResponse") =
      .ok p.functionResponse
  partMetadata : p.partMetadata = rawMessage (bound codec partNames part "partMetadata")
  raw : p.raw = part

lemma PartRead.of_decode (h : decodePart codec part = .ok p) : PartRead codec part p := by
  obtain ⟨text, htext, thought, hthought, signature, hsignature, h⟩ := bind₃_eq_ok.mp h
  obtain ⟨call, hcall, response, hresponse, h⟩ := bind₂_eq_ok.mp h
  cases h
  exact ⟨htext, hthought, hsignature, hcall, hresponse, rfl, rfl⟩

/-- A pointer is nil when the last value read into it is null. -/
lemma decodePtr_eq_none_iff {α : Type} {decode : Entries → Except String α} {o : Option α}
    (h : decodePtr decode values = .ok o) : o = none ↔ ∀ v ∈ rawMessage values, v = .null := by
  rcases foldlM_last h with ⟨rfl, rfl⟩ | ⟨v, hlast, hv⟩
  · simp [rawMessage]
  rw [rawMessage, hlast]
  cases v with
  | null =>
    cases hv
    simp
  | obj members =>
    obtain ⟨a, -, rfl⟩ := map_eq_ok.mp hv
    simp
  | bool _ | num _ | str _ | arr _ => cases hv

lemma decodeStringPtr_eq_none_iff {o : Option String} (h : decodeStringPtr values = .ok o) :
    o = none ↔ ∀ v ∈ rawMessage values, v = .null := by
  rcases foldlM_last h with ⟨rfl, rfl⟩ | ⟨v, hlast, hv⟩
  · simp [rawMessage]
  rw [rawMessage, hlast]
  cases v with
  | null | str _ =>
    cases hv
    simp
  | bool _ | num _ | obj _ | arr _ => cases hv

/-- A part is read as no modelled arm when the last values read for them are null. -/
lemma PartRead.unmodelled_iff (h : PartRead codec part p) :
    (p.text = none ∧ p.functionCall = none ∧ p.functionResponse = none) ↔
      ∀ field ∈ modelledArms, ∀ v ∈ rawMessage (bound codec partNames part field), v = .null := by
  rw [decodeStringPtr_eq_none_iff h.text, decodePtr_eq_none_iff h.functionCall,
    decodePtr_eq_none_iff h.functionResponse]
  simp [modelledArms]

end read

/-! ## Calls -/

section calls

variable (codec : WireCodec)

/-- An id that is given is written, an empty one is replaced. -/
lemma writes_id_iff {o : Option Json} {read id : String}
    (h : Format.decodeString "" o.toList = .ok read) (hid : read ≠ "" → id = read) :
    Writes codec o (nonEmptyString id) ↔ ∀ v ∈ o, ¬ Omitted v := by
  by_cases hread : read = ""
  · subst hread
    rcases decodeString_toList.mp h with rfl | ⟨rfl | rfl, -⟩
    · refine iff_of_false ?_ (by simp [Omitted])
      intro hwrites
      obtain ⟨w, hw, hsame⟩ := hwrites _ rfl
      rw [sameJson_str.mp hsame] at hw
      obtain ⟨hne, hid⟩ := ite_none_left_eq_some.mp hw
      exact hne (str.inj (some.inj hid))
    · exact iff_of_true (writes_none codec) (by simp)
    · refine iff_of_false ?_ (by simp [Omitted])
      intro hwrites
      obtain ⟨w, hw, hsame⟩ := hwrites _ rfl
      rw [sameJson_null.mp hsame] at hw
      cases (ite_none_left_eq_some.mp hw).2
  · rw [hid hread]
    exact omitempty_iff h

/-- What a call is written as. -/
def callFields (name id : String) (args : RequiredJSONObject) : List (String × Option Json) :=
  [("name", some (.str name)), ("args", some args.members.json), ("id", nonEmptyString id)]

variable {codec}

lemma call_iff {call : Entries} {fc : FuncCall} {args : RequiredJSONObject} {id : String}
    (hstrict : strictJson (.obj call) = true) (hread : decodeFuncCall codec call = .ok fc)
    (hargs : parseRequiredOrEmpty codec fc.args = .ok args) (hid : fc.id ≠ "" → id = fc.id) :
    FlatKept codec (.obj call) (structJson (callFields fc.name id args)) ↔ CallPlain call := by
  obtain ⟨name, hname, givenID, hgiven, hread⟩ := bind₂_eq_ok.mp hread
  cases hread
  refine structKept_congr hstrict rfl (by decide) fun _ hbound => ?_
  simp only [hbound, rawMessage_toList] at hname hgiven hargs
  simp only [callFields, flatFields_cons, and_iff_left fieldsKept_nil]
  rw [writes_string_iff codec hname, writes_id_iff codec hgiven hid,
    and_iff_right (writes_required codec (strict_of_mem_lookup hstrict) hargs)]

end calls

/-! ## Responses -/

variable {wrapper m : Members}

section responses

variable {codec : GeminiCodec} {arm id : String} {w : Json} {response : Entries} {tr : ToolResultBlock}
  {codeAssist : Bool} {fr : FuncResp}

/-- The fields of a sealed part. -/
def sealedFields (arm : String) (m : Members) : List (String × Option Json) :=
  ((requiredMembers arm).map fun key => (key, some (Json.str (stringMember m key)))) ++
    [("displayName", nonEmptyString (stringMember m "displayName"))]

/-- The members of a sealed part. -/
def sealedMembers (arm : String) (m : Members) : Members :=
  structMembers [(arm, some (structJson (sealedFields arm m)))]

/-- What the grammar says of the object under an arm. -/
structure Sealed (arm : String) (m : Members) : Prop where
  isMedia : arm ∈ mediaArms
  required : ∀ key ∈ requiredMembers arm, ∃ s, m.lookup key = some (.str s) ∧ s ≠ ""
  only : ∀ key ∈ m.keys, key ∈ requiredMembers arm ∨ key = "displayName"
  displayName : ∀ v ∈ m.lookup "displayName", v = .null ∨ ∃ s, v = .str s

lemma sealed_of_inner {inner : Json} {m : Members} (harm : arm ∈ mediaArms)
    (h : validateFuncRespPartInner codec arm inner = .ok m) :
    decodeMap inner = some m ∧ Sealed arm m := by
  unfold validateFuncRespPartInner at h
  split at h
  · cases h
  next m' hmap =>
  obtain ⟨⟨⟩, hrequired, h⟩ := bind_eq_ok.mp h
  split at h
  · cases h
  next hunknown =>
  have hdisplay : m' = m ∧ ∀ v ∈ m'.lookup "displayName", v = .null ∨ ∃ s, v = .str s := by
    split at h
    · next hnone =>
      cases h
      exact ⟨rfl, by simp [hnone]⟩
    next raw hsome =>
    split at h <;> cases h
    next s hs =>
    refine ⟨rfl, ?_⟩
    intro v hv
    cases hsome.symm.trans hv
    cases raw with
    | null => exact .inl rfl
    | str s => exact .inr ⟨s, rfl⟩
    | bool _ | num _ | arr _ | obj _ => cases hs
  obtain ⟨rfl, hdisplay⟩ := hdisplay
  refine ⟨hmap, harm, ?_, ?_, hdisplay⟩
  · intro key hkey
    have hvalid := forM_eq_ok.mp hrequired key hkey
    unfold validateRequired at hvalid
    split at hvalid
    · cases hvalid
    next raw hraw =>
    split at hvalid
    · cases hvalid
    next s hs =>
    split at hvalid
    · cases hvalid
    next hne =>
    cases raw with
    | str t =>
      cases hs
      exact ⟨_, hraw, hne⟩
    | null =>
      cases hs
      exact absurd rfl hne
    | bool _ | num _ | arr _ | obj _ => cases hs
  · intro key hkey
    have := find?_eq_none.mp hunknown key hkey
    simpa [or_iff_not_imp_left] using this

/-- A part of a response that the grammar accepts is one arm with its object. -/
lemma sealed_of_wrapper (h : validateFuncRespPartWrapper codec wrapper = .ok (arm, m)) :
    ∃ inner, wrapper.entries = [⟨arm, inner⟩] ∧ decodeMap inner = some m ∧ Sealed arm m := by
  unfold validateFuncRespPartWrapper at h
  split at h
  · cases h
  next arm' inner rest hentries =>
  split at h
  · cases h
  next harm =>
  split at h
  · cases h
  next hrest =>
  obtain ⟨m', hinner, h⟩ := bind_eq_ok.mp h
  cases h
  have hmedia : arm ∈ mediaArms := by
    rw [not_and_or] at harm
    simpa [mediaArms] using harm
  have hnil : rest = [] := by simpa using hrest
  obtain ⟨hmap, hsealed⟩ := sealed_of_inner hmedia hinner
  exact ⟨inner, by rw [hentries, hnil], hmap, hsealed⟩

lemma nodup_sealedFields (harm : arm ∈ mediaArms) (m : Members) :
    ((sealedFields arm m).map Prod.fst).Nodup := by
  simp only [mediaArms, mem_cons, not_mem_nil, or_false] at harm
  rcases harm with rfl | rfl <;> simp [sealedFields, requiredMembers]

lemma lookup_sealedFields (harm : arm ∈ mediaArms) (m : Members) (key : String) :
    (structMembers (sealedFields arm m)).lookup key =
      if key ∈ requiredMembers arm then some (.str (stringMember m key))
      else if key = "displayName" then nonEmptyString (stringMember m key) else none := by
  rw [lookup_structMembers _ _ (nodup_sealedFields harm m), sealedFields]
  induction requiredMembers arm with
  | nil =>
    by_cases hkey : key = "displayName"
    · simp [hkey]
    · simp [lookup_cons, beq_false_of_ne hkey, hkey]
  | cons first keys ih =>
  by_cases hkey : key = first
  · simp [hkey]
  · simpa [lookup_cons, beq_false_of_ne hkey, hkey] using ih

lemma stringMember_nonEmpty {m m' : Members}
    (h : m'.lookup key = nonEmptyString (stringMember m key)) :
    stringMember m' key = stringMember m key := by
  unfold stringMember at h ⊢
  rw [h]
  by_cases hs : ((m.lookup key).bind decodeString).getD "" = ""
  · simp [nonEmptyString, hs]
  · simp [nonEmptyString, hs, decodeString]

/-- Writing a sealed part and reading it again changes nothing. -/
lemma stringMember_sealed (harm : arm ∈ mediaArms) (m : Members)
    (hkey : key ∈ requiredMembers arm ∨ key = "displayName") :
    stringMember (structMembers (sealedFields arm m)) key = stringMember m key := by
  have hlookup := lookup_sealedFields harm m key
  by_cases hrequired : key ∈ requiredMembers arm
  · rw [if_pos hrequired] at hlookup
    unfold stringMember
    rw [hlookup]
    rfl
  · rw [if_neg hrequired, if_pos (hkey.resolve_left hrequired)] at hlookup
    exact stringMember_nonEmpty hlookup

lemma sealedFields_sealed (harm : arm ∈ mediaArms) (m : Members) :
    sealedFields arm (structMembers (sealedFields arm m)) = sealedFields arm m := by
  have hmap : ((requiredMembers arm).map fun key =>
      (key, some (str (stringMember (structMembers (sealedFields arm m)) key)))) =
      (requiredMembers arm).map fun key => (key, some (str (stringMember m key))) := by
    apply map_congr_left
    intro key hkey
    rw [stringMember_sealed harm m (.inl hkey)]
  rw [sealedFields, hmap, stringMember_sealed harm m (.inr rfl)]
  rfl

lemma toAList_entries_eq (m : Members) : m.entries.toAList = m :=
  AList.ext (toAList_entries m.nodupKeys)

/-- What is written for a payload that was read from a sealed part. -/
lemma funcRespPart_of_payload {kind : String}
    (harm : arm ∈ mediaArms) (h : geminiFuncRespPartFromUnknown codec
      { kind, payload := ⟨codec.text (sealedMembers arm m), sealedMembers arm m⟩ } = .ok w) :
    w = (sealedMembers arm m).json := by
  unfold geminiFuncRespPartFromUnknown at h
  split at h
  · cases h
  next arm' m' hagain =>
  obtain ⟨inner, hentries, hmap, -⟩ := sealed_of_wrapper hagain
  have hsame : [(⟨arm, structJson (sealedFields arm m)⟩ : Sigma fun _ : String => Json)] =
      [⟨arm', inner⟩] := hentries
  obtain ⟨rfl, rfl⟩ : arm = arm' ∧ structJson (sealedFields arm m) = inner := by
    simpa using hsame
  have hm' : structMembers (sealedFields arm m) = m' := by
    have hmap' : some (structMembers (sealedFields arm m)).entries.toAList = some m' := hmap
    rw [toAList_entries_eq] at hmap'
    exact some.inj hmap'
  subst hm'
  cases h
  show structJson [(arm, some (structJson (sealedFields arm _)))] = _
  rw [sealedFields_sealed harm]
  rfl

lemma sameJson_singleton_iff {codec : WireCodec} {v : Json} :
    SameJson codec (.obj [⟨key, v⟩]) (.obj [⟨key, w⟩]) ↔ SameJson codec v w := by
  rw [sameJson_obj_iff_at key, dlookup_cons_eq, dlookup_cons_eq, rel_some_some]
  intro key' hkey
  rw [dlookup_cons_ne [] _ hkey, dlookup_cons_ne [] _ hkey]

/-- The object under an arm is written as it was exactly when its display name is
not empty. -/
lemma sealedInner_iff {codec : WireCodec} {inner : Entries} (hsealed : Sealed arm inner.toAList) :
    SameJson codec (.obj inner) (structJson (sealedFields arm inner.toAList)) ↔
      ∀ v ∈ inner.dlookup "displayName", ¬ Omitted v := by
  have hout : ∀ key, (structMembers (sealedFields arm inner.toAList)).entries.dlookup key = _ :=
    lookup_sealedFields hsealed.isMedia inner.toAList
  have hname : ∀ arm ∈ mediaArms, "displayName" ∉ requiredMembers arm := by decide
  have hdisplay := hsealed.displayName
  rw [lookup_toAList] at hdisplay
  rw [structJson, Members.json, sameJson_obj_iff_at "displayName", hout,
    if_neg (hname arm hsealed.isMedia), stringMember, lookup_toAList]
  · cases hv : inner.dlookup "displayName" with
    | none => simp [nonEmptyString]
    | some v =>
    rcases hdisplay v hv with rfl | ⟨s, rfl⟩
    · simp [nonEmptyString, decodeString, Omitted]
    · by_cases hs : s = "" <;> simp [nonEmptyString, decodeString, Omitted, hs, SameJson.refl]
  · -- the required members are strings, and there are no others
    intro key hkey
    rw [hout]
    by_cases hrequired : key ∈ requiredMembers arm
    · obtain ⟨s, hs, -⟩ := hsealed.required key hrequired
      rw [if_pos hrequired, stringMember, ← lookup_toAList, hs]
      rfl
    rw [if_neg hrequired, if_neg hkey, eq_comm, ← lookup_toAList, AList.lookup_eq_none]
    intro hmem
    exact (hsealed.only key hmem).elim hrequired hkey

/-- A part of a response that the grammar accepts. -/
def SealedPart (codec : WireCodec) (part : Json) (arm : String) (m : Members) : Prop :=
  ∃ wrapper, decodeMap part = some wrapper ∧
    validateFuncRespPartWrapper codec.toCodec wrapper = .ok (arm, m)

/-- It is one arm with its object. -/
lemma SealedPart.eq {part : Json} (hstrict : strictJson part = true)
    (h : SealedPart codec part arm m) :
    ∃ members : Entries, part = .obj [⟨arm, .obj members⟩] ∧ members.toAList = m ∧
      Sealed arm m := by
  obtain ⟨wrapper, hmap, hwrapper⟩ := h
  obtain ⟨inner, hentries, hinner, hsealed⟩ := sealed_of_wrapper hwrapper
  cases part with
  | null =>
    cases hmap
    cases hentries
  | bool _ | num _ | str _ | arr _ => cases hmap
  | obj entries =>
  cases hmap
  rw [toAList_entries (strictJson_obj.mp hstrict).1] at hentries
  subst hentries
  cases inner with
  | obj members => exact ⟨members, rfl, some.inj hinner, hsealed⟩
  | null =>
    cases hinner
    have htyped : ∀ arm ∈ mediaArms, "mimeType" ∈ requiredMembers arm := by decide
    obtain ⟨s, hs, -⟩ := hsealed.required _ (htyped arm hsealed.isMedia)
    cases hs
  | bool _ | num _ | str _ | arr _ => cases hinner

/-- A part of a response is written as it was exactly when its display name is not
empty. -/
lemma sealedPart_iff {part : Json} (hstrict : strictJson part = true)
    (h : SealedPart codec part arm m) :
    SameJson codec part (sealedMembers arm m).json ↔ ResponsePartPlain part := by
  obtain ⟨members, rfl, rfl, hsealed⟩ := h.eq hstrict
  show SameJson _ _ (.obj [⟨arm, structJson (sealedFields arm members.toAList)⟩]) ↔ _
  rw [sameJson_singleton_iff, sealedInner_iff hsealed]
  simp [ResponsePartPlain, entriesOf]

/-- The struct a sealed object is read into. -/
def FuncRespMedia.of (arm : String) (m : Members) : FuncRespMedia :=
  ⟨stringMember m "mimeType", stringMember m (payloadName arm), stringMember m "displayName"⟩

lemma decodeString_eq_stringMember {s : String}
    (h : Format.decodeString "" (members.dlookup key).toList = .ok s) :
    s = stringMember members.toAList key := by
  unfold stringMember
  rw [lookup_toAList]
  cases hv : members.dlookup key with
  | none =>
    rw [hv] at h
    cases h
    rfl
  | some v =>
  rw [hv] at h
  cases v with
  | str s | null =>
    cases h
    rfl
  | bool _ | num _ | arr _ | obj _ => cases h

lemma decodeFuncRespMedia_sealed {members : Entries} {x : Option FuncRespMedia}
    (hnodup : members.NodupKeys) (hsealed : Sealed arm members.toAList)
    (h : decodeFuncRespMedia codec arm none [.obj members] = .ok x) :
    x = some (.of arm members.toAList) := by
  obtain ⟨x', h, hx⟩ := bind_eq_ok.mp h
  cases hx
  obtain ⟨mimeType, hmimeType, payload, hpayload, displayName, hdisplayName, h⟩ := bind₃_eq_ok.mp h
  cases h
  have hbound : ∀ field, bound codec (requiredMembers arm ++ ["displayName"]) members field =
      (members.dlookup field).toList := by
    refine bound_eq_lookup (fun member hmember => ?_) hnodup
    have hkey := hsealed.only member.1 (by rw [keys_toAList hnodup]; exact mem_keys_of_mem hmember)
    simpa using hkey
  simp only [hbound] at hmimeType hpayload hdisplayName
  rw [FuncRespMedia.of, ← decodeString_eq_stringMember hmimeType,
    ← decodeString_eq_stringMember hpayload, ← decodeString_eq_stringMember hdisplayName]

/-- **A part the grammar accepts** has the payload of its sealed object. -/
lemma SealedPart.payload {part : Json} {p : FuncRespPart} {payload : RequiredJSONObject}
    (h : SealedPart codec part arm m) (hstrict : strictJson part = true)
    (hread : decodeFuncRespPart codec {} part = .ok p)
    (hpayload : geminiFuncRespPartPayload codec p = .ok payload) :
    payload = ⟨codec.text (sealedMembers arm m), sealedMembers arm m⟩ := by
  obtain ⟨members, rfl, rfl, hsealed⟩ := h.eq hstrict
  have hnodup := (strictJson_obj.mp (strict_of_mem_lookup hstrict _ (dlookup_cons_eq _ _ _))).1
  obtain ⟨inlineData, hinline, fileData, hfile, hread⟩ := bind₂_eq_ok.mp hread
  cases hread
  have hbound : ∀ field, bound codec mediaArms [⟨arm, .obj members⟩] field =
      (dlookup field [(⟨arm, .obj members⟩ : Sigma fun _ : String => Json)]).toList :=
    bound_eq_lookup (by simpa using hsealed.isMedia) (nodupKeys_singleton _)
  have hpayload' : wrapperPayload codec (sealedMembers arm members.toAList) = .ok payload := by
    have harm := hsealed.isMedia
    simp only [hbound] at hinline hfile
    simp only [mediaArms, mem_cons, not_mem_nil, or_false] at harm
    rcases harm with rfl | rfl
    · cases decodeFuncRespMedia_sealed hnodup hsealed hinline
      cases hfile
      exact hpayload
    · cases hinline
      cases decodeFuncRespMedia_sealed hnodup hsealed hfile
      exact hpayload
  unfold wrapperPayload at hpayload'
  split at hpayload' <;> cases hpayload'
  rfl

/-- What the grammar says of a response. -/
structure ResponseValid (codec : WireCodec) (response : Entries) : Prop where
  onlyNames : OnlyNames geminiFunctionResponseMembers response
  name : ∃ s, response.dlookup "name" = some (.str s) ∧ s ≠ ""
  parts : ∀ elems, response.dlookup "parts" = some (.arr elems) →
    ∀ part ∈ elems, ∃ arm m, SealedPart codec part arm m
  response : ∃ members, response.dlookup "response" = some (.obj members)

lemma sealedPart_of_validate {codec : WireCodec} {place : String} {part : Json}
    (h : validateGeminiFuncRespPart codec place part = .ok ()) :
    ∃ arm m, SealedPart codec part arm m := by
  unfold validateGeminiFuncRespPart at h
  split at h
  · cases h
  next wrapper hmap =>
  split at h
  · cases h
  next r hvalid => exact ⟨r.1, r.2, wrapper, hmap, hvalid⟩

/-- The last array is the slice. -/
lemma decodeRawSlice_last {values parts : List Json} (h : decodeRawSlice values = .ok parts) :
    rawMessage values = some (.arr parts) ∨
      parts = [] ∧ ∀ elems, rawMessage values ≠ some (.arr elems) := by
  obtain ⟨s, hs, rfl⟩ := map_eq_ok.mp h
  rcases eq_nil_or_concat values with rfl | ⟨init, last, rfl⟩
  · cases hs
    exact .inr ⟨rfl, fun _ => nofun⟩
  rw [concat_eq_append] at hs ⊢
  rw [foldlM_append] at hs
  obtain ⟨old, -, new, hnew, hs⟩ := bind₂_eq_ok.mp hs
  cases hs
  rw [rawMessage, getLast?_concat]
  cases last with
  | null =>
    cases hnew
    exact .inr ⟨rfl, fun _ => nofun⟩
  | arr elems =>
    cases elems with
    | nil =>
      cases hnew
      exact .inl rfl
    | cons e rest =>
    obtain ⟨elems, helems, hnew⟩ := bind_eq_ok.mp hnew
    cases hnew
    have hsame := map_eq_of_mapM (g := id) (h := Prod.fst) helems
      fun a b hab => (Except.ok.inj hab).symm
    rw [List.map_id, zipIdx_map_fst] at hsame
    exact .inl (by rw [hsame])
  | bool _ | num _ | str _ | obj _ => cases hnew

lemma responseValid_of_validate {codec : WireCodec} {place : String} (hnodup : response.NodupKeys)
    (h : validateGeminiFunctionResponse codec place (.obj response) = .ok ()) :
    ResponseValid codec response := by
  rw [validateGeminiFunctionResponse] at h
  simp only [decodeMap] at h
  split at h
  · cases h
  next hunknown =>
  obtain ⟨name, hname, _, -, _, -, h⟩ := bind₃_eq_ok.mp h
  obtain ⟨parts, hparts, h⟩ := bind_eq_ok.mp h
  rw [lookup_toAList] at hname hparts
  obtain ⟨hne, h⟩ := guard_eq_ok.mp h
  obtain ⟨hobj, h⟩ := guard_eq_ok.mp h
  refine ⟨?_, ⟨name, ?_, hne⟩, ?_, ?_⟩
  · intro m hm
    have hkey : m.1 ∈ response.toAList.keys := by
      rw [keys_toAList hnodup]
      exact mem_keys_of_mem hm
    have := find?_eq_none.mp hunknown m.1 hkey
    simpa using this
  · exact Anthropic.eq_some_of_decodeString hname hne
  · intro elems helems part hpart
    rw [helems] at hparts
    obtain harr | ⟨-, hnone⟩ := decodeRawSlice_last hparts
    rotate_left
    · exact absurd rfl (hnone elems)
    cases harr
    split at h
    · cases h
    obtain ⟨i, hi⟩ := getElem?_of_mem hpart
    exact sealedPart_of_validate (forM_eq_ok.mp h (part, i) (mk_mem_zipIdx_iff_getElem?.mpr hi))
  · rw [lookup_toAList] at hobj
    split at hobj
    next members hmembers => exact ⟨members, hmembers⟩
    · exact absurd rfl hobj

/-- A part of a response and what is written for it. -/
def PartWritten (codec : GeminiCodec) (p : FuncRespPart) (w : Json) : Prop :=
  ∃ payload, geminiFuncRespPartPayload codec p = .ok payload ∧
    geminiFuncRespPartFromUnknown codec { kind := "part", payload } = .ok w

lemma parts_written {parts : List FuncRespPart} {payloads : List RequiredJSONObject}
    {out : List Json} (hpayloads : parts.mapM (geminiFuncRespPartPayload codec) = .ok payloads)
    (hout : (payloads.map fun payload => ({ unknown := some { kind := "part", payload } } :
      ToolResultContentBlock)).mapM (laterResultPart codec) = .ok out) :
    Forall₂ (PartWritten codec) parts out := by
  rw [mapM_map] at hout
  exact Align.forall₂_trans (fun _ payload _ hpayload hw => ⟨payload, hpayload, hw⟩)
    (mapM_eq_ok.mp hpayloads) (mapM_eq_ok.mp hout)

lemma writes_parts_iff {o : Option Json} {parts : List FuncRespPart} {out : List Json}
    (hstrict : ∀ v ∈ o, strictJson v = true)
    (hvalid : ∀ elems, o = some (.arr elems) → ∀ part ∈ elems, ∃ arm m, SealedPart codec part arm m)
    (hread : decodeSlice {} (decodeFuncRespPart codec) o.toList = .ok parts)
    (hwritten : Forall₂ (PartWritten codec) parts out) :
    Writes codec o (nonEmptySlice out) ↔ ∀ v ∈ o, ∃ elems, v = .arr elems ∧ elems ≠ [] ∧
      ∀ part ∈ elems, ResponsePartPlain part := by
  cases o with
  | none => exact iff_of_true (writes_none _) (by simp)
  | some v =>
  rcases decodeSlice_singleton hread with ⟨rfl, rfl⟩ | ⟨elems, rfl, helems⟩
  · cases hwritten
    exact iff_of_false (by simp [Writes, nonEmptySlice]) (by simp)
  have hpairs : Forall₂ (fun part w => ∃ p, decodeFuncRespPart codec {} part = .ok p ∧
      PartWritten codec p w) elems out :=
    Align.forall₂_trans (fun _ p _ hp hw => ⟨p, hp, hw⟩) (mapM_eq_ok.mp helems) hwritten
  have hstrictElems := strictJson_arr.mp (hstrict _ rfl)
  have hiff : Forall₂ (SameJson codec) elems out ↔ ∀ part ∈ elems, ResponsePartPlain part := by
    refine Align.forall₂_iff_forall hpairs fun part hpart w hw => ?_
    obtain ⟨p, hp, payload, hpayload, hw⟩ := hw
    obtain ⟨arm, m, hsealed⟩ := hvalid elems rfl part hpart
    have hpart' := hstrictElems part hpart
    obtain ⟨-, -, -, hmedia⟩ := hsealed.eq hpart'
    rw [hsealed.payload hpart' hp hpayload] at hw
    rw [funcRespPart_of_payload hmedia.isMedia hw]
    exact sealedPart_iff hpart' hsealed
  simp only [Writes, mem_def, some.injEq, forall_eq', exists_nonEmptySlice, sameJson_arr_iff, hiff,
    ← Align.ne_nil_iff hpairs]
  simp

/-- What a response is written as. -/
def responseFields (fr : FuncResp) (id : String) (response : Json) (parts : List Json) :
    List (String × Option Json) :=
  [("name", some (.str fr.name)), ("response", some response), ("id", nonEmptyString id),
    ("willContinue", fr.willContinue.map Json.bool), ("scheduling", fr.scheduling.map Json.str),
    ("parts", nonEmptySlice parts)]

/-- The text of a response reads as the response, so it is written as it was. -/
lemma geminiResponseObject_spelled (laws : TextLaws codec) {i j : Nat}
    (hstrict : strictJson (.obj members) = true) (codeAssist : Bool) :
    geminiResponseObject codec (spelled codec i j (some (.obj members))) codeAssist
      (geminiResponseIsError (some (.obj members))) = .obj members := by
  obtain ⟨hne, hparse⟩ := laws.spelled i j members hstrict
  show geminiResponseObject codec (codec.spelling i j (.obj members)) codeAssist
    (members.toAList.lookup "error").isSome = _
  rw [geminiResponseObject, if_neg hne, hparse, lookup_toAList]
  cases herror : dlookup "error" members with
  | none => rfl
  | some v => simp [herror]

lemma toolResultWire_eq (laws : TextLaws codec) {i j : Nat}
    (hstrict : strictJson (.obj members) = true) (hresponse : fr.response = some (.obj members))
    (hblock : geminiToolResultBlock codec i j fr id = .ok tr)
    (hwire : geminiToolResultWire codec codeAssist tr = .ok w) :
    ∃ parts, Forall₂ (PartWritten codec) fr.parts parts ∧
      w = structJson (responseFields fr id (.obj members) parts) := by
  obtain ⟨payloads, hpayloads, hblock⟩ := bind_eq_ok.mp hblock
  cases hblock
  unfold geminiToolResultWire at hwire
  split at hwire
  · cases hwire
  obtain ⟨parts, hparts, hwire⟩ := bind_eq_ok.mp hwire
  cases hwire
  refine ⟨parts, parts_written hpayloads hparts, ?_⟩
  have herror : ((if geminiResponseIsError fr.response then some true else none) == some true) =
      geminiResponseIsError fr.response := by
    cases geminiResponseIsError fr.response <;> rfl
  rw [herror, hresponse, geminiResponseObject_spelled laws hstrict]
  rfl

lemma response_iff (laws : TextLaws codec) {i j : Nat}
    (hstrict : strictJson (.obj response) = true) (hvalid : ResponseValid codec response)
    (hread : decodeFuncResp codec response = .ok fr) (hid : fr.id ≠ "" → id = fr.id)
    (hblock : geminiToolResultBlock codec i j fr id = .ok tr)
    (hwire : geminiToolResultWire codec codeAssist tr = .ok w) :
    FlatKept codec (.obj response) w ↔ ResponsePlain response := by
  have hnodup := (strictJson_obj.mp hstrict).1
  obtain ⟨name, hname, givenID, hgiven, willContinue, hcontinue, hread⟩ := bind₃_eq_ok.mp hread
  obtain ⟨scheduling, hscheduling, parts, hparts, hread⟩ := bind₂_eq_ok.mp hread
  cases hread
  have hbound : ∀ field, bound codec geminiFunctionResponseMembers response field =
      (response.dlookup field).toList := bound_eq_lookup hvalid.onlyNames hnodup
  simp only [hbound] at hname hgiven hcontinue hscheduling hparts
  simp only [hbound, rawMessage_toList] at hblock
  obtain ⟨members, hmembers⟩ := hvalid.response
  have hinner := strict_of_mem_lookup hstrict _ hmembers
  obtain ⟨out, hout, rfl⟩ := toolResultWire_eq laws hinner hmembers hblock hwire
  refine (structKept_iff hnodup (by simp [responseFields])).trans ?_
  show OnlyNames geminiFunctionResponseMembers response ∧ _ ↔ _
  rw [and_iff_right hvalid.onlyNames]
  simp only [responseFields, flatFields_cons, and_iff_left fieldsKept_nil]
  obtain ⟨s, hs, -⟩ := hvalid.name
  have hname' : ∀ v ∈ response.dlookup "name", v ≠ .null := by simp [hs]
  rw [and_iff_right ((writes_string_iff _ hname).mpr hname'),
    and_iff_right (writes_of_eq _ hmembers.symm), writes_id_iff _ hgiven hid,
    writes_boolPtr_iff _ hcontinue, writes_stringPtr_iff _ hscheduling,
    writes_parts_iff (strict_of_mem_lookup hstrict) hvalid.parts hparts hout, ResponsePlain]

end responses

end ToranaEdge.Format.Gemini
