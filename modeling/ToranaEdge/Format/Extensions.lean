import ToranaEdge.Format.Anthropic
import ToranaEdge.Format.Gemini
import ToranaEdge.Format.OpenAI

/-! # Provider extensions and canonical members

A request plugin with the parameters grant may write the provider
extensions.  Every bare wire merges them over the struct it has written from
the request's own fields, so a canonical member named there takes the
extension's value.  Only Gemini's sampling parameters are rebuilt from the
request; and the Code Assist envelope is refused when it names one. -/

namespace ToranaEdge.Format

open Engine Attempt List Option

/-! ## Canonical members -/

/-- The value at a path of member names. -/
def valueAt : List String → Json → Option Json
  | [], j => some j
  | key :: keys, .obj members => (List.dlookup key members).bind (valueAt keys)
  | _ :: _, _ => none

/-- `Marshal` of the adapter. -/
def marshal (codec : Codec) : Provider → ChatRequest → Except String Members
  | .anthropic => Anthropic.marshal codec
  | .openai => OpenAI.marshal codec
  | .gemini => Gemini.marshal codec

/-- The wires that merge the extensions over the body: not the Responses API and
not Code Assist. -/
def Bare (chat : ChatRequest) : Provider → Prop
  | .anthropic => True
  | .openai => chat.openAIVariant = .chat
  | .gemini => chat.codeAssist = false

/-- The struct the adapter writes from the request's own fields. -/
def requestFields (codec : Codec) :
    Provider → ChatRequest → Except String (List (String × Option Json))
  | .anthropic => Anthropic.anthropicRequest codec
  | .openai => OpenAI.marshalOutput codec
  | .gemini => Gemini.geminiRequest codec

/-- The canonical members a wire carries at its top level. -/
def canonicalKeys : Provider → List String
  | .anthropic => ["model", "messages", "system", "tools", "stream", "max_tokens", "temperature",
      "top_p", "stop_sequences"]
  | .openai => ["model", "messages", "tools", "stream", "max_tokens", "temperature", "top_p", "stop"]
  | .gemini => ["contents", "systemInstruction", "tools"]

/-- The places of every canonical member. -/
def canonicalPaths (provider : Provider) : List (List String) :=
  (canonicalKeys provider).map (fun key => [key]) ++
    match provider with
    | .gemini => Gemini.canonicalGenerationMembers.map fun key => ["generationConfig", key]
    | _ => []

/-- The value the request's own field has on the wire, `none` when it is left
out. -/
def requestMember (codec : Codec) (provider : Provider) (chat : ChatRequest) (key : String) :
    Option Json :=
  match requestFields codec provider chat with
  | .ok fields => (fields.lookup key).join
  | .error _ => none

def withExtensions (chat : ChatRequest) (ext : OptionalJSONObject) : ChatRequest :=
  { chat with providerExtensions := ext }

@[simp] lemma valueAt_top (m : Members) (key : String) : valueAt [key] m.json = m.lookup key := by
  show (dlookup key m.entries).bind (valueAt []) = dlookup key m.entries
  cases dlookup key m.entries <;> rfl

/-! ## Bodies

What each body holds at a member, in terms of the extensions and of the
request's own fields. -/

variable {key : String}

section bodies

variable {codec : Codec} {chat : ChatRequest} {ext : OptionalJSONObject} {wire : Members}

section

variable {fields : List (String × Option Json)} {provider : Provider}
  (hfields : requestFields codec provider chat = .ok fields)
include hfields

lemma requestMember_eq (key : String) :
    requestMember codec provider chat key = (fields.lookup key).join := by
  rw [requestMember, hfields]

/-- The JSON names of the struct's fields. -/
def structKeys : Provider → List String
  | .anthropic => ["model", "max_tokens", "temperature", "top_p", "stop_sequences", "system",
      "messages", "tools", "stream"]
  | .openai => ["model", "messages", "tools", "stream", "max_tokens", "temperature", "top_p", "stop"]
  | .gemini => ["systemInstruction", "contents", "tools", "safetySettings"]

lemma requestFields_keys : fields.map Prod.fst = structKeys provider := by
  cases provider with
  | anthropic =>
    obtain ⟨system, -, messages, -, temperature, -, hfields⟩ := bind₃_eq_ok.mp hfields
    obtain ⟨topP, -, hfields⟩ := bind_eq_ok.mp hfields
    cases hfields
    rfl
  | openai =>
    obtain ⟨messages, -, temperature, -, topP, -, hfields⟩ := bind₃_eq_ok.mp hfields
    cases hfields
    rfl
  | gemini =>
  obtain ⟨sys, -, contents, -, safetySettings, -, hfields⟩ := bind₃_eq_ok.mp hfields
  cases hfields
  rfl

/-- The struct written from the request's fields, with the extensions spliced
over it. -/
lemma lookup_spliced {what : String}
    (hsplice : spliceExtensions what (structMembers fields) ext = .ok wire) (key : String) :
    wire.lookup key = ((ext.getD ∅).lookup key).or (requestMember codec provider chat key) := by
  have hnodup : (fields.map Prod.fst).Nodup := by
    rw [requestFields_keys hfields]
    cases provider <;> decide
  rw [lookup_spliceExtensions hsplice, lookup_structMembers fields key hnodup,
    requestMember_eq hfields]

end

lemma lookup_anthropic (hok : Anthropic.marshal codec (withExtensions chat ext) = .ok wire)
    (hkey : key ≠ "output_config") :
    wire.lookup key = ((ext.getD ∅).lookup key).or (requestMember codec .anthropic chat key) := by
  obtain ⟨-, -, body, hbody, hok⟩ := bind₂_eq_ok.mp hok
  rw [lookup_applyOutputFormat hok rfl hkey]
  unfold Anthropic.marshalBody at hbody
  split at hbody
  · cases hbody
  obtain ⟨-, -, fields, hfields, hbody⟩ := bind₂_eq_ok.mp hbody
  have hown : requestFields codec .anthropic chat = .ok fields := hfields
  exact lookup_spliced hown hbody key

lemma lookup_openai (hchat : chat.openAIVariant = .chat)
    (hok : OpenAI.marshal codec (withExtensions chat ext) = .ok wire)
    (hkey : key ≠ "response_format") :
    wire.lookup key = ((ext.getD ∅).lookup key).or (requestMember codec .openai chat key) := by
  have hvariant : (withExtensions chat ext).openAIVariant ≠ .responses := by
    show chat.openAIVariant ≠ .responses
    rw [hchat]
    decide
  obtain ⟨-, -, body, hbody, hok⟩ := bind₂_eq_ok.mp hok
  rw [lookup_applyOutputFormat hok (if_neg hvariant) hkey]
  unfold OpenAI.marshalBody at hbody
  split at hbody
  · cases hbody
  rw [if_neg hvariant] at hbody
  obtain ⟨-, -, fields, hfields, hbody⟩ := bind₂_eq_ok.mp hbody
  have hown : requestFields codec .openai chat = .ok fields := hfields
  exact lookup_spliced hown hbody key

end bodies

/-! ## Gemini's generation config

The sampling parameters of the wire are the request's, whatever the
extensions' own generation config says. -/

section generation

open Gemini

variable {codec : Codec} {chat : ChatRequest}

/-- A member of an object that may be missing or no object. -/
def memberOf (config : Option Json) (key : String) : Option Json := config.bind (valueAt [key])

lemma memberOf_json (m : Members) (key : String) :
    memberOf (some m.json) key = m.lookup key := valueAt_top m key

lemma memberOf_parse {config : Option Json} {parsed : OptionalJSONObject}
    (hparse : parseOptionalJSONObject config = .ok parsed) (key : String) :
    (parsed.getD ∅).lookup key = memberOf config key := by
  unfold parseOptionalJSONObject at hparse
  split at hparse
  · cases hparse
    rfl
  · rename_i members
    cases hparse
    show AList.lookup key members.toAList = (dlookup key members).bind (valueAt [])
    rw [AList.lookup_to_alist]
    cases dlookup key members <;> rfl
  · cases hparse

lemma lookup_deleteMember_self (obj : OptionalJSONObject) (key : String) :
    ((obj.deleteMember key).getD ∅).lookup key = none := by
  cases obj with
  | none => rfl
  | some members => exact AList.lookup_erase key members

lemma lookup_foldl_deleteMember (keys : List String) (obj : OptionalJSONObject) (key : String) :
    ((keys.foldl OptionalJSONObject.deleteMember obj).getD ∅).lookup key =
      if key ∈ keys then none else (obj.getD ∅).lookup key := by
  induction keys generalizing obj with
  | nil => simp
  | cons k keys ih =>
  rw [foldl_cons, ih]
  by_cases hk : key = k
  · subst hk
    simp [lookup_deleteMember_self]
  · simp [hk, lookup_deleteMember_ne obj hk]

lemma lookup_setField (obj : OptionalJSONObject) (field : String × Option Json) (key : String) :
    ((setField obj field).getD ∅).lookup key =
      if key = field.1 then field.2.or ((obj.getD ∅).lookup key) else (obj.getD ∅).lookup key := by
  obtain ⟨name, value⟩ := field
  cases value with
  | none => simp [setField]
  | some v =>
  by_cases hname : key = name
  · subst hname
    simp only [if_true]
    exact AList.lookup_insert (obj.getD ∅)
  · simp only [hname]
    exact lookup_setMember_ne obj v hname

lemma lookup_foldl_setField (fields : List (String × Option Json)) (obj : OptionalJSONObject)
    (key : String) (hnodup : (fields.map Prod.fst).Nodup) :
    ((fields.foldl setField obj).getD ∅).lookup key =
      (fields.lookup key).join.or ((obj.getD ∅).lookup key) := by
  induction fields generalizing obj with
  | nil => simp
  | cons f fields ih =>
  rw [map_cons, nodup_cons] at hnodup
  rw [foldl_cons, ih _ hnodup.2, lookup_setField]
  obtain ⟨name, value⟩ := f
  by_cases hname : key = name
  · subst hname
    rw [if_pos rfl, lookup_eq_none_of_not_mem hnodup.1, lookup_cons_self]
    rfl
  · have hbeq : (key == name) = false := by simpa using hname
    rw [if_neg hname, lookup_cons, hbeq]

lemma generationMembers_keys {fields : List (String × Option Json)}
    (hfields : generationMembers codec chat = .ok fields) :
    fields.map Prod.fst = canonicalGenerationMembers := by
  obtain ⟨temperature, -, topP, -, hfields⟩ := bind₂_eq_ok.mp hfields
  cases hfields
  rfl

/-- The rebuilt extensions: the sampling parameters are the request's, and every
member other than the generation config is as it was. -/
lemma rebuildGenerationConfig_spec {inner exts : OptionalJSONObject}
    (hrebuild : rebuildGenerationConfig codec chat inner = .ok exts) :
    (∀ key, key ≠ "generationConfig" → (exts.getD ∅).lookup key = (inner.getD ∅).lookup key) ∧
      ∃ fields, generationMembers codec chat = .ok fields ∧ ∀ key ∈ canonicalGenerationMembers,
          memberOf ((exts.getD ∅).lookup "generationConfig") key = (fields.lookup key).join := by
  obtain ⟨gc, -, fields, hfields, hrebuild⟩ := bind₂_eq_ok.mp hrebuild
  have hnodup : (fields.map Prod.fst).Nodup := by
    rw [generationMembers_keys hfields]
    decide
  -- the canonical members were deleted first, so they come from the fields alone
  have hread : ∀ key ∈ canonicalGenerationMembers, ((fields.foldl setField
        (canonicalGenerationMembers.foldl OptionalJSONObject.deleteMember gc)).getD ∅).lookup key =
        (fields.lookup key).join := by
    intro key hkey
    rw [lookup_foldl_setField fields _ key hnodup, lookup_foldl_deleteMember, if_pos hkey, or_none]
  cases hresult : fields.foldl setField
      (canonicalGenerationMembers.foldl OptionalJSONObject.deleteMember gc) with
  | none =>
    rw [hresult] at hrebuild hread
    cases hrebuild
    refine ⟨fun key hkey => lookup_deleteMember_ne inner hkey, fields, hfields, ?_⟩
    intro key hkey
    rw [lookup_deleteMember_self, ← hread key hkey]
    rfl
  | some rebuilt =>
    rw [hresult] at hrebuild hread
    cases hrebuild
    refine ⟨fun key hkey => lookup_setMember_ne inner rebuilt.json hkey, fields, hfields, ?_⟩
    intro key hkey
    have hset : ((inner.setMember "generationConfig" rebuilt.json).getD ∅).lookup
        "generationConfig" = some rebuilt.json := AList.lookup_insert (inner.getD ∅)
    rw [hset, memberOf_json]
    exact hread key hkey

/-- The output constraint sets members of its own in the generation config. -/
lemma lookup_geminiOutputConfig {f : OutputFormat} {gc out : OptionalJSONObject}
    (hconfig : geminiOutputConfig f gc = .ok out) (hkey : key ∈ canonicalGenerationMembers) :
    (out.getD ∅).lookup key = (gc.getD ∅).lookup key := by
  have hmime : key ≠ "responseMimeType" := by
    rintro rfl
    exact absurd hkey (by decide)
  have hschema : key ≠ "responseJsonSchema" := by
    rintro rfl
    exact absurd hkey (by decide)
  have htyped : ((if f.mode ≠ 0 then gc.setMember "responseMimeType" (.str "application/json")
      else gc).getD ∅).lookup key = (gc.getD ∅).lookup key := by
    split
    · exact lookup_setMember_ne gc _ hmime
    · rfl
  unfold geminiOutputConfig at hconfig
  dsimp only at hconfig
  split at hconfig
  · split at hconfig <;> cases hconfig
    exact (lookup_setMember_ne _ _ hschema).trans htyped
  · cases hconfig
    exact htyped

lemma config_applyOutputFormat (hbare : chat.codeAssist = false) {raw out : Members}
    (happly : applyOutputFormat codec .gemini chat raw = .ok out)
    (hkey : key ∈ canonicalGenerationMembers) :
    memberOf (out.lookup "generationConfig") key = memberOf (raw.lookup "generationConfig") key := by
  have hpath : outputPath chat .gemini = ["generationConfig"] := by
    show (if chat.codeAssist then _ else _) = _
    rw [hbare]
    rfl
  unfold applyOutputFormat at happly
  split at happly
  · cases happly
    rfl
  obtain ⟨-, -, happly⟩ := bind_eq_ok.mp happly
  dsimp only at happly
  rw [hpath] at happly
  split at happly
  · cases happly
  obtain ⟨existing, hexisting, parsed, hparsed, gc, hgc, happly⟩ := bind₃_eq_ok.mp happly
  have hread : existing = raw.lookup "generationConfig" := by
    unfold rawAt at hexisting
    split at hexisting <;> cases hexisting <;> simp_all
  cases gc with
  | none =>
    cases happly
    rfl
  | some members =>
  obtain ⟨obj, hobj, happly⟩ := bind_eq_ok.mp happly
  cases hobj
  cases happly
  have hset : AList.lookup "generationConfig"
      (getD (OptionalJSONObject.setMember (some raw) "generationConfig" members.json)
        ∅) = some members.json := AList.lookup_insert raw
  rw [hset, memberOf_json, ← hread, ← memberOf_parse hparsed key]
  exact lookup_geminiOutputConfig hgc hkey

variable {ext : OptionalJSONObject} {wire : Members}

/-- The bare Gemini wire, member by member. -/
lemma gemini_spec (hbare : chat.codeAssist = false)
    (hok : Gemini.marshal codec (withExtensions chat ext) = .ok wire) :
    (∀ key, key ≠ "generationConfig" → wire.lookup key =
        ((ext.getD ∅).lookup key).or (requestMember codec .gemini chat key)) ∧
      (∃ own, requestFields codec .gemini chat = .ok own) ∧
      ∃ fields, generationMembers codec chat = .ok fields ∧ ∀ key ∈ canonicalGenerationMembers,
          memberOf (wire.lookup "generationConfig") key = (fields.lookup key).join := by
  obtain ⟨-, -, body, hbody, hok⟩ := bind₂_eq_ok.mp hok
  unfold marshalBody at hbody
  split at hbody
  · cases hbody
  obtain ⟨-, -, hbody⟩ := bind_eq_ok.mp hbody
  have hcode : (withExtensions chat ext).codeAssist = false := hbare
  rw [hcode] at hbody
  obtain ⟨fields, hfields, hbody⟩ := bind_eq_ok.mp hbody
  have hown : requestFields codec .gemini chat = .ok fields := hfields
  split at hbody
  · cases hbody
  next exts hrebuild =>
  obtain ⟨hothers, config, hconfig, hvalues⟩ := rebuildGenerationConfig_spec hrebuild
  refine ⟨?_, ⟨fields, hown⟩, config, hconfig, ?_⟩
  · intro key hkey
    have hpath : outputPath (withExtensions chat ext) .gemini = ["generationConfig"] := by
      show (if chat.codeAssist then _ else _) = _
      rw [hbare]
      rfl
    rw [lookup_applyOutputFormat hok hpath hkey, lookup_spliced hown hbody key, hothers key hkey]
    rfl
  · intro key hkey
    -- the struct itself has no generation config
    have hnone : requestMember codec .gemini chat "generationConfig" = none := by
      rw [requestMember_eq hown, lookup_eq_none_of_not_mem]
      · rfl
      · rw [requestFields_keys hown]
        decide
    rw [config_applyOutputFormat hcode hok hkey, lookup_spliced hown hbody, hnone, or_none]
    exact hvalues key hkey

end generation

/-! ## What the extensions can change -/

variable {provider : Provider}

lemma lookup_marshal {codec : Codec} {chat : ChatRequest}
    {ext : OptionalJSONObject} {wire : Members} (hbare : Bare chat provider)
    (hok : marshal codec provider (withExtensions chat ext) = .ok wire)
    (hkey : key ∈ canonicalKeys provider) :
    wire.lookup key = ((ext.getD ∅).lookup key).or (requestMember codec provider chat key) := by
  cases provider with
  | anthropic =>
    apply lookup_anthropic hok
    rintro rfl
    exact absurd hkey (by decide)
  | openai =>
    apply lookup_openai hbare hok
    rintro rfl
    exact absurd hkey (by decide)
  | gemini =>
  apply (gemini_spec hbare hok).1
  rintro rfl
  exact absurd hkey (by decide)

/-- An overriding value makes no difference exactly when it is the value there
already. -/
lemma or_eq_right_iff {α : Type} (own top : Option α) :
    top.or own = own ↔ ∀ v, top = some v → own = some v := by
  cases top with
  | none => simp
  | some v =>
  constructor
  · intro h w hw
    cases hw
    exact h.symm
  · intro h
    exact (h v rfl).symm

lemma valueAt_canonical_iff {wire base : Members} :
    (∀ path ∈ canonicalPaths provider, valueAt path wire.json = valueAt path base.json) ↔
      (∀ key ∈ canonicalKeys provider, wire.lookup key = base.lookup key) ∧
        (provider = .gemini → ∀ key ∈ Gemini.canonicalGenerationMembers,
          memberOf (wire.lookup "generationConfig") key =
            memberOf (base.lookup "generationConfig") key) := by
  unfold canonicalPaths
  rw [forall_mem_append, List.forall_mem_map]
  refine and_congr ?_ ?_
  · simp only [valueAt_top]
  · cases provider with
    | anthropic | openai => simp
    | gemini =>
      rw [List.forall_mem_map]
      exact ⟨fun h _ => h, fun h => h rfl⟩

/-- On the bare wires the provider extensions leave every canonical member as it
is without them exactly when each canonical member they name at the top level
has there the value of the request's own field. -/
theorem marshal_extensions_iff (codec : Codec) (provider : Provider) (chat : ChatRequest)
    (ext wire base : Members) (hbare : Bare chat provider)
    (hwire : marshal codec provider (withExtensions chat (some ext)) = .ok wire)
    (hbase : marshal codec provider (withExtensions chat none) = .ok base) :
    (∀ path ∈ canonicalPaths provider, valueAt path wire.json = valueAt path base.json) ↔
      ∀ key ∈ canonicalKeys provider, ∀ v, ext.lookup key = some v →
        requestMember codec provider chat key = some v := by
  rw [valueAt_canonical_iff]
  have htop : (∀ key ∈ canonicalKeys provider, wire.lookup key = base.lookup key) ↔
      ∀ key ∈ canonicalKeys provider, ∀ v, ext.lookup key = some v →
        requestMember codec provider chat key = some v := by
    refine forall₂_congr fun key hkey => ?_
    rw [lookup_marshal hbare hwire hkey, lookup_marshal hbare hbase hkey]
    exact or_eq_right_iff _ _
  rw [htop, and_iff_left_iff_imp]
  rintro - rfl key hkey
  obtain ⟨fields, hfields, hread⟩ := (gemini_spec hbare hwire).2.2
  obtain ⟨fields', hfields', hread'⟩ := (gemini_spec hbare hbase).2.2
  rw [hfields] at hfields'
  cases hfields'
  rw [hread key hkey, hread' key hkey]

/-! ## Concrete requests -/

/-- A codec that accepts every request and encodes no double. -/
def plainCodec : Codec where
  validateReplacement _ := .ok ()
  validateOutputFormat _ := .ok ()
  encodeFloat _ := .error "no double"
  parse _ := .error "no text"
  quote s := s
  recode := .ok
  marshalResponses _ := .error "no responses"

/-- One user message and no tools. -/
def greeting : ChatRequest where
  model := "m"
  messages := [{ role := roleUser, blocks := [{ text := some { text := "hi" } }] }]

def userTag : Members := structMembers [("user", some (.str "u"))]

lemma exists_of_isOk {α : Type} {x : Except String α} (h : x.isOk = true) : ∃ a, x = .ok a := by
  cases x with
  | error err => cases h
  | ok a => exact ⟨a, rfl⟩

lemma exists_of_bind_isOk {α β : Type} {x : Except String α} {f : α → Except String β}
    (h : (x >>= f).isOk = true) : ∃ a b, x = .ok a ∧ f a = .ok b := by
  obtain ⟨b, hb⟩ := exists_of_isOk h
  obtain ⟨a, ha, hb⟩ := Attempt.bind_eq_ok.mp hb
  exact ⟨a, b, ha, hb⟩

theorem marshal_extensions_iff_userTag : ∃ wire base,
    marshal plainCodec .anthropic (withExtensions greeting (some userTag)) = .ok wire ∧
      marshal plainCodec .anthropic (withExtensions greeting none) = .ok base ∧
      ∀ path ∈ canonicalPaths .anthropic, valueAt path wire.json = valueAt path base.json := by
  have hwire : (marshal plainCodec .anthropic (withExtensions greeting (some userTag))).isOk := by
    decide +kernel
  have hbase : (marshal plainCodec .anthropic (withExtensions greeting none)).isOk := by
    decide +kernel
  obtain ⟨wire, hwire⟩ := exists_of_isOk hwire
  obtain ⟨base, hbase⟩ := exists_of_isOk hbase
  refine ⟨wire, base, hwire, hbase, ?_⟩
  refine (marshal_extensions_iff plainCodec .anthropic greeting userTag wire base trivial hwire
    hbase).mpr ?_
  have hnone : ∀ key ∈ canonicalKeys .anthropic, (userTag.lookup key).isNone := by decide +kernel
  intro key hkey v hv
  have hkeyNone := hnone key hkey
  rw [hv] at hkeyNone
  cases hkeyNone

/-- A tool the request does not have. -/
def foreignTools : Json := .arr [structJson [("name", some (.str "exfiltrate"))]]

/-- Extensions that name nothing but the tools. -/
def toolsExtension : Members := structMembers [("tools", some foreignTools)]

/-- The tools member of the marshalled request is the extension's; without the
extension the request has none. -/
def ToolsInjected (provider : Provider) : Prop :=
  ∃ wire base, marshal plainCodec provider (withExtensions greeting (some toolsExtension)) =
      .ok wire ∧
    marshal plainCodec provider (withExtensions greeting none) = .ok base ∧
    valueAt ["tools"] wire.json = some foreignTools ∧ valueAt ["tools"] base.json = none

lemma toolsInjected_of (hbare : Bare greeting provider) (hkey : "tools" ∈ canonicalKeys provider)
    (hwire : (marshal plainCodec provider
      (withExtensions greeting (some toolsExtension))).isOk = true)
    (hbase : (marshal plainCodec provider (withExtensions greeting none)).isOk = true)
    (hown : (requestMember plainCodec provider greeting "tools").isNone = true) :
    ToolsInjected provider := by
  obtain ⟨wire, hwire⟩ := exists_of_isOk hwire
  obtain ⟨base, hbase⟩ := exists_of_isOk hbase
  refine ⟨wire, base, hwire, hbase, ?_, ?_⟩
  · rw [valueAt_top, lookup_marshal hbare hwire hkey]
    rfl
  · rw [valueAt_top, lookup_marshal hbare hbase hkey, isNone_iff_eq_none.mp hown]
    rfl

theorem tools_injected :
    ToolsInjected .anthropic ∧ ToolsInjected .openai ∧ ToolsInjected .gemini := by
  refine ⟨?_, ?_, ?_⟩
  · exact toolsInjected_of trivial (by decide) (by decide +kernel) (by decide +kernel)
      (by decide +kernel)
  all_goals
    exact toolsInjected_of rfl (by decide) (by decide +kernel) (by decide +kernel)
      (by decide +kernel)

end ToranaEdge.Format
