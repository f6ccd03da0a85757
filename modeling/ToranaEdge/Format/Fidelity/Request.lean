import ToranaEdge.Format.Fidelity.Fields
import ToranaEdge.Format.Spelling

/-! # Whole bodies

`unmarshal` and `marshal` one after the other.  A canonical member is written
from the field it was read into, any other member is an extension and is
written as it came, and the output constraint is lifted out of its member and
set there again. -/

namespace ToranaEdge.Format.Anthropic

open Engine Attempt List Members Except

/-! ## What a request is read from -/

/-- The canonical fields of a request that was read from a body with these occurrences
of its members. -/
structure BodyRead (codec : WireCodec) (read : String → List Json) (chat : ChatRequest) : Prop where
  model : decodeString "" (read "model") = .ok chat.model
  maxTokens : decodeNumber codec.parseInt (read "max_tokens") = .ok chat.maxTokens
  positive : ∀ n ∈ chat.maxTokens, 1 ≤ n
  temperature : decodeNumber codec.parseFloat (read "temperature") = .ok chat.temperature
  topP : decodeNumber codec.parseFloat (read "top_p") = .ok chat.topP
  stopSequences : decodeSlice "" decodeElemString (read "stop_sequences") = .ok chat.stopSequences
  stream : decodeBool (read "stream") = .ok chat.stream
  messages : ∃ cbs blocks ams ms, decodeSystem codec (rawMessage (read "system")) = .ok cbs ∧
    cbs.mapM (systemWithMarker codec) = .ok blocks ∧
    decodeSlice ⟨"", [], []⟩ (fun _ => decodeMessage codec) (read "messages") = .ok ams ∧
    ams.mapM (unmarshalMessage codec) = .ok ms ∧ chat.messages = systemMessage blocks.flatten ++ ms
  tools : ∃ ts, decodeSlice {} (decodeToolDef codec) (read "tools") = .ok ts ∧
    ts.mapM (unmarshalTool codec) = .ok chat.tools

/-- Every member that is no canonical field. -/
def ExtensionsRead (members : Entries) (ext : OptionalJSONObject) : Prop :=
  ∀ key, (ext.getD ∅).lookup key =
    if key ∈ requestNames then none else members.dlookup key

lemma lookup_normalizeExtensionObject (ext : Members) (key : String) :
    ((normalizeExtensionObject (some ext)).getD ∅).lookup key = ext.lookup key := by
  unfold normalizeExtensionObject
  by_cases hempty : ext.entries = []
  · have hext : ext = ∅ := AList.ext hempty
    rw [hext]
    rfl
  · simp [Option.filter, hempty]

variable {codec : WireCodec} {chat : ChatRequest} {members : Entries} {out : Members}

lemma read_of_unmarshalBody (h : unmarshalBody codec (.obj members) = .ok chat) :
    strictJson (.obj members) = true ∧ BodyRead codec (bound codec requestNames members) chat ∧
      ExtensionsRead members chat.providerExtensions ∧ chat.outputFormat = none := by
  obtain ⟨ar, har, h⟩ := bind_eq_ok.mp h
  have har := context_eq_ok.mp har
  split at h
  · cases h
  case h_2 hvalid =>
  obtain ⟨ext, hext, blocks, hblocks, ms, hms, h⟩ := bind₃_eq_ok.mp h
  obtain ⟨tools, htools, h⟩ := bind_eq_ok.mp h
  cases h
  obtain ⟨model, hmodel, maxTokens, hmaxTokens, temperature, htemperature, har⟩ :=
      bind₃_eq_ok.mp har
  obtain ⟨topP, htopP, stopSequences, hstopSequences, messages, hmessages, har⟩ :=
      bind₃_eq_ok.mp har
  obtain ⟨ts, hts, stream, hstream, system, hsystem, har⟩ := bind₃_eq_ok.mp har
  cases har
  unfold parseOptionalJSONObjectExcluding at hext
  split at hext
  case isFalse => cases hext
  case isTrue hstrict =>
  cases hext
  refine ⟨hstrict, ?_, ?_, rfl⟩
  · have hpositive : ∀ n ∈ maxTokens, 1 ≤ n := by
      rintro n rfl
      obtain ⟨hrange, hvalid⟩ := guard_eq_ok.mp hvalid
      omega
    exact ⟨hmodel, hmaxTokens, hpositive, htemperature, htopP, hstopSequences, hstream,
      ⟨system, blocks, messages, ms, hsystem, hblocks, hmessages, hms, rfl⟩, ⟨ts, hts, htools⟩⟩
  · intro key
    rw [lookup_normalizeExtensionObject, lookup_withoutMembers, AList.lookup_to_alist]

/-- Extraction leaves the canonical fields as they are. -/
lemma extractOutputFormat_frame {codec : Codec} {base chat : ChatRequest}
    (h : extractOutputFormat codec .anthropic base = .ok chat) :
    ∃ format ext, chat = { base with outputFormat := format, providerExtensions := ext } ∧
      ∀ key, key ≠ "output_config" →
        (ext.getD ∅).lookup key = (base.providerExtensions.getD ∅).lookup key := by
  obtain ⟨raw, -, h⟩ := bind_eq_ok.mp h
  split at h
  · cases h
    exact ⟨_, _, rfl, fun _ _ => rfl⟩
  · obtain ⟨extraction, -, h⟩ := bind_eq_ok.mp h
    split at h
    · cases h
      exact ⟨_, _, rfl, fun _ _ => rfl⟩
    obtain ⟨ext, hset, h⟩ := bind_eq_ok.mp h
    cases h
    exact ⟨_, ext, rfl, fun key hkey => lookup_setRawAt hset hkey⟩
  · cases h

/-! ## What a request is written as -/

/-- The struct of the canonical fields, the extensions over it and the output
constraint set in it. -/
lemma sent_of_marshal {codec : Codec} (h : marshal codec chat = .ok out) :
    ∃ fields raw, anthropicRequest codec chat = .ok fields ∧ (∀ key, raw.lookup key =
        ((chat.providerExtensions.getD ∅).lookup key).or (fields.lookup key).join) ∧
      applyOutputFormat codec .anthropic chat raw = .ok out ∧ ∀ td ∈ chat.tools, td.name ≠ "" := by
  obtain ⟨-, -, raw, hraw, h⟩ := bind₂_eq_ok.mp h
  unfold marshalBody at hraw
  split at hraw
  · cases hraw
  case h_2 hvalid =>
  obtain ⟨-, -, fields, hfields, hraw⟩ := bind₂_eq_ok.mp hraw
  refine ⟨fields, raw, hfields, ?_, h, ?_⟩
  · intro key
    have hown : requestFields codec .anthropic chat = .ok fields := hfields
    rw [lookup_spliced hown hraw, requestMember_eq hown]
  · unfold validateFullRequest at hvalid
    split at hvalid
    · cases hvalid
    case h_2 hengine =>
    obtain ⟨-, -, -, -, -, -, hengine⟩ := bind₃_eq_ok.mp hengine
    obtain ⟨-, -, htools⟩ := bind_eq_ok.mp hengine
    intro td htd hempty
    have hcheck := of_validateEach htools td htd
    rw [validateEngineTool, if_pos hempty] at hcheck
    cases hcheck

variable {v : Json} {key : String} {format : Entries} {strict : Option Bool} {e : Extraction}

/-- A canonical member that is read as if it were spelled once is kept exactly when it is
plain. -/
lemma field_iff {fields : List (String × Option Json)} (laws : NumberLaws codec)
    {read : String → List Json} (hread : BodyRead codec read chat)
    (hfields : anthropicRequest codec chat = .ok fields)
    (hnames : ∀ td ∈ chat.tools, td.name ≠ "") (hkey : key ∈ requestNames)
    (halike : ReadAlike codec key (read key) [v]) (hstrict : strictJson v = true) :
    (∃ w, (fields.lookup key).join = some w ∧ requestRel codec key v w) ↔
      MemberPlain codec key v := by
  obtain ⟨system, hsystem, outs, houts, temperature, htemperature, hfields⟩ :=
      bind₃_eq_ok.mp hfields
  obtain ⟨topP, htopP, hfields⟩ := bind_eq_ok.mp hfields
  cases hfields
  simp only [requestNames, mem_cons, not_mem_nil, or_false] at hkey
  rcases hkey with rfl | rfl | rfl | rfl | rfl | rfl | rfl | rfl | rfl
  · exact string_iff (Eq.trans (Eq.symm halike) hread.model)
  · exact int_iff laws (Eq.trans (Eq.symm halike) hread.maxTokens) hread.positive
  · exact float_iff laws (Eq.trans (Eq.symm halike) hread.temperature) htemperature
  · exact float_iff laws (Eq.trans (Eq.symm halike) hread.topP) htopP
  · exact strings_iff (Eq.trans (Eq.symm halike) hread.stopSequences)
  · obtain ⟨cbs, blocks, ams, ms, hcbs, hblocks, -, -, hmessages⟩ := hread.messages
    replace halike : rawMessage _ = rawMessage [v] := halike
    rw [halike] at hcbs
    rw [hmessages] at hsystem
    exact system_iff hstrict hcbs hblocks hsystem
  · obtain ⟨cbs, blocks, ams, ms, -, -, hams, hms, hmessages⟩ := hread.messages
    replace hams := Eq.trans (Eq.symm halike) hams
    rw [hmessages] at houts
    obtain ⟨souts, mouts, hsouts, hmouts, rfl⟩ := mapM_append_eq_ok.mp houts
    -- the system message is not an element of the array
    have hnone : souts.filterMap id = [] := by
      unfold systemMessage at hsouts
      split at hsouts
      · cases hsouts
        rfl
      · cases hsouts
        rfl
    have hsame : (souts ++ mouts).filterMap id = mouts.filterMap id := by
      rw [filterMap_append, hnone, nil_append]
    have hiff := messages_iff hstrict hams hms hmouts
    rw [← hsame] at hiff
    refine Iff.trans ?_ hiff
    constructor
    · rintro ⟨_, h, hrel⟩
      cases h
      exact hrel
    · intro hrel
      exact ⟨_, rfl, hrel⟩
  · obtain ⟨ts, hts, htools⟩ := hread.tools
    exact tools_iff hstrict (Eq.trans (Eq.symm halike) hts) htools hnames
  · exact bool_iff (Eq.trans (Eq.symm halike) hread.stream)

/-! ## The output constraint -/

lemma hasUnmodeledOutputFields_iff {allowed : List String} (hnodup : format.NodupKeys) :
    hasUnmodeledOutputFields format.toAList allowed = true ↔ ¬ OnlyNames allowed format := by
  rw [hasUnmodeledOutputFields, toAList_entries hnodup]
  simp [OnlyNames]

/-- A constraint that is lifted out, by its mode: a text constraint has only a type, a
schema constraint only modelled members. -/
def Lifted (format : Entries) (f : OutputFormat) : Prop :=
  f.mode = 0 ∧ format.dlookup "type" = some (.str "text") ∧ OnlyNames ["type"] format ∨
    f.mode = 1 ∨
    f.mode = 2 ∧ format.dlookup "type" = some (.str "json_schema") ∧
      OnlyNames ["type", "name", "schema", "strict"] format ∧
      (format.dlookup "strict" ≠ none → f.strict ≠ none) ∧
      parseOptionalJSONObject (format.dlookup "schema") = .ok f.schema

lemma liftFormat_ok {codec : Codec} {mode : Int32} {name : String} {schema : Option Json}
    {remaining : Option Json} (h : liftFormat codec mode name schema strict remaining = .ok e) :
    ∃ parsed, parseOptionalJSONObject schema = .ok parsed ∧
      e = .lift { mode, name, schema := parsed, strict } remaining := by
  obtain ⟨parsed, hparsed, -, -, h⟩ := bind₂_eq_ok.mp h
  cases h
  exact ⟨parsed, hparsed, rfl⟩

lemma strictMember_ok {o : Option Json} (h : strictMember o = .ok strict) :
    o ≠ none → strict ≠ none := by
  unfold strictMember at h
  split at h
  · simp
  · cases h
    simp
  · cases h

/-- What extraction makes of a constraint. -/
lemma extractTyped_ok {codec : Codec} (hnodup : format.NodupKeys)
    (h : extractTyped codec false format.toAList = .ok e) :
    e = .leave ∧ FormatPlain format ∨ ∃ f, e = .lift f none ∧ Lifted format f := by
  unfold extractTyped at h
  rw [AList.lookup_to_alist] at h
  cases htype : format.dlookup "type" with
  | none =>
    rw [htype] at h
    cases h
    exact .inl ⟨rfl, by simp [FormatPlain, htype]⟩
  | some type =>
  rw [htype] at h
  obtain ⟨kind, hkind, h⟩ := bind_eq_ok.mp h
  have hstated : ∀ t, t ≠ "" → (format.dlookup "type" = some (.str t) ↔ kind = t) := by
    intro t ht
    rw [htype]
    cases type with
    | null =>
      cases hkind
      simp [ht.symm]
    | str s =>
      cases hkind
      simp
    | bool _ | num _ | arr _ | obj _ => cases hkind
  have hplain : FormatPlain format ↔ (kind = "text" → ¬ OnlyNames ["type"] format) ∧
        (kind = "json_schema" → OnlyNames ["type", "name", "schema", "strict"] format →
          "name" ∉ format.keys ∧ "schema" ∈ format.keys) := by
    rw [FormatPlain, hstated "text" (by decide), hstated "json_schema" (by decide)]
  rw [hplain]
  simp only [Bool.false_eq_true, if_false] at h
  generalize hallowed : ("type" :: if kind ≠ "json_schema" then [] else
    ["name", "schema", "strict"]) = allowed at h
  split at h
  case isTrue hunmodeled =>
    cases h
    rw [hasUnmodeledOutputFields_iff hnodup, ← hallowed] at hunmodeled
    refine .inl ⟨rfl, ?_, ?_⟩
    · rintro rfl
      exact hunmodeled
    · rintro rfl honly
      exact absurd honly hunmodeled
  case isFalse hmodeled =>
  rw [hasUnmodeledOutputFields_iff hnodup, not_not, ← hallowed] at hmodeled
  split at h
  · obtain ⟨parsed, -, rfl⟩ := liftFormat_ok h
    exact .inr ⟨_, rfl, .inl ⟨rfl, (hstated "text" (by decide)).mpr rfl, hmodeled⟩⟩
  · obtain ⟨parsed, -, rfl⟩ := liftFormat_ok h
    exact .inr ⟨_, rfl, .inr (.inl rfl)⟩
  · -- a schema constraint
    unfold extractSchema at h
    split at h
    case isTrue hunmodeled =>
      rw [hasUnmodeledOutputFields_iff hnodup] at hunmodeled
      exact absurd hmodeled hunmodeled
    obtain ⟨name, -, strict, hstrict, h⟩ := bind₂_eq_ok.mp h
    obtain ⟨parsed, hparsed, rfl⟩ := liftFormat_ok h
    rw [AList.lookup_to_alist] at hstrict hparsed
    exact .inr ⟨_, rfl, .inr (.inr ⟨rfl, (hstated "json_schema" (by decide)).mpr rfl, hmodeled,
      strictMember_ok hstrict, hparsed⟩)⟩
  case h_4 htext _ hschema =>
    cases h
    refine .inl ⟨rfl, ?_, ?_⟩
    · intro hkind
      exact absurd hkind htext
    · intro hkind
      exact absurd hkind hschema

section constraint

variable {codec : WireCodec} {config format : Entries} {ext : Members}

/-- The constraint lifted out and set again. -/
lemma sameJson_reset_iff {v w : Json} (hformat : config.dlookup "format" = some v) :
    SameJson codec (.obj config)
        (json ((config.toAList.erase "format").insert "format" w)) ↔ SameJson codec v w := by
  have hset : ((config.toAList.erase "format").insert "format" w).entries.dlookup "format" =
      some w := AList.lookup_insert _
  rw [json, sameJson_obj_iff_at "format", hformat, hset, Option.rel_some_some]
  intro key hkey
  show ((config.toAList.erase "format").insert "format" w).lookup key = _
  rw [AList.lookup_insert_ne hkey, AList.lookup_erase_ne hkey, AList.lookup_to_alist]

/-- The constraint lifted out and not set again. -/
lemma not_sameJson_erase (hformat : config.dlookup "format" = some v) :
    ¬ SameJson codec (.obj config) (json (config.toAList.erase "format")) := by
  rw [json, sameJson_obj_iff]
  intro h
  have hrel := h "format"
  have hgone : (config.toAList.erase "format").entries.dlookup "format" = none :=
    AList.lookup_erase "format" _
  rw [hformat, hgone] at hrel
  cases hrel

/-- A schema constraint without an explicit strict option, written back. -/
lemma sameJson_schema_iff {f : OutputFormat} (hstrict : strictJson (.obj format) = true)
    (htype : format.dlookup "type" = some (.str "json_schema"))
    (honly : OnlyNames ["type", "name", "schema", "strict"] format)
    (hloose : format.dlookup "strict" = none)
    (hschema : parseOptionalJSONObject (format.dlookup "schema") = .ok f.schema) :
    SameJson codec (.obj format)
        (structJson [("type", some (.str "json_schema")), ("schema", some (schemaJson f))]) ↔
      "name" ∉ format.keys ∧ "schema" ∈ format.keys := by
  have hnodup := (strictJson_obj.mp hstrict).1
  have hwritten : ∀ key, (structMembers [("type", some (.str "json_schema")),
      ("schema", some (schemaJson f))]).entries.dlookup key = _ :=
    fun key => lookup_structMembers _ key (by simp)
  rw [structJson, json, sameJson_obj_iff, ← dlookup_eq_none, ← dlookup_isSome]
  simp only [hwritten]
  constructor
  · intro h
    have hname := h "name"
    have hrel := h "schema"
    cases hn : format.dlookup "name" <;> cases hs : format.dlookup "schema" <;> simp [hn, hs,
      lookup_cons] at hname hrel ⊢
  · rintro ⟨hname, hstated⟩ key
    by_cases hkey : key = "type"
    · subst hkey
      rw [htype]
      exact .some (.refl _)
    by_cases hkey' : key = "schema"
    · subst hkey'
      obtain ⟨v, hv⟩ := Option.isSome_iff_exists.mp hstated
      have hvstrict := strict_of_mem_lookup hstrict v hv
      rw [hv] at hschema ⊢
      cases v with
      | obj entries =>
        have hparsed : some entries.toAList = f.schema := ok.inj hschema
        rw [schemaJson, ← hparsed]
        show Option.Rel _ _ (some (Json.obj entries.toAList.entries))
        rw [toAList_entries (strictJson_obj.mp hvstrict).1]
        exact .some (.refl _)
      | null | bool _ | num _ | str _ | arr _ => cases hschema
    · rw [lookup_eq_none_of_not_mem (by simp [hkey, hkey'])]
      cases hlook : format.dlookup key with
      | none => exact .none
      | some v =>
      have hmem := (onlyNames_iff hnodup).mp honly key v hlook
      simp only [mem_cons, not_mem_nil, or_false, hkey, hkey', false_or] at hmem
      rcases hmem with rfl | rfl
      · cases hname.symm.trans hlook
      · cases hloose.symm.trans hlook

lemma rawAt_format (hconfig : ext.lookup "output_config" = some (.obj config)) :
    rawAt (some ext) ["output_config", "format"] = .ok (config.dlookup "format") := by
  have hlookup : config.toAList.lookup "format" = config.dlookup "format" :=
    AList.lookup_to_alist config
  simp only [rawAt, hconfig]
  show rawAt (some config.toAList) ["format"] = _
  simp only [rawAt, hlookup]
  cases config.dlookup "format" with
  | none | some v => rfl

lemma setRawAt_format {value : Option Json}
    (hconfig : ext.lookup "output_config" = some (.obj config)) :
    setRawAt (some ext) ["output_config", "format"] value =
      .ok (some (ext.insert "output_config" (json (
        match value with
        | none => config.toAList.erase "format"
        | some w => config.toAList.insert "format" w)))) := by
  have hraw : rawAt (some ext) ["output_config"] = .ok (some (.obj config)) := by
    simp [rawAt, hconfig]
  rw [setRawAt, hraw]
  cases value with
  | none | some w => rfl

/-- The member of the output constraint, through extraction and application. -/
lemma output_iff {base chat : ChatRequest} {raw : Members} (hstrict : strictJson v = true)
    (hnone : base.outputFormat = none)
    (hbase : (base.providerExtensions.getD ∅).lookup "output_config" = some v)
    (hextract : extractOutputFormat codec .anthropic base = .ok chat)
    (hraw : raw.lookup "output_config" = (chat.providerExtensions.getD ∅).lookup "output_config")
    (happly : applyOutputFormat codec .anthropic chat raw = .ok out) :
    (∃ w, out.lookup "output_config" = some w ∧ SameJson codec v w) ↔
      ∀ config, v = .obj config → OutputPlain config := by
  cases hext : base.providerExtensions with
  | none =>
    rw [hext] at hbase
    cases hbase
  | some ext =>
  rw [hext] at hbase
  change ext.lookup "output_config" = some v at hbase
  -- a constraint that stays where it is is written with the extensions
  have hleft : chat = base → ∃ w, out.lookup "output_config" = some w ∧ SameJson codec v w := by
    rintro rfl
    rw [applyOutputFormat, hnone] at happly
    cases happly
    refine ⟨v, ?_, .refl v⟩
    rw [hraw, hext]
    exact hbase
  obtain ⟨found, hfound, hextract⟩ := bind_eq_ok.mp hextract
  rw [context_eq_ok, hext] at hfound
  change rawAt (some ext) ["output_config", "format"] = .ok found at hfound
  cases v with
  | null | bool _ | num _ | str _ | arr _ =>
    simp only [rawAt, hbase] at hfound
    cases hfound
  | obj config =>
  rw [rawAt_format hbase] at hfound
  replace hfound : config.dlookup "format" = found := ok.inj hfound
  simp only [Json.obj.injEq, forall_eq']
  split at hextract
  · cases hextract
    refine iff_of_true (hleft rfl) ?_
    intro format hformat
    cases hfound.symm.trans hformat
  case h_3 => cases hextract
  case h_2 format =>
  have hfstrict : strictJson (.obj format) = true := strict_of_mem_lookup hstrict _ hfound
  have hplain : OutputPlain config ↔ FormatPlain format := by
    simp [OutputPlain, hfound]
  rw [hplain]
  obtain ⟨extraction, htyped, hextract⟩ := bind_eq_ok.mp hextract
  rcases extractTyped_ok (strictJson_obj.mp hfstrict).1 htyped with
    ⟨rfl, hformat⟩ | ⟨f, rfl, hlifted⟩
  · cases hextract
    exact iff_of_true (hleft rfl) hformat
  · obtain ⟨set, hset, hextract⟩ := bind_eq_ok.mp hextract
    rw [hext] at hset
    have hset := (setRawAt_format hbase).symm.trans hset
    cases hset
    cases hextract
    obtain ⟨-, -, happly⟩ := bind_eq_ok.mp happly
    dsimp only at happly
    rcases hlifted with ⟨hmode, htype, honly⟩ | hmode | ⟨hmode, htype, honly, hloose, hschema⟩
    · -- a text constraint is not set again
      rw [if_pos hmode] at happly
      cases happly
      apply iff_of_false
      · rintro ⟨w, hw, hsame⟩
        cases hraw.symm.trans hw
        exact not_sameJson_erase hfound hsame
      · rintro ⟨h, -⟩
        exact h htype honly
    · rw [if_neg (by rw [hmode]; decide), if_pos (.inl (by rw [hmode]; decide))] at happly
      cases happly
    · rw [if_neg (by rw [hmode]; decide)] at happly
      obtain ⟨hstated, happly⟩ := guard_eq_ok.mp happly
      obtain ⟨set, hset, happly⟩ := bind_eq_ok.mp happly
      have hset := (setRawAt_format hraw).symm.trans hset
      cases hset
      cases happly
      have hnotStrict : format.dlookup "strict" = none := by
        by_contra hsome
        apply hstated
        right
        exact Option.isSome_iff_ne_none.mpr (hloose hsome)
      have hbytes : (config.toAList.erase "format").entries.toAList =
          config.toAList.erase "format" := by
        apply AList.ext
        exact toAList_entries (config.toAList.erase "format").nodupKeys
      have hplainIff : FormatPlain format ↔ "name" ∉ format.keys ∧ "schema" ∈ format.keys := by
        simp [FormatPlain, htype, honly]
      rw [hplainIff, ← @sameJson_schema_iff codec format f hfstrict htype honly hnotStrict hschema,
        ← sameJson_reset_iff hfound]
      constructor
      · rintro ⟨w, hw, hsame⟩
        have hsent := (AList.lookup_insert raw).symm.trans hw
        cases hsent
        rw [hbytes] at hsame
        exact hsame
      · intro hsame
        refine ⟨_, AList.lookup_insert raw, ?_⟩
        rw [hbytes]
        exact hsame

end constraint

/-! ## The body -/

/-- A member that is no canonical field and not the output constraint's. -/
lemma other_member (hkey : key ∉ requestNames) (hconfig : key ≠ "output_config") :
    MemberPlain codec key v ∧ requestRel codec key = SameJson codec := by
  simp only [requestNames, mem_cons, not_or] at hkey
  constructor
  · unfold MemberPlain
    all_goals simp_all
  · simp [requestRel, hkey]

/-- A member of a body that was read and written. -/
lemma member_iff (laws : NumberLaws codec) (hunmarshal : unmarshal codec (.obj members) = .ok chat)
    (hmarshal : marshal codec chat = .ok out) (hv : members.dlookup key = some v)
    (halike : key ∈ requestNames →
      ReadAlike codec key (bound codec requestNames members key) [v]) :
    (∃ w, out.lookup key = some w ∧ requestRel codec key v w) ↔ MemberPlain codec key v := by
  obtain ⟨base, hbase, hextract⟩ := bind_eq_ok.mp hunmarshal
  obtain ⟨hstrict, hread, hextensions, hnone⟩ := read_of_unmarshalBody hbase
  obtain ⟨fields, raw, hfields, hraw, happly, hnames⟩ := sent_of_marshal hmarshal
  have hvstrict := strict_of_mem_lookup hstrict v hv
  have hfieldKeys : fields.map Prod.fst = structKeys .anthropic :=
    @requestFields_keys codec chat fields .anthropic hfields
  have hother : key ∉ requestNames → (fields.lookup key).join = none := by
    intro hkey
    rw [lookup_eq_none_of_not_mem (by rw [hfieldKeys]; exact hkey)]
    rfl
  by_cases hconfig : key = "output_config"
  · subst hconfig
    refine output_iff hvstrict hnone ?_ hextract ?_ happly
    · rw [hextensions, if_neg (by decide), hv]
    · rw [hraw, hother (by decide), Option.or_none]
  obtain ⟨format, ext, rfl, hsame⟩ := extractOutputFormat_frame hextract
  have hlookup : out.lookup key =
      (if key ∈ requestNames then none else members.dlookup key).or (fields.lookup key).join := by
    rw [lookup_applyOutputFormat happly rfl hconfig, hraw, ← hextensions]
    exact congrArg (Option.or · _) (hsame key hconfig)
  rw [hlookup]
  by_cases hkey : key ∈ requestNames
  · rw [if_pos hkey]
    exact field_iff laws { hread with } hfields hnames hkey (halike hkey) hvstrict
  obtain ⟨hplain, hrel⟩ := @other_member codec v key hkey hconfig
  rw [if_neg hkey, hv, hrel]
  exact iff_of_true ⟨v, rfl, .refl v⟩ hplain

/-- An accepted body is an object. -/
lemma exists_obj_of_unmarshal {body : Json}
    (h : unmarshal codec body = .ok chat) : ∃ members, body = .obj members := by
  obtain ⟨base, hbase, -⟩ := bind_eq_ok.mp h
  cases body with
  | obj members => exact ⟨members, rfl⟩
  | null | bool _ | num _ | str _ | arr _ => cases hbase

/-- **A body survives reading and writing exactly when it is plain.**  Every message
and tool definition holds the members of its struct only, every field that is
left out when it is empty is not empty, every tool result and nested element is
one the adapter writes as it reads it, and the output constraint is none that
loses a member. -/
theorem unmarshal_marshal_survives_iff {codec : WireCodec} {body : Json} {chat : ChatRequest}
    {out : Members} (laws : NumberLaws codec) (hspelled : SpelledAlike codec body)
    (hunmarshal : unmarshal codec body = .ok chat)
    (hmarshal : marshal codec.toCodec chat = .ok out) :
    Survives codec body out ↔ Plain codec body := by
  obtain ⟨members, rfl⟩ := exists_obj_of_unmarshal hunmarshal
  obtain ⟨base, hbase, -⟩ := bind_eq_ok.mp hunmarshal
  have hnodup := (strictJson_obj.mp (read_of_unmarshalBody hbase).1).1
  have hplain : Plain codec (.obj members) ↔
      ∀ key, ∀ v ∈ members.dlookup key, MemberPlain codec key v := by
    constructor
    · intro h key v hv
      exact h members rfl ⟨key, v⟩ (of_mem_dlookup hv)
    · rintro h _ ⟨⟩ m hm
      exact h m.1 m.2 (mem_dlookup hnodup hm)
  rw [hplain]
  refine (objectKept_iff.trans (membersKept_iff hnodup)).trans ?_
  have hmember : ∀ key, ∀ v ∈ members.dlookup key,
      ((∃ w, out.lookup key = some w ∧ requestRel codec key v w) ↔ MemberPlain codec key v) := by
    intro key v hv
    refine member_iff laws hunmarshal hmarshal hv ?_
    intro hkey
    exact hspelled members rfl ⟨key, v⟩ (of_mem_dlookup hv) hkey
  exact forall_congr' fun key => forall₂_congr fun v hv => hmember key v hv

/-- A codec that knows one number. -/
def oneNumber : WireCodec :=
  { spellingCodec with
    parseInt := fun lexeme => if lexeme = "1024" then .ok 1024 else .error "invalid syntax"
    parseFloat := fun lexeme =>
      if lexeme = "1024" then .ok 0x4090000000000000 else .error "invalid syntax" }

lemma numberLaws_oneNumber : NumberLaws oneNumber where
  int lexeme n h _ := by
    have hparse : (if lexeme = "1024" then ok 1024 else error "invalid syntax") =
        (.ok n : Except String Int) := h
    split at hparse
    case isFalse => cases hparse
    case isTrue hlexeme =>
    cases hparse
    subst hlexeme
    exact ⟨_, rfl, by decide +kernel⟩
  float _ _ _ _ h := by cases h

/-- A question with one tool, a second spelling of the model and a member the adapter does
not model. -/
def plainBody : Json :=
  .obj [⟨"model", .str "m"⟩, ⟨"Model", .str "m"⟩, ⟨"max_tokens", .num "1024"⟩,
    ⟨"messages", .arr [.obj [⟨"role", .str "user"⟩, ⟨"content", .str "hi"⟩]]⟩,
    ⟨"tools", .arr [.obj [⟨"name", .str "run"⟩, ⟨"input_schema", .obj [⟨"type", .str "object"⟩]⟩]]⟩,
    ⟨"metadata", .obj [⟨"user_id", .str "u"⟩]⟩]

lemma plain_plainBody : Plain oneNumber plainBody := by
  rintro _ ⟨⟩
  simp [MemberPlain, Omitted, MessagePlain, OnlyNames, messageNames, ToolPlain, toolNames,
    roleSystem]

lemma spelledAlike_plainBody : SpelledAlike oneNumber plainBody := by
  rintro _ ⟨⟩
  simp only [forall_mem_cons, not_mem_nil, false_imp_iff, implies_true, and_true]
  exact ⟨fun _ => rfl, fun hkey => absurd hkey (by decide), fun _ => rfl, fun _ => rfl,
    fun _ => rfl, fun hkey => absurd hkey (by decide)⟩

theorem unmarshal_marshal_survives_iff_plainBody : ∃ chat out,
    unmarshal oneNumber plainBody = .ok chat ∧ marshal oneNumber.toCodec chat = .ok out ∧
      Plain oneNumber plainBody ∧ Survives oneNumber plainBody out := by
  obtain ⟨chat, out, hchat, hout⟩ := exists_of_bind_isOk (x := unmarshal oneNumber plainBody)
    (f := marshal oneNumber.toCodec) (by decide +kernel)
  exact ⟨chat, out, hchat, hout, plain_plainBody,
    (unmarshal_marshal_survives_iff numberLaws_oneNumber spelledAlike_plainBody hchat hout).mpr
      plain_plainBody⟩

/-- A server tool: its type says which, and it has options of its own. -/
def serverTool : Entries :=
  [⟨"type", .str "web_search_20250305"⟩, ⟨"name", .str "web_search"⟩, ⟨"max_uses", .num "5"⟩]

def serverToolBody : Json :=
  .obj [⟨"model", .str "m"⟩,
    ⟨"messages", .arr [.obj [⟨"role", .str "user"⟩, ⟨"content", .str "hi"⟩]]⟩,
    ⟨"tools", .arr [.obj serverTool]⟩]

theorem serverTool_lost : ∃ chat out,
    unmarshal oneNumber serverToolBody = .ok chat ∧ marshal oneNumber.toCodec chat = .ok out ∧
      ¬ Survives oneNumber serverToolBody out := by
  obtain ⟨chat, out, hchat, hout⟩ := exists_of_bind_isOk (x := unmarshal oneNumber serverToolBody)
    (f := marshal oneNumber.toCodec) (by decide +kernel)
  refine ⟨chat, out, hchat, hout, ?_⟩
  rintro ⟨_, _, ⟨⟩, ⟨⟩, hkept⟩
  have htools := hkept ⟨"tools", .arr [.obj serverTool]⟩ (by simp)
  have hplain := (member_iff numberLaws_oneNumber hchat hout rfl fun _ => by exact rfl).mp htools
  have honly := ((hplain.2 _ rfl).2 _ mem_cons_self).1
  have htype := honly ⟨"type", .str "web_search_20250305"⟩ mem_cons_self
  exact absurd htype (by decide)

end ToranaEdge.Format.Anthropic
