import ToranaEdge.Engine.Types
import ToranaEdge.Lib.Attempt

/-! # What the format adapters share

Marshalling writes a Go struct, splices the raw provider extensions over its
members and sets the portable output constraint.  The last two are shared:
`MergeRawMembers` and `output_format.go`.

What the adapters call outside this repository, or what goes below JSON
values, is a `Codec`.  Nothing is assumed of it. -/

namespace ToranaEdge.Format

open Engine Attempt List AList

/-! ## What comes from elsewhere -/

structure Codec where
  /-- The plugin SDK's `ValidateReplacement` on the request's protobuf projection. -/
  validateReplacement : ChatRequest → Except String Unit
  /-- The SDK's `OutputFormat.Validate`. -/
  validateOutputFormat : OutputFormat → Except String Unit
  /-- `encoding/json` of a double. -/
  encodeFloat : UInt64 → Except String Json
  /-- The strict JSON text validator, with the value it accepts. -/
  parse : String → Except String Json
  /-- `fmt` with the verb `%q`. -/
  quote : String → String
  /-- An array decoded to Go values and encoded again. -/
  recode : List Json → Except String (List Json)
  /-- The OpenAI Responses projection, which is not modelled. -/
  marshalResponses : ChatRequest → Except String Members

variable (codec : Codec)

def validateFullRequest (c : ChatRequest) : Except String Unit :=
  match validateEngineRequest c with
  | .error err => .error s!"invalid engine request: {err}"
  | .ok () =>
    match codec.validateReplacement c with
    | .error err => .error s!"engine request fails the replacement contract: {err}"
    | .ok () => .ok ()

/-! ## Structs -/

/-- One field of a struct: `none` is a field left out by `omitempty`. -/
def fieldMember (f : String × Option Json) : Option (Sigma fun _ : String => Json) :=
  f.2.map fun value => ⟨f.1, value⟩

variable (fields : List (String × Option Json))

/-- The members `encoding/json` writes for a struct. -/
def structMembers : Members :=
  (fields.filterMap fieldMember).toAList

def structJson : Json := (structMembers fields).json

/-- A string field with `omitempty`. -/
def nonEmptyString (s : String) : Option Json := if s = "" then none else some (.str s)

/-- A slice field with `omitempty`. -/
def nonEmptySlice (elems : List Json) : Option Json :=
  if elems.isEmpty then none else some (.arr elems)

/-- A bool field with `omitempty`. -/
def trueOnly (b : Bool) : Option Json := if b then some (.bool true) else none

/-- A slice that is nil when nothing was appended to it. -/
def sliceJson (elems : List Json) : Json := if elems.isEmpty then .null else .arr elems

def stringsJson (strings : List String) : List Json := strings.map .str

def encodeInt (n : Int) : Json := .num (toString n)

/-- A `*float64` field with `omitempty`. -/
def encodeOptFloat : Option UInt64 → Except String (Option Json)
  | none => .ok none
  | some bits => (codec.encodeFloat bits).map some

variable {key first : String} {keys : List String}

lemma lookup_eq_none_of_not_mem {fields : List (String × Option Json)}
    (hkey : key ∉ fields.map Prod.fst) : fields.lookup key = none := by
  rw [lookup_eq_none_iff]
  intro f hf
  have hne : key ≠ f.1 := by
    intro h
    exact hkey (mem_map.mpr ⟨f, hf, h.symm⟩)
  simpa using hne

lemma dlookup_fieldMember (key : String) (hnodup : (fields.map Prod.fst).Nodup) :
    dlookup key (fields.filterMap fieldMember) = (fields.lookup key).join := by
  induction fields with
  | nil => rfl
  | cons f rest ih =>
  obtain ⟨name, value⟩ := f
  rw [map_cons, nodup_cons] at hnodup
  have hrest := ih hnodup.2
  by_cases hname : key = name
  · subst hname
    rw [lookup_cons_self]
    cases value with
    | some v =>
      exact dlookup_cons_eq (rest.filterMap fieldMember) key v
    | none =>
    -- the name does not occur again, so leaving it out leaves it unbound
    rw [filterMap_cons_none rfl, hrest, lookup_eq_none_of_not_mem hnodup.1]
    rfl
  have hbeq : (key == name) = false := by simpa using hname
  rw [lookup_cons, hbeq]
  cases value with
  | some v =>
    exact (dlookup_cons_ne (rest.filterMap fieldMember) ⟨name, v⟩ hname).trans hrest
  | none =>
    exact hrest

/-- Reading a struct's member back. -/
lemma lookup_structMembers (key : String) (hnodup : (fields.map Prod.fst).Nodup) :
    (structMembers fields).lookup key = (fields.lookup key).join := by
  rw [structMembers, lookup_to_alist]
  exact dlookup_fieldMember fields key hnodup

/-! ## Merging raw members -/

/-- `json.Unmarshal` into a `map[string]json.RawMessage`; null leaves it empty. -/
def decodeMap : Json → Option Members
  | .obj members => some members.toAList
  | .null => some ∅
  | _ => none

/-- `MergeRawMembers`: every member of the raw object is set, so a name both have
takes the raw object's value. -/
def mergeRawMembers (dst : Members) (raw : Json) : Except String Members :=
  match decodeMap raw with
  | none => .error "json: cannot unmarshal into Go value of type map[string]json.RawMessage"
  | some src => .ok (src ∪ dst)

/-- The end of an adapter: absent extensions leave the body as it is, present
ones are merged over it. -/
def spliceExtensions (what : String) (body : Members) : OptionalJSONObject → Except String Members
  | none => .ok body
  | some ext =>
    match mergeRawMembers body ext.json with
    | .error err => .error s!"{what} merge: {err}"
    | .ok merged => .ok merged

lemma lookup_union (src dst : Members) (key : String) :
    (src ∪ dst).lookup key = (src.lookup key).or (dst.lookup key) := by
  apply Option.ext
  intro v
  have hmem : v ∈ (src ∪ dst).lookup key ↔
      v ∈ src.lookup key ∨ key ∉ src ∧ v ∈ dst.lookup key := mem_lookup_union
  rw [Option.mem_def] at hmem
  rw [hmem, ← lookup_eq_none]
  cases src.lookup key <;> simp

lemma lookup_mergeRawMembers {dst src merged : Members}
    (hmerge : mergeRawMembers dst src.json = .ok merged) (key : String) :
    merged.lookup key = (src.lookup key).or (dst.lookup key) := by
  cases hmerge
  rw [lookup_union, lookup_to_alist]
  rfl

lemma lookup_spliceExtensions {what : String} {body out : Members} {ext : OptionalJSONObject}
    (hsplice : spliceExtensions what body ext = .ok out) (key : String) :
    out.lookup key = ((ext.getD ∅).lookup key).or (body.lookup key) := by
  cases ext with
  | none =>
    cases hsplice
    rfl
  | some members =>
  rw [spliceExtensions] at hsplice
  split at hsplice <;> cases hsplice
  next hmerge => exact lookup_mergeRawMembers hmerge key

/-! ## The portable output constraint -/

inductive Provider where
  | anthropic
  | openai
  | gemini
  deriving DecidableEq, Repr

def outputPath (chat : ChatRequest) : Provider → List String
  | .openai => if chat.openAIVariant = .responses then ["text", "format"] else ["response_format"]
  | .anthropic => ["output_config", "format"]
  | .gemini =>
    if chat.codeAssist then ["request", "generationConfig"] else ["generationConfig"]

def rawAt : OptionalJSONObject → List String → Except String (Option Json)
  | none, _ => .ok none
  | some members, [] => .ok (some members.json)
  | some members, key :: keys =>
    match members.lookup key with
    | none => .ok none
    | some raw =>
      match keys with
      | [] => .ok (some raw)
      | _ => do rawAt (← parseOptionalJSONObject (some raw)) keys

def setRawAt : OptionalJSONObject → List String → Option Json → Except String OptionalJSONObject
  | obj, [], _ => .ok obj
  | obj, [key], none => .ok (obj.deleteMember key)
  | obj, [key], some raw => .ok (obj.setMember key raw)
  | obj, key :: next :: keys, raw => do
    let childRaw ← rawAt obj [key]
    if childRaw.isNone ∧ raw.isNone then .ok obj
    else
      let child ← setRawAt (← parseOptionalJSONObject childRaw) (next :: keys) raw
      match child with
      | none => .error "raw JSON: empty bytes are not a JSON value"
      | some members => .ok (obj.setMember key members.json)

/-- Members of a Gemini `generationConfig` that the constraint owns. -/
def geminiOutputMembers : List String := ["responseMimeType", "responseJsonSchema", "responseSchema"]

variable (provider : Provider) (chat : ChatRequest)

def validateOutputFormatExtras : Except String Unit := do
  match chat.outputFormat with
  | none => .ok ()
  | some _ =>
    match ← rawAt chat.providerExtensions (outputPath chat provider) with
    | none => .ok ()
    | some raw =>
      match provider with
      | .gemini =>
        match decodeMap raw with
        | none => .error "json: cannot unmarshal into Go value of type map[string]json.RawMessage"
        | some fields =>
          match geminiOutputMembers.find? fun key => (fields.lookup key).isSome with
          | some key => .error s!"output format duplicates generationConfig.{key}"
          | none => .ok ()
      | _ => .error "output format duplicates a provider extension"

variable (f : OutputFormat)

/-- The schema's bytes; nil encodes as null. -/
def schemaJson : Json :=
  match f.schema with
  | none => .null
  | some members => members.json

/-- The Gemini `generationConfig` with the constraint set in it. -/
def geminiOutputConfig (gc : OptionalJSONObject) :
    Except String OptionalJSONObject :=
  let typed := if f.mode ≠ 0 then gc.setMember "responseMimeType" (.str "application/json") else gc
  if f.mode = 2 then
    match f.schema with
    | none => .error "raw JSON member \"responseJsonSchema\": empty bytes are not a JSON value"
    | some members => .ok (typed.setMember "responseJsonSchema" members.json)
  else .ok typed

/-- The OpenAI response format. -/
def openaiOutputFormat : Except String Json :=
  let schema : List (String × Option Json) :=
    [("name", some (.str f.name)), ("schema", some (schemaJson f)),
      ("strict", f.strict.map Json.bool)]
  match f.mode.toInt with
  | 0 => .ok (structJson [("type", some (.str "text"))])
  | 1 => .ok (structJson [("type", some (.str "json_object"))])
  | 2 =>
    if chat.openAIVariant = .responses then
      .ok (structJson (("type", some (.str "json_schema")) :: schema))
    else
      .ok (structJson [("type", some (.str "json_schema")),
        ("json_schema", some (structJson schema))])
  | _ => .error "runtime error: index out of range"

/-- `ApplyOutputFormat` on the members of the marshalled body. -/
def applyOutputFormat (raw : Members) :
    Except String Members := do
  match chat.outputFormat with
  | none => .ok raw
  | some f =>
    codec.validateOutputFormat f
    let keys := outputPath chat provider
    match provider with
    | .gemini =>
      if f.strict.isSome then
        .error "output format: Gemini does not support the explicit strict option"
      else
        let existing ← rawAt (some raw) keys
        let gc ← geminiOutputConfig f (← parseOptionalJSONObject existing)
        match gc with
        | none => .ok raw
        | some members => return (← setRawAt (some raw) keys (some members.json)).getD ∅
    | .anthropic =>
      if f.mode = 0 then .ok raw
      else if f.mode ≠ 2 ∨ f.strict.isSome then
        .error "output format: Anthropic supports schema output without an explicit strict option"
      else
        let encoded := structJson
          [("type", some (.str "json_schema")), ("schema", some (schemaJson f))]
        return (← setRawAt (some raw) keys (some encoded)).getD ∅
    | .openai =>
      let encoded ← openaiOutputFormat chat f
      return (← setRawAt (some raw) keys (some encoded)).getD ∅

variable (fields : Members)

def hasUnmodeledOutputFields (allowed : List String) : Bool :=
  fields.entries.any fun m => !allowed.contains m.1

/-- What extraction makes of a constraint: left where it is, or lifted out with
what remains of the object at the path. -/
inductive Extraction where
  | leave
  | lift (format : OutputFormat) (remaining : Option Json)

/-- A member read into a Go string; null leaves the string as it was. -/
def stringMember (err old : String) : Option Json → Except String String
  | none => .ok old
  | some .null => .ok old
  | some (.str s) => .ok s
  | some _ => .error err

/-- The constraint with its schema.  A schema that is no object fails the SDK's
check or the parse after it. -/
def liftFormat (mode : Int32) (name : String) (schema : Option Json)
    (strict : Option Bool) (remaining : Option Json) : Except String Extraction := do
  let schema ← parseOptionalJSONObject schema
  let format : OutputFormat := { mode, name, schema, strict }
  codec.validateOutputFormat format
  return .lift format remaining

/-- A Gemini `generationConfig`; the other schema dialect stays where it is. -/
def extractGemini : Except String Extraction := do
  let mime ← stringMember "response MIME type must be a string" ""
    (fields.lookup "responseMimeType")
  if (fields.lookup "responseSchema").isSome ∨ mime ≠ "application/json" then return .leave
  let remaining : Members := (fields.erase "responseMimeType").erase "responseJsonSchema"
  match fields.lookup "responseJsonSchema" with
  | none => liftFormat codec 1 "" none none (some remaining.json)
  | some schema => liftFormat codec 2 "response" (some schema) none (some remaining.json)

def strictMember : Option Json → Except String (Option Bool)
  | none => .ok none
  | some (.bool b) => .ok (some b)
  | some _ => .error "schema strict must be boolean"

/-- A JSON schema constraint, from the object that holds its members. -/
def extractSchema : Except String Extraction := do
  if hasUnmodeledOutputFields fields ["type", "name", "schema", "strict"] then return .leave
  let name ← stringMember "schema name must be a string" "response" (fields.lookup "name")
  let strict ← strictMember (fields.lookup "strict")
  liftFormat codec 2 name (fields.lookup "schema") strict none

/-- The object of a typed constraint.  One with a member the engine has no field
for stays where it is, whole. -/
def extractTyped (wrapped : Bool) (fields : Members) :
    Except String Extraction := do
  match fields.lookup "type" with
  | none => return .leave
  | some type =>
    let kind ← stringMember "output format type must be a string" "" (some type)
    let allowed := "type" :: (
      if kind ≠ "json_schema" then []
      else if wrapped then ["json_schema"] else ["name", "schema", "strict"])
    if hasUnmodeledOutputFields fields allowed then return .leave
    match kind with
    | "text" => liftFormat codec 0 "" none none none
    | "json_object" => liftFormat codec 1 "" none none none
    | "json_schema" =>
      if wrapped then
        match fields.lookup "json_schema" with
        | some (.obj members) => extractSchema codec members.toAList
        | _ => .error "json_schema must be an object"
      else extractSchema codec fields
    | _ => return .leave

def extractOutputFormat :
    Except String ChatRequest := do
  let keys := outputPath chat provider
  match ← Attempt.context "output format" (rawAt chat.providerExtensions keys) with
  | none => return chat
  | some (.obj members) =>
    let extraction ← (
      match provider with
      | .gemini => extractGemini codec members.toAList
      | .openai => extractTyped codec (chat.openAIVariant = .chat) members.toAList
      | .anthropic => extractTyped codec false members.toAList)
    match extraction with
    | .leave => return chat
    | .lift format remaining =>
      let extensions ← setRawAt chat.providerExtensions keys remaining
      return { chat with outputFormat := some format, providerExtensions := extensions }
  | some _ => .error "output format must be an object"

lemma lookup_setMember_ne (obj : OptionalJSONObject) {other : String} (value : Json)
    (hkey : other ≠ key) :
    ((obj.setMember key value).getD ∅).lookup other = (obj.getD ∅).lookup other :=
  lookup_insert_ne hkey

lemma lookup_deleteMember_ne (obj : OptionalJSONObject) {other : String} (hkey : other ≠ key) :
    ((obj.deleteMember key).getD ∅).lookup other = (obj.getD ∅).lookup other := by
  cases obj with
  | none => rfl
  | some members => exact lookup_erase_ne hkey

/-- Setting a value below one member leaves the others alone. -/
lemma lookup_setRawAt {obj out : OptionalJSONObject} {value : Option Json}
    (hset : setRawAt obj (first :: keys) value = .ok out) (hkey : key ≠ first) :
    (out.getD ∅).lookup key = (obj.getD ∅).lookup key := by
  cases keys with
  | nil =>
    cases value with
    | none =>
      cases hset
      exact lookup_deleteMember_ne obj hkey
    | some raw =>
      cases hset
      exact lookup_setMember_ne obj raw hkey
  | cons next keys =>
  obtain ⟨childRaw, -, hset⟩ := bind_eq_ok.mp hset
  split at hset
  · cases hset
    rfl
  obtain ⟨parsed, -, child, -, hset⟩ := bind₂_eq_ok.mp hset
  cases child with
  | none => cases hset
  | some members =>
    cases hset
    exact lookup_setMember_ne obj members.json hkey

/-- The constraint is set below one member of the body. -/
lemma lookup_applyOutputFormat {codec : Codec} {provider : Provider} {chat : ChatRequest}
    {raw out : Members} (happly : applyOutputFormat codec provider chat raw = .ok out)
    (hpath : outputPath chat provider = first :: keys) (hkey : key ≠ first) :
    out.lookup key = raw.lookup key := by
  unfold applyOutputFormat at happly
  split at happly
  · cases happly
    rfl
  obtain ⟨-, -, happly⟩ := bind_eq_ok.mp happly
  -- each provider that writes anything writes it with `setRawAt` at the path
  have hset {value : Json}
      (hset : (do return (← setRawAt (some raw) (outputPath chat provider) (some value)).getD ∅)
        = (.ok out : Except String Members)) : out.lookup key = raw.lookup key := by
    obtain ⟨obj, hobj, hout⟩ := bind_eq_ok.mp hset
    cases hout
    rw [hpath] at hobj
    exact lookup_setRawAt hobj hkey
  cases provider with
  | gemini =>
    dsimp only at happly
    split at happly
    · cases happly
    obtain ⟨existing, -, parsed, -, gc, -, happly⟩ := bind₃_eq_ok.mp happly
    cases gc with
    | none =>
      cases happly
      rfl
    | some members => exact hset happly
  | anthropic =>
    dsimp only at happly
    split at happly
    · cases happly
      rfl
    split at happly
    · cases happly
    · exact hset happly
  | openai =>
    obtain ⟨encoded, -, happly⟩ := bind_eq_ok.mp happly
    exact hset happly

/-! ## Free-form tools -/

def freeformBlock (b : Block) : Option String :=
  if (b.toolUse.map fun t => decide (t.invocationKind = .freeform)).getD false then some "tool call"
  else if (b.toolResult.map fun t => decide (t.invocationKind = .freeform)).getD false then
    some "tool result"
  else none

def rejectFreeformBlocks (provider : String) (mi : Nat) : Nat → List Block → Except String Unit
  | _, [] => .ok ()
  | bi, b :: rest =>
    match freeformBlock b with
    | some what =>
      .error s!"{provider}: free-form {what} at messages[{mi}].blocks[{bi}] is unsupported"
    | none => rejectFreeformBlocks provider mi (bi + 1) rest

def rejectFreeformMessages (provider : String) : Nat → List Message → Except String Unit
  | _, [] => .ok ()
  | mi, m :: rest => do
    rejectFreeformBlocks provider mi 0 m.blocks
    rejectFreeformMessages provider (mi + 1) rest

def rejectFreeformToolDefs (provider : String) :
    Nat → List ToolDef → Except String Unit
  | _, [] => .ok ()
  | i, t :: rest =>
    if t.invocationKind = .freeform then
      .error s!"{provider}: free-form tool definition {i} ({codec.quote t.name}) is unsupported"
    else rejectFreeformToolDefs provider (i + 1) rest

def rejectFreeformTools (provider : String) (chat : ChatRequest) :
    Except String Unit := do
  rejectFreeformToolDefs codec provider 0 chat.tools
  rejectFreeformMessages provider 0 chat.messages

end ToranaEdge.Format
