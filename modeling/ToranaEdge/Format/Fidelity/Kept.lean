import ToranaEdge.Format.AnthropicUnmarshal

/-! # What an Anthropic body keeps on its way through the engine

A body is read into the engine's request and written back.  `Survives` says
that nothing of it is lost: every member of the body, of its messages, their
blocks and nested elements, and of its tools is in what is written, with the
same JSON value.

Where a level reads into a closed struct, a member the struct has no field for
is lost, and where it writes a struct with `omitempty`, an empty value is.
`Plain` is the exact condition. -/

namespace ToranaEdge.Format.Anthropic

open Engine List

/-! ## What it is to survive -/

section survive

variable (codec : WireCodec)

/-- The same JSON value: numbers by the double they denote, objects by their
members in any order. -/
inductive SameJson : Json → Json → Prop where
  | refl (v : Json) : SameJson v v
  | num {a b : String} {bits : UInt64} (ha : codec.parseFloat a = .ok bits)
    (hb : codec.parseFloat b = .ok bits) : SameJson (.num a) (.num b)
  | arr {as bs : List Json} (h : Forall₂ SameJson as bs) : SameJson (.arr as) (.arr bs)
  | obj {as bs : Entries} (hkeys : ∀ key, key ∈ as.keys ↔ key ∈ bs.keys)
    (h : ∀ key a b, as.dlookup key = some a → bs.dlookup key = some b → SameJson a b) :
    SameJson (.obj as) (.obj bs)

variable (rel : String → Json → Json → Prop)

/-- Every member of the first object is in the second, related as its name says. -/
def MembersKept (members out : Entries) : Prop :=
  ∀ m ∈ members, ∃ w, out.dlookup m.1 = some w ∧ rel m.1 m.2 w

def ObjectKept (v w : Json) : Prop :=
  ∃ members out, v = .obj members ∧ w = .obj out ∧ MembersKept rel members out

/-- The same value, or an array whose elements are kept in order. -/
def ArrayKept (rel : Json → Json → Prop) (v w : Json) : Prop :=
  SameJson codec v w ∨ ∃ vs ws, v = .arr vs ∧ w = .arr ws ∧ Forall₂ rel vs ws

/-- An array of one text block. -/
def TextArray (s : String) (w : Json) : Prop :=
  ∃ block : Entries, w = .arr [.obj block] ∧ block.dlookup "type" = some (.str "text") ∧
    block.dlookup "text" = some (.str s)

/-- A string may become an array of one text block. -/
def ContentKept (rel : Json → Json → Prop) (v w : Json) : Prop :=
  ArrayKept codec rel v w ∨ ∃ s, v = .str s ∧ TextArray s w

/-- A nested element of a tool result, a tool definition or a system block. -/
def FlatKept : Json → Json → Prop := ObjectKept fun _ => SameJson codec

/-- The members of a content block; the content of a tool result is a level of its own. -/
def blockRel (members : Entries) (key : String) (v w : Json) : Prop :=
  SameJson codec v w ∨ key = "content" ∧ members.dlookup "type" = some (.str "tool_result") ∧
    ContentKept codec (FlatKept codec) v w

def BlockKept (v w : Json) : Prop :=
  ∃ members out, v = .obj members ∧ w = .obj out ∧
    MembersKept (blockRel codec members) members out

def messageRel (key : String) : Json → Json → Prop :=
  if key = "content" then ContentKept codec (BlockKept codec) else SameJson codec

def MessageKept : Json → Json → Prop := ObjectKept (messageRel codec)

def requestRel (key : String) : Json → Json → Prop :=
  if key = "messages" then ArrayKept codec (MessageKept codec)
  else if key = "tools" then ArrayKept codec (FlatKept codec)
  else if key = "system" then ContentKept codec (FlatKept codec)
  else SameJson codec

/-- Nothing of the body is lost in what is written. -/
def Survives (body : Json) (out : Members) : Prop :=
  ObjectKept (requestRel codec) body out.json

end survive

/-! ## The bodies that survive -/

/-- A value that a field with `omitempty` does not write. -/
def Omitted (v : Json) : Prop := v = .null ∨ v = .str ""

/-- Only the named members. -/
def OnlyNames (names : List String) (members : Entries) : Prop := ∀ m ∈ members, m.1 ∈ names

/-- A nested element: its type is a string that is not empty, and where it reads as
text it holds nothing but text. -/
def NestedPlain (members : Entries) : Prop :=
  (∀ v ∈ members.dlookup "type", ∃ t, v = .str t ∧ t ≠ "") ∧
    ((nestedText members.toAList).isSome → OnlyNames systemNames members)

section plain

variable (codec : WireCodec) (members : Entries)

/-- The type a block is read with. -/
def readType : Except String String :=
  decodeString "" (bound codec contentBlockNames members "type")

/-- A block that is read as a block of that type. -/
def ArmPlain : String → Prop
  | "text" => ∀ v ∈ members.dlookup "text", ¬ Omitted v
  | "thinking" =>
    (∀ v ∈ members.dlookup "thinking", ¬ Omitted v) ∧ ∀ v ∈ members.dlookup "signature", ¬ Omitted v
  | "redacted_thinking" => ∀ v ∈ members.dlookup "data", ¬ Omitted v
  | "tool_use" => True
  | "tool_result" =>
    (∃ s, members.dlookup "content" = some (.str s)) ∨
      ∃ elems, members.dlookup "content" = some (.arr elems) ∧ elems ≠ [] ∧
        ∀ nested, .obj nested ∈ elems → NestedPlain nested
  | type =>
    -- An arm the adapter does not model keeps its members; only the type and the
    -- cache member are read and written, and must be read as they stand.
    (∀ v ∈ members.dlookup "type", v = .str (unmodelledKind type)) ∧
      ∀ v ∈ members.dlookup "cache_control",
        ∃ w ∈ rawMessage (bound codec contentBlockNames members "cache_control"),
          SameJson codec v w

def BlockPlain : Prop :=
  ∃ type, readType codec members = .ok type ∧ ArmPlain codec members type

def MessagePlain : Prop :=
  OnlyNames messageNames members ∧
    (∀ v ∈ members.dlookup "role", v ≠ .null ∧ v ≠ .str roleSystem) ∧
    ((∃ s, members.dlookup "content" = some (.str s) ∧ s ≠ "") ∨
      ∃ elems, members.dlookup "content" = some (.arr elems) ∧ elems ≠ [] ∧
        ∀ block, .obj block ∈ elems → BlockPlain codec block)

def ToolPlain : Prop :=
  OnlyNames toolNames members ∧ ∀ v ∈ members.dlookup "description", ¬ Omitted v

def SystemElementPlain (block : Entries) : Prop :=
  OnlyNames systemNames block ∧ block.dlookup "text" ≠ some (.str "")

def SystemPlain (v : Json) : Prop :=
  (∃ s, v = .str s ∧ s ≠ "") ∨
    ∃ elems, v = .arr elems ∧ elems ≠ [] ∧ ∀ block, .obj block ∈ elems → SystemElementPlain block

/-- An output constraint the engine takes over is a schema, and has no name. -/
def FormatPlain (format : Entries) : Prop :=
  (format.dlookup "type" = some (.str "text") → ¬ OnlyNames ["type"] format) ∧
    (format.dlookup "type" = some (.str "json_schema") →
      OnlyNames ["type", "name", "schema", "strict"] format →
        "name" ∉ format.keys ∧ "schema" ∈ format.keys)

def OutputPlain (config : Entries) : Prop :=
  ∀ format, config.dlookup "format" = some (.obj format) → FormatPlain format

/-- A member of the body, by its name. -/
def MemberPlain (key : String) (v : Json) : Prop :=
  match key with
  | "model" => ¬ Omitted v
  | "max_tokens" => v ≠ .null
  | "temperature" => v ≠ .null
  | "top_p" => v ≠ .null
  | "stop_sequences" => v ≠ .null ∧ ∀ elems, v = .arr elems → elems ≠ [] ∧ .null ∉ elems
  | "system" => SystemPlain v
  | "messages" =>
    ∀ elems, v = .arr elems → elems ≠ [] ∧ ∀ m, .obj m ∈ elems → MessagePlain codec m
  | "tools" =>
    v ≠ .null ∧ ∀ elems, v = .arr elems → elems ≠ [] ∧ ∀ t, .obj t ∈ elems → ToolPlain t
  | "stream" => v = .bool true
  | "output_config" => ∀ config, v = .obj config → OutputPlain config
  | _ => True

def Plain (body : Json) : Prop :=
  ∀ members, body = .obj members → ∀ m ∈ members, MemberPlain codec m.1 m.2

/-- Two lists of values that are decoded into a field leave the same in it. -/
def ReadAlike (key : String) (vs ws : List Json) : Prop :=
  match key with
  | "model" => decodeString "" vs = decodeString "" ws
  | "max_tokens" => decodeNumber codec.parseInt vs = decodeNumber codec.parseInt ws
  | "temperature" | "top_p" => decodeNumber codec.parseFloat vs = decodeNumber codec.parseFloat ws
  | "stop_sequences" => decodeSlice "" decodeElemString vs = decodeSlice "" decodeElemString ws
  | "system" => rawMessage vs = rawMessage ws
  | "messages" => decodeSlice ⟨"", [], []⟩ (fun _ => decodeMessage codec) vs =
      decodeSlice ⟨"", [], []⟩ (fun _ => decodeMessage codec) ws
  | "tools" => decodeSlice {} (decodeToolDef codec) vs = decodeSlice {} (decodeToolDef codec) ws
  | "stream" => decodeBool vs = decodeBool ws
  | _ => True

/-- `encoding/json` reads names without regard to case.  A field that is spelled again in
another case is read as its own value alone would be. -/
def SpelledAlike (body : Json) : Prop :=
  ∀ members, body = .obj members → ∀ m ∈ members, m.1 ∈ requestNames →
    ReadAlike codec m.1 (bound codec requestNames members m.1) [m.2]

end plain

/-! ## Members -/

section members

variable {codec : WireCodec} {rel : String → Json → Json → Prop} {members out : Entries} {v w : Json}

variable {s key : String} {names : List String}

lemma sameJson_str : SameJson codec (.str s) w ↔ w = .str s := by
  constructor
  · intro h
    cases h
    rfl
  · rintro rfl
    exact .refl _

lemma sameJson_null : SameJson codec .null w ↔ w = .null := by
  constructor
  · intro h
    cases h
    rfl
  · rintro rfl
    exact .refl _

lemma sameJson_str_right : SameJson codec v (.str s) ↔ v = .str s := by
  constructor
  · intro h
    cases h
    rfl
  · rintro rfl
    exact .refl _

lemma sameJson_arr_iff {as bs : List Json} :
    SameJson codec (.arr as) (.arr bs) ↔ Forall₂ (SameJson codec) as bs := by
  constructor
  · intro h
    cases h with
    | refl => exact forall₂_same.mpr fun v _ => .refl v
    | arr h => exact h
  · exact .arr

/-- Two objects are the same when their members are, name by name. -/
lemma sameJson_obj_iff {as bs : Entries} : SameJson codec (.obj as) (.obj bs) ↔
      ∀ key, Option.Rel (SameJson codec) (as.dlookup key) (bs.dlookup key) := by
  constructor
  · intro h key
    cases h with
    | refl => cases as.dlookup key <;> simp [SameJson.refl]
    | obj hkeys hvalues =>
    have hiff := hkeys key
    rw [← dlookup_isSome, ← dlookup_isSome] at hiff
    cases ha : as.dlookup key <;> cases hb : bs.dlookup key <;> simp [ha, hb] at hiff ⊢
    exact hvalues key _ _ ha hb
  · intro h
    refine .obj (fun key => ?_) (fun key a b ha hb => ?_)
    · rw [← dlookup_isSome, ← dlookup_isSome]
      have hrel := h key
      cases ha : as.dlookup key <;> cases hb : bs.dlookup key <;> simp [ha, hb] at hrel ⊢
    · have hrel := h key
      rw [ha, hb] at hrel
      exact Option.rel_some_some.mp hrel

/-- Objects that differ in one member at most. -/
lemma sameJson_obj_iff_at {as bs : Entries} (key : String)
    (hother : ∀ key' ≠ key, bs.dlookup key' = as.dlookup key') :
    SameJson codec (.obj as) (.obj bs) ↔
      Option.Rel (SameJson codec) (as.dlookup key) (bs.dlookup key) := by
  rw [sameJson_obj_iff]
  refine ⟨fun h => h key, fun h key' => ?_⟩
  by_cases hkey : key' = key
  · rw [hkey]
    exact h
  · rw [hother key' hkey]
    cases as.dlookup key' <;> simp [SameJson.refl]

/-- The same object is kept, whatever else its members may become. -/
lemma membersKept_of_sameJson (hrel : ∀ key v w, SameJson codec v w → rel key v w)
    (hnodup : members.NodupKeys) (h : SameJson codec (.obj members) (.obj out)) :
    MembersKept rel members out := by
  intro m hm
  have hlookup : members.dlookup m.1 = some m.2 := mem_dlookup hnodup hm
  cases h with
  | refl => exact ⟨m.2, hlookup, hrel _ _ _ (.refl _)⟩
  | obj hkeys h =>
  have hkey : m.1 ∈ out.keys := (hkeys m.1).mp (mem_keys_of_mem hm)
  obtain ⟨w, hw⟩ := Option.isSome_iff_exists.mp (dlookup_isSome.mpr hkey)
  exact ⟨w, hw, hrel _ _ _ (h m.1 m.2 w hlookup hw)⟩

/-- What holds of every member, by name. -/
lemma forall_members_iff {P : String → Json → Prop} (hnodup : members.NodupKeys) :
    (∀ m ∈ members, P m.1 m.2) ↔ ∀ key, ∀ v ∈ members.dlookup key, P key v := by
  constructor
  · intro h key v hv
    exact h ⟨key, v⟩ (of_mem_dlookup hv)
  · intro h m hm
    exact h m.1 m.2 (mem_dlookup hnodup hm)

lemma membersKept_iff (hnodup : members.NodupKeys) : MembersKept rel members out ↔
      ∀ key, ∀ v ∈ members.dlookup key, ∃ w, out.dlookup key = some w ∧ rel key v w :=
  forall_members_iff (P := fun key v => ∃ w, out.dlookup key = some w ∧ rel key v w) hnodup

lemma onlyNames_iff (hnodup : members.NodupKeys) :
    OnlyNames names members ↔ ∀ key, ∀ v ∈ members.dlookup key, key ∈ names :=
  forall_members_iff (P := fun key _ => key ∈ names) hnodup

lemma objectKept_iff : ObjectKept rel (.obj members) (.obj out) ↔ MembersKept rel members out := by
  simp [ObjectKept]

lemma exists_obj_of_sameJson (h : SameJson codec (.obj members) w) : ∃ out, w = .obj out := by
  cases h with
  | refl => exact ⟨members, rfl⟩
  | obj _ _ => exact ⟨_, rfl⟩

lemma objectKept_of_sameJson (hrel : ∀ key v w, SameJson codec v w → rel key v w)
    (hnodup : members.NodupKeys) (h : SameJson codec (.obj members) w) :
    ObjectKept rel (.obj members) w := by
  obtain ⟨out, rfl⟩ := exists_obj_of_sameJson h
  exact objectKept_iff.mpr (membersKept_of_sameJson hrel hnodup h)

lemma flatKept_iff {out : Members} (hnodup : members.NodupKeys) :
    FlatKept codec (.obj members) out.json ↔
      ∀ key, ∀ v ∈ members.dlookup key, ∃ w, out.lookup key = some w ∧ SameJson codec v w :=
  objectKept_iff.trans (membersKept_iff hnodup)

lemma flatKept_of_sameJson (hnodup : members.NodupKeys) (h : SameJson codec (.obj members) w) :
    FlatKept codec (.obj members) w := objectKept_of_sameJson (fun _ _ _ h => h) hnodup h

/-- A string field with `omitempty` keeps its member exactly when it is written. -/
lemma omitempty_iff {o : Option Json} (h : decodeString "" o.toList = .ok s) :
    (∀ v ∈ o, ∃ w, nonEmptyString s = some w ∧ SameJson codec v w) ↔ ∀ v ∈ o, ¬ Omitted v := by
  rcases decodeString_toList.mp h with rfl | ⟨rfl | rfl, rfl⟩
  · by_cases hs : s = ""
    · simp [nonEmptyString, Omitted, hs]
    · simp [nonEmptyString, Omitted, sameJson_str]
  · simp
  · simp [nonEmptyString, Omitted]

/-- A string that is read as one that is not empty is stated. -/
lemma eq_some_of_decodeString {o : Option Json}
    (h : decodeString "" o.toList = .ok s) (hne : s ≠ "") : o = some (.str s) := by
  rcases decodeString_toList.mp h with rfl | ⟨-, rfl⟩
  · rfl
  · exact absurd rfl hne

lemma strict_of_mem_lookup (hstrict : strictJson (.obj members) = true) :
    ∀ v ∈ members.dlookup key, strictJson v = true := by
  intro v hv
  exact (strictJson_obj.mp hstrict).2 _ (of_mem_dlookup hv)

lemma strict_of_mem_bound (hstrict : strictJson (.obj members) = true) :
    ∀ v ∈ rawMessage (bound codec names members key), strictJson v = true := by
  intro v hv
  have hmem : v ∈ bound codec names members key := mem_of_getLast? hv
  obtain ⟨m, hm, rfl⟩ := mem_map.mp hmem
  exact (strictJson_obj.mp hstrict).2 m (mem_of_mem_filter hm)

end members

/-! ## Arrays of objects -/

section arrays

variable {codec : WireCodec} {rel : Json → Json → Prop} {plain : Entries → Prop} {vs ws : List Json}
  {outs : List (Option Json)}

/-- An element of an array and what is written for it, which may be nothing.  It is
kept exactly when it is plain. -/
def Written (rel : Json → Json → Prop) (plain : Entries → Prop) (v : Json) (o : Option Json) :
    Prop :=
  ∃ members, v = .obj members ∧
    match o with
    | some w => rel v w ↔ plain members
    | none => ¬ plain members

/-- Where an element is dropped the array is too short to keep the others. -/
lemma forall₂_written_iff (h : Forall₂ (Written rel plain) vs outs) :
    Forall₂ rel vs (outs.filterMap id) ↔ ∀ members, .obj members ∈ vs → plain members := by
  have hshort : ∀ {vs : List Json} {outs : List (Option Json)},
      Forall₂ (Written rel plain) vs outs → (outs.filterMap id).length ≤ vs.length := by
    intro vs outs h
    rw [h.length_eq]
    exact length_filterMap_le _ _
  induction h with
  | nil => simp
  | @cons v o vs outs hfirst hrest ih =>
  obtain ⟨members, rfl, hfirst⟩ := hfirst
  have hcons : (∀ m, .obj m ∈ Json.obj members :: vs → plain m) ↔
      plain members ∧ ∀ m, .obj m ∈ vs → plain m := by
    simp
  rw [hcons]
  cases o with
  | some w =>
    have hwritten : (some w :: outs).filterMap id = w :: outs.filterMap id := rfl
    rw [hwritten, forall₂_cons]
    exact and_congr hfirst ih
  | none =>
  apply iff_of_false
  · intro hkept
    have hlength := hkept.length_eq
    have hle := hshort hrest
    have hdropped : (none :: outs).filterMap id = outs.filterMap id := rfl
    rw [hdropped, length_cons] at hlength
    omega
  · rintro ⟨hplain, -⟩
    exact hfirst hplain

/-- An array is kept exactly when its elements are, in order. -/
lemma arrayKept_iff (hsame : Forall₂ (SameJson codec) vs ws → Forall₂ rel vs ws) :
    ArrayKept codec rel (.arr vs) (.arr ws) ↔ Forall₂ rel vs ws := by
  constructor
  · rintro (h | ⟨_, _, ⟨⟩, ⟨⟩, h⟩)
    · exact hsame (sameJson_arr_iff.mp h)
    · exact h
  · intro h
    exact .inr ⟨vs, ws, rfl, rfl, h⟩

section

variable (hrel : ∀ {members : Entries} {w : Json}, members.NodupKeys →
    SameJson codec (.obj members) w → rel (.obj members) w)
  (hstrict : ∀ v ∈ vs, strictJson v = true) (h : Forall₂ (Written rel plain) vs outs)
include hrel hstrict h

lemma rel_of_written (hsame : Forall₂ (SameJson codec) vs ws) : Forall₂ rel vs ws := by
  have hobjects : ∀ v ∈ vs, ∀ w, SameJson codec v w → rel v w := by
    intro v hv w hsame
    obtain ⟨_, -, members, rfl, -⟩ := Align.exists_of_mem_right h.flip hv
    exact hrel (strictJson_obj.mp (hstrict _ hv)).1 hsame
  exact ((forall₂_and_left _ _).mpr ⟨hobjects, hsame⟩).imp fun v w h => h.1 w h.2

/-- An array of objects that are written one by one. -/
lemma arrayKept_written_iff : ArrayKept codec rel (.arr vs) (.arr (outs.filterMap id)) ↔
      ∀ members, .obj members ∈ vs → plain members := by
  rw [← forall₂_written_iff h]
  exact arrayKept_iff (rel_of_written hrel hstrict h)

end

lemma filterMap_map_some (ws : List Json) : (ws.map some).filterMap id = ws := by
  simp

lemma contentKept_arr_iff {w : Json} :
    ContentKept codec rel (.arr vs) w ↔ ArrayKept codec rel (.arr vs) w := by
  simp [ContentKept]

end arrays

end ToranaEdge.Format.Anthropic
