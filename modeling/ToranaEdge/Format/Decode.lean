import ToranaEdge.Format.Shared

/-! # Reading wire structs

How `encoding/json` fills a Go struct from an object.  A member belongs to the
field of its name, or, if there is none, to the field whose name differs from
it in case only; a member of no field is skipped.  The members of one field are
decoded one after another into the same place, in the order of the text, and
null leaves most places as they are.

The texts of the decoder's own errors are abbreviated: they are the library's. -/

namespace ToranaEdge.Format

open Engine Attempt List Except

/-! ## What comes from elsewhere -/

/-- What reading takes from the Go library. -/
structure WireCodec extends Codec where
  /-- `foldName`: two names with one image differ in case only. -/
  foldName : String → String
  /-- `strconv.ParseInt` of a number. -/
  parseInt : String → Except String Int
  /-- `strconv.ParseFloat` of a number, as its IEEE bit pattern. -/
  parseFloat : String → Except String UInt64
  /-- Decoding into `any` succeeds: every number is in the range of a double. -/
  decodesAny : Json → Bool
  /-- The text an object has in the body. -/
  text : Members → String

instance : Coe WireCodec Codec := ⟨WireCodec.toCodec⟩

/-- The members of an object, in the order of the text. -/
abbrev Entries : Type := List (Sigma fun _ : String => Json)

/-! ## The strict text rules -/

mutual

/-- Member names are unique, at every depth. -/
def strictJson : Json → Bool
  | .arr elems => strictElems elems
  | .obj members => (members.map Sigma.fst).Nodup && strictEntries members
  | _ => true

def strictElems : List Json → Bool
  | [] => true
  | v :: rest => strictJson v && strictElems rest

def strictEntries : Entries → Bool
  | [] => true
  | ⟨_, v⟩ :: rest => strictJson v && strictEntries rest

end

variable {elems : List Json}

lemma strictElems_iff : strictElems elems = true ↔ ∀ v ∈ elems, strictJson v = true := by
  induction elems with
  | nil => simp [strictElems]
  | cons v rest ih => simp [strictElems, ih]

variable {members : Entries} {codec : WireCodec}

lemma strictEntries_iff : strictEntries members = true ↔ ∀ m ∈ members, strictJson m.2 = true := by
  induction members with
  | nil => simp [strictEntries]
  | cons m rest ih => simp [strictEntries, ih]

lemma strictJson_arr : strictJson (.arr elems) = true ↔ ∀ v ∈ elems, strictJson v = true :=
  strictElems_iff

lemma strictJson_obj : strictJson (.obj members) = true ↔
      members.NodupKeys ∧ ∀ m ∈ members, strictJson m.2 = true := by
  rw [strictJson, Bool.and_eq_true, decide_eq_true_eq, strictEntries_iff]
  rfl

/-- The members of a strict object are its entries. -/
lemma toAList_entries (h : members.NodupKeys) : members.toAList.entries = members := by
  show members.dedupKeys = members
  induction members with
  | nil => rfl
  | cons m rest ih =>
    rw [nodupKeys_cons] at h
    rw [dedupKeys_cons, ih h.2, kinsert_def, kerase_of_notMem_keys h.1]

/-- An object without the named members. -/
def withoutMembers (names : List String) (members : Members) : Members :=
  names.foldl (fun m name => m.erase name) members

/-- `ParseOptionalJSONObjectExcluding`, of a body that is there. -/
def parseOptionalJSONObjectExcluding (body : Json) (names : List String) :
    Except String OptionalJSONObject :=
  if strictJson body then
    match body with
    | .obj members => .ok (some (withoutMembers names members.toAList))
    | _ => .error "raw JSON must be a JSON object"
  else .error "raw JSON: duplicate member name"

/-- `NormalizeExtensionObject`: no member is no object. -/
def normalizeExtensionObject (ext : OptionalJSONObject) : OptionalJSONObject :=
  ext.filter fun members => !members.entries.isEmpty

/-- `ParseRequiredJSONObject` of a value of the body. -/
def parseRequired (codec : WireCodec) (v : Json) : Except String RequiredJSONObject :=
  (parseRequiredJSONObject v).map fun members => ⟨codec.text members, members⟩

/-- `ParseRequiredObjectOrEmpty` of a value of the body. -/
def parseRequiredOrEmpty (codec : WireCodec) : Option Json → Except String RequiredJSONObject
  | none => .ok {}
  | some v => parseRequired codec v

/-! ## Fields -/

section fields

variable (codec : WireCodec)

/-- Whether a member of that name is decoded into the field. -/
def resolves (names : List String) (field key : String) : Bool :=
  key == field || (!names.contains key && codec.foldName key == codec.foldName field)

/-- The values that are decoded into a field of a struct with the named fields. -/
def bound (names : List String) (members : Entries) (field : String) : List Json :=
  (members.filter fun m => resolves codec names field m.1).map Sigma.snd

/-- A `string`. -/
def decodeString (old : String) (values : List Json) : Except String String :=
  values.foldlM (fun s v =>
    match v with
    | .str t => .ok t
    | .null => .ok s
    | _ => .error "json: cannot unmarshal into Go value of type string") old

variable (values : List Json)

/-- A `*string`. -/
def decodeStringPtr : Except String (Option String) :=
  values.foldlM (fun _ v =>
    match v with
    | .str t => .ok (some t)
    | .null => .ok none
    | _ => .error "json: cannot unmarshal into Go value of type string") none

/-- A `bool`. -/
def decodeBool : Except String Bool :=
  values.foldlM (fun b v =>
    match v with
    | .bool c => .ok c
    | .null => .ok b
    | _ => .error "json: cannot unmarshal into Go value of type bool") false

/-- A `*bool`. -/
def decodeBoolPtr : Except String (Option Bool) :=
  values.foldlM (fun _ v =>
    match v with
    | .bool c => .ok (some c)
    | .null => .ok none
    | _ => .error "json: cannot unmarshal into Go value of type bool") none

/-- A pointer to a number. -/
def decodeNumber {α : Type} (parse : String → Except String α) (values : List Json) :
    Except String (Option α) :=
  values.foldlM (fun _ v =>
    match v with
    | .num lexeme => (parse lexeme).map some
    | .null => .ok none
    | _ => .error "json: cannot unmarshal into Go value of a number type") none

/-- A `json.RawMessage`: null is a value. -/
def rawMessage : Option Json := values.getLast?

/-- The elements of an array; any other value has none. -/
def elemsOf : Option Json → List Json
  | some (.arr elems) => elems
  | _ => []

/-- A slice as a decoder leaves it: its elements, and those after its length that
the next array decoded into it finds. -/
structure Slice (α : Type) where
  values : List α := []
  spare : List α := []

/-- An array decoded into a slice; its elements are decoded over the old ones. -/
def Slice.decode {α : Type} (zero : α) (elem : α → Json → Except String α) (s : Slice α) :
    Json → Except String (Slice α)
  | .null => .ok {}
  | .arr [] => .ok {}
  | .arr elems => do
    let old := s.values ++ s.spare
    let values ← elems.zipIdx.mapM fun e => elem (old.getD e.2 zero) e.1
    return ⟨values, old.drop elems.length⟩
  | _ => .error "json: cannot unmarshal into Go value of a slice type"

def decodeSlice {α : Type} (zero : α) (elem : α → Json → Except String α) (values : List Json) :
    Except String (List α) :=
  (values.foldlM (Slice.decode zero elem) {}).map Slice.values

/-- An element of a `[]string`. -/
def decodeElemString (old : String) (v : Json) : Except String String := decodeString old [v]

end fields

/-! ## Reading an object that names its fields exactly -/

lemma map_filter_eq_lookup (hnodup : members.NodupKeys) (field : String) :
    (members.filter fun m => m.1 == field).map Sigma.snd = (members.dlookup field).toList := by
  induction members with
  | nil => rfl
  | cons m rest ih =>
  rw [nodupKeys_cons] at hnodup
  obtain ⟨key, v⟩ := m
  by_cases hkey : key = field
  · subst hkey
    have hrest : rest.dlookup key = none := dlookup_eq_none.mpr hnodup.1
    rw [filter_cons_of_pos (by simp), map_cons, ih hnodup.2, hrest, dlookup_cons_eq]
    rfl
  have hskip := dlookup_cons_ne rest (⟨key, v⟩ : Sigma fun _ : String => Json)
    (Ne.symm hkey)
  rw [filter_cons_of_neg (by simpa using hkey), ih hnodup.2, hskip]

/-- A field of an object whose members all name fields is the member of its name. -/
lemma bound_eq_lookup {names : List String} (hnames : ∀ m ∈ members, m.1 ∈ names)
    (hnodup : members.NodupKeys) (field : String) :
    bound codec names members field = (members.dlookup field).toList := by
  rw [← map_filter_eq_lookup hnodup]
  unfold bound
  congr 1
  apply filter_congr
  intro m hm
  simp [resolves, hnames m hm]

variable {o : Option Json}

lemma decodeString_toList {old s : String} : decodeString old o.toList = .ok s ↔
      o = some (.str s) ∨ (o = none ∨ o = some .null) ∧ s = old := by
  cases o with
  | none =>
    show ok old = ok s ↔ _
    simp [eq_comm]
  | some v =>
  cases v with
  | null =>
    show ok old = ok s ↔ _
    simp [eq_comm]
  | str t =>
    show ok t = ok s ↔ _
    simp
  | bool _ | num _ | arr _ | obj _ =>
    show error _ = ok s ↔ _
    simp

lemma decodeStringPtr_toList {p : Option String} (h : decodeStringPtr o.toList = .ok p) :
    (∃ t, o = some (.str t) ∧ p = some t) ∨ (o = none ∨ o = some .null) ∧ p = none := by
  cases o with
  | none =>
    cases h
    simp
  | some v => cases v <;> cases h <;> simp

lemma decodeBoolPtr_toList {p : Option Bool} (h : decodeBoolPtr o.toList = .ok p) :
    (∃ b, o = some (.bool b) ∧ p = some b) ∨ (o = none ∨ o = some .null) ∧ p = none := by
  cases o with
  | none =>
    cases h
    simp
  | some v => cases v <;> cases h <;> simp

@[simp] lemma rawMessage_toList (o : Option Json) : rawMessage o.toList = o := by
  cases o <;> rfl

/-- A value that parses as an object is one, and is written back as it is. -/
lemma parseRequired_eq_ok {v : Json} {r : RequiredJSONObject} (h : parseRequired codec v = .ok r)
    (hstrict : strictJson v = true) : r.members.json = v := by
  obtain ⟨members, hparse, rfl⟩ := map_eq_ok.mp h
  cases v with
  | obj entries =>
    cases hparse
    show Json.obj entries.toAList.entries = _
    rw [toAList_entries (strictJson_obj.mp hstrict).1]
  | null | bool _ | num _ | str _ | arr _ => cases hparse

lemma lookup_withoutMembers (names : List String) (members : Members) (key : String) :
    (withoutMembers names members).lookup key =
      if key ∈ names then none else members.lookup key := by
  induction names generalizing members with
  | nil => simp [withoutMembers]
  | cons name rest ih =>
  show (withoutMembers rest (members.erase name)).lookup key = _
  rw [ih]
  by_cases hrest : key ∈ rest
  · simp [hrest]
  by_cases hname : key = name
  · subst hname
    simp
  · simp [hname]

section slice

variable {α : Type} {zero : α} {elem : α → Json → Except String α} {v : Json} {out : List α}

lemma decodeSlice_singleton (h : decodeSlice zero elem [v] = .ok out) :
    v = .null ∧ out = [] ∨ ∃ elems, v = .arr elems ∧ elems.mapM (elem zero) = .ok out := by
  obtain ⟨s, hs, rfl⟩ := map_eq_ok.mp h
  obtain ⟨s', hs', hs⟩ := bind_eq_ok.mp hs
  cases hs
  cases v with
  | null =>
    cases hs'
    exact .inl ⟨rfl, rfl⟩
  | arr elems =>
    refine .inr ⟨elems, rfl, ?_⟩
    cases elems with
    | nil =>
      cases hs'
      rfl
    | cons e rest =>
    obtain ⟨values, hvalues, hs'⟩ := bind_eq_ok.mp hs'
    cases hs'
    -- A slice that was empty holds nothing to decode over.
    have hzero : ((e :: rest).zipIdx.mapM fun i => elem (([] : List α).getD i.2 zero) i.1) =
        ((e :: rest).zipIdx.map Prod.fst).mapM (elem zero) := by
      rw [mapM_map]
      rfl
    rw [zipIdx_map_fst] at hzero
    rw [← hvalues]
    exact hzero.symm
  | bool _ | num _ | str _ | obj _ => cases hs'

lemma decodeSlice_arr (h : decodeSlice zero elem [.arr elems] = .ok out) :
    elems.mapM (elem zero) = .ok out := by
  rcases decodeSlice_singleton h with ⟨hnull, -⟩ | ⟨_, ⟨⟩, helems⟩
  · cases hnull
  · exact helems

end slice

end ToranaEdge.Format
