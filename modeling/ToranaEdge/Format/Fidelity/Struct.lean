import ToranaEdge.Format.Fidelity.Kept

/-! # Objects that are read into a struct and written from it

The struct has a field for some names only, and writes some fields only when
they are not empty.  A member is lost in either of two ways: no field has its
name, or its field does not write it. -/

namespace ToranaEdge.Format

open Engine
open Anthropic (SameJson ObjectKept OnlyNames sameJson_str sameJson_null membersKept_iff
  onlyNames_iff objectKept_iff Omitted omitempty_iff)

lemma elemsOf_sliceJson (elems : List Json) : elemsOf (some (sliceJson elems)) = elems := by
  cases elems <;> rfl

lemma elemsOf_nonEmptySlice (elems : List Json) : elemsOf (nonEmptySlice elems) = elems := by
  cases elems <;> rfl

/-- A slice with `omitempty` is written exactly when it has an element. -/
lemma exists_nonEmptySlice {elems : List Json} {P : Json → Prop} :
    (∃ w, nonEmptySlice elems = some w ∧ P w) ↔ elems ≠ [] ∧ P (.arr elems) := by
  cases elems <;> simp [nonEmptySlice]

variable {rel : String → Json → Json → Prop} {members : Entries}
variable {fields : List (String × Option Json)}

/-- Every field writes the member of its name, if there is one. -/
def FieldsKept (rel : String → Json → Json → Prop) (members : Entries)
    (fields : List (String × Option Json)) : Prop :=
  ∀ f ∈ fields, ∀ v ∈ members.dlookup f.1, ∃ w, f.2 = some w ∧ rel f.1 v w

/-- **Written as a struct.**  An object keeps its members exactly when they all name
fields and the fields write them. -/
theorem structKept_iff (hnodup : members.NodupKeys) (hfields : (fields.map Prod.fst).Nodup) :
    ObjectKept rel (.obj members) (structJson fields) ↔
      OnlyNames (fields.map Prod.fst) members ∧ FieldsKept rel members fields := by
  refine (objectKept_iff.trans (membersKept_iff hnodup)).trans ?_
  have hlookup : ∀ key, (structMembers fields).entries.dlookup key = (fields.lookup key).join :=
    fun key => lookup_structMembers fields key hfields
  simp only [hlookup]
  rw [onlyNames_iff hnodup]
  constructor
  · intro h
    refine ⟨fun key v hv => ?_, fun f hf v hv => ?_⟩
    · by_contra hkey
      obtain ⟨w, hw, -⟩ := h key v hv
      rw [lookup_eq_none_of_not_mem hkey] at hw
      cases hw
    · obtain ⟨w, hw, hrel⟩ := h f.1 v hv
      rw [Align.lookup_of_mem hfields hf] at hw
      exact ⟨w, hw, hrel⟩
  · rintro ⟨hnames, hkept⟩ key v hv
    obtain ⟨f, hf, rfl⟩ := List.mem_map.mp (hnames key v hv)
    obtain ⟨w, hw, hrel⟩ := hkept f hf v hv
    exact ⟨w, by rw [Align.lookup_of_mem hfields hf, hw]; rfl, hrel⟩

/-- The fields may be compared as if they were read by their exact names. -/
lemma structKept_congr {names : List String} {P : Prop} (hstrict : strictJson (.obj members) = true)
    (hnames : fields.map Prod.fst = names) (hfields : names.Nodup)
    (h : OnlyNames names members → (∀ (codec : WireCodec) (field : String),
      bound codec names members field = (members.dlookup field).toList) →
      (FieldsKept rel members fields ↔ P)) :
    ObjectKept rel (.obj members) (structJson fields) ↔ OnlyNames names members ∧ P := by
  subst hnames
  have hnodup := (strictJson_obj.mp hstrict).1
  exact (structKept_iff hnodup hfields).trans
    (and_congr_right fun honly => h honly fun _ => bound_eq_lookup honly hnodup)

lemma fieldsKept_nil : FieldsKept rel members [] := by
  intro f hf
  cases hf

variable {value : Option Json}

lemma fieldsKept_cons {name : String} : FieldsKept rel members ((name, value) :: fields) ↔
      (∀ v ∈ members.dlookup name, ∃ w, value = some w ∧ rel name v w) ∧
        FieldsKept rel members fields := List.forall_mem_cons

/-- A field writes the member it was read from. -/
def Writes (codec : WireCodec) (o value : Option Json) : Prop :=
  ∀ v ∈ o, ∃ w, value = some w ∧ SameJson codec v w

section field

variable (codec : WireCodec) {o : Option Json}

/-- One field of a struct whose members are compared as values. -/
lemma flatFields_cons {name : String} :
    FieldsKept (fun _ => SameJson codec) members ((name, value) :: fields) ↔
      Writes codec (members.dlookup name) value ∧
        FieldsKept (fun _ => SameJson codec) members fields := fieldsKept_cons

/-- A string field that is always written. -/
lemma writes_string_iff {s : String} (h : decodeString "" o.toList = .ok s) :
    Writes codec o (some (.str s)) ↔ ∀ v ∈ o, v ≠ .null := by
  unfold Writes
  rcases decodeString_toList.mp h with rfl | ⟨rfl | rfl, rfl⟩
  · simp [sameJson_str]
  · simp
  · simp [sameJson_null]

/-- A string field that is written unless it is empty. -/
lemma writes_nonEmpty_iff {s : String} (h : decodeString "" o.toList = .ok s) :
    Writes codec o (nonEmptyString s) ↔ ∀ v ∈ o, ¬ Omitted v := omitempty_iff h

/-- A pointer to a string, written unless it is nil. -/
lemma writes_stringPtr_iff {p : Option String} (h : decodeStringPtr o.toList = .ok p) :
    Writes codec o (p.map Json.str) ↔ ∀ v ∈ o, v ≠ .null := by
  unfold Writes
  rcases decodeStringPtr_toList h with ⟨t, rfl, rfl⟩ | ⟨rfl | rfl, rfl⟩
  · simp [sameJson_str]
  · simp
  · simp

/-- A pointer to a bool, written unless it is nil. -/
lemma writes_boolPtr_iff {p : Option Bool} (h : decodeBoolPtr o.toList = .ok p) :
    Writes codec o (p.map Json.bool) ↔ ∀ v ∈ o, v ≠ .null := by
  unfold Writes
  rcases decodeBoolPtr_toList h with ⟨b, rfl, rfl⟩ | ⟨rfl | rfl, rfl⟩
  · simp [SameJson.refl]
  · simp
  · simp

lemma decodeBool_toList {b : Bool} (h : decodeBool o.toList = .ok b) :
    o = some (.bool b) ∨ (o = none ∨ o = some .null) ∧ b = false := by
  cases o with
  | none =>
    cases h
    simp
  | some v => cases v <;> cases h <;> simp

/-- A bool that is written when it is set. -/
lemma writes_trueOnly_iff {b : Bool} (h : decodeBool o.toList = .ok b) :
    Writes codec o (trueOnly b) ↔ ∀ v ∈ o, v = .bool true := by
  unfold Writes
  rcases decodeBool_toList h with rfl | ⟨rfl | rfl, rfl⟩
  · cases b
    · simp [trueOnly]
    · simp [trueOnly, SameJson.refl]
  · simp
  · simp [trueOnly]

lemma writes_none : Writes codec none value := by
  intro v hv
  cases hv

/-- An object that is parsed and written as it came. -/
lemma writes_required {r : RequiredJSONObject}
    (hstrict : ∀ v ∈ o, strictJson v = true) (h : parseRequiredOrEmpty codec o = .ok r) :
    Writes codec o (some r.members.json) := by
  intro v hv
  rw [Option.mem_def.mp hv] at h
  exact ⟨_, rfl, by rw [parseRequired_eq_ok h (hstrict v hv)]; exact .refl v⟩

/-- A field that writes what it read. -/
lemma writes_of_eq (h : value = o) : Writes codec o value := by
  intro v hv
  exact ⟨v, h.trans hv, .refl v⟩

end field

end ToranaEdge.Format
