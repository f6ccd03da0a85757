import ToranaEdge.Format.OpenAIFidelity.Kept

/-! # Which parts, calls and tools keep their members -/

namespace ToranaEdge.Format.OpenAI

open Engine Attempt AList
open Anthropic (SameJson ObjectKept FlatKept OnlyNames Omitted sameJson_str_right flatKept_iff
  strict_of_mem_lookup flatKept_of_sameJson)

variable {codec : WireCodec}

/-! ## Content parts -/

/-- A raw part and the part that is written for it. -/
def PartSent (codec : WireCodec) (raw : Json) (part : ChatContentPart) : Prop :=
  ∃ members type, raw = .obj members ∧ partType codec raw = .ok type ∧
    if type ∈ textKinds then
      ∃ s, partText codec raw = .ok (some s) ∧ part = textContentPart s
    else part = { value := Members.json ((members.toAList.erase "type").insert "type" (.str type)) }

variable {part : ChatContentPart}

lemma unknownPart_eq {u : UnknownBlock} (h : unknownPart codec u = .ok part) :
    u.kind ∉ modeledKinds ∧
      part = { value := Members.json (u.payload.members.insert "type" (.str u.kind)) } := by
  obtain ⟨⟨⟩, hreject, h⟩ := bind_eq_ok.mp h
  cases h
  obtain ⟨-, h⟩ := guard_eq_ok.mp hreject
  rcases ite_eq_iff.mp h with ⟨-, h⟩ | ⟨hkind, -⟩
  · cases h
  · exact ⟨hkind, rfl⟩

variable {raw : Json} {s type : String}

lemma partSent_text (htype : partType codec raw = .ok type)
    (htext : partText codec raw = .ok (some s)) (hkind : type ∈ textKinds) :
    PartSent codec raw (textContentPart s) := by
  cases raw with
  | obj members =>
    refine ⟨members, type, rfl, htype, ?_⟩
    rw [if_pos hkind]
    exact ⟨s, htext, rfl⟩
  | null => cases htext
  | bool _ | num _ | str _ | arr _ => cases htype

/-- The block of a part is written as one part. -/
lemma marshalBlock_of_part {role : Role} {i : Nat} {mm mm' : MarshalMsg} {b : Block}
    (hblock : openAIPartToBlock codec raw = .ok b) (h : marshalBlock codec role i mm b = .ok mm') :
    ∃ part, PartSent codec raw part ∧ mm' = { mm with parts := mm.parts ++ [part] } := by
  obtain ⟨type, htype, hblock⟩ := bind_eq_ok.mp hblock
  rcases ite_eq_iff.mp hblock with ⟨hkind, hblock⟩ | ⟨hkind, hblock⟩
  · obtain ⟨text, htext, hblock⟩ := bind_eq_ok.mp hblock
    cases text with
    | none => cases hblock
    | some s =>
    cases hblock
    cases h
    exact ⟨_, partSent_text htype htext hkind, rfl⟩
  obtain ⟨-, hblock⟩ := guard_eq_ok.mp hblock
  cases raw with
  | obj members =>
    cases hblock
    obtain ⟨part, hpart, h⟩ := bind_eq_ok.mp h
    cases h
    obtain ⟨-, rfl⟩ := unknownPart_eq hpart
    refine ⟨_, ⟨members, type, rfl, htype, ?_⟩, rfl⟩
    rw [if_neg hkind]
    rfl
  | null | bool _ | num _ | str _ | arr _ => cases hblock

/-- An element of a tool result is written as one part. -/
lemma resultPart_of_part {c : ToolResultContentBlock}
    (hcontent : openAIPartToToolResultContent codec raw = .ok c)
    (h : resultPart codec c = .ok part) : PartSent codec raw part := by
  obtain ⟨type, htype, hcontent⟩ := bind_eq_ok.mp hcontent
  rcases ite_eq_iff.mp hcontent with ⟨rfl, hcontent⟩ | ⟨-, hcontent⟩
  · obtain ⟨text, htext, hcontent⟩ := bind_eq_ok.mp hcontent
    cases text with
    | none => cases hcontent
    | some s =>
    cases hcontent
    cases h
    exact partSent_text htype htext (by decide)
  obtain ⟨-, hcontent⟩ := guard_eq_ok.mp hcontent
  cases raw with
  | obj members =>
    cases hcontent
    obtain ⟨hkind, rfl⟩ := unknownPart_eq h
    have htextKinds : textKinds ⊆ modeledKinds := by decide
    refine ⟨members, type, rfl, htype, ?_⟩
    rw [if_neg fun hmem => hkind (htextKinds hmem)]
    rfl
  | null | bool _ | num _ | str _ | arr _ => cases hcontent

variable {members : Entries}

/-- With no other name, the probe for one of the two finds the member of that name. -/
lemma bound_probe (laws : FoldLaws codec) (hnodup : members.NodupKeys)
    (honly : OnlyNames ["type", "text"] members) {field : String}
    (hfield : field ∈ ["type", "text"]) :
    bound codec [field] members field = (members.dlookup field).toList := by
  rw [← map_filter_eq_lookup hnodup]
  unfold bound
  congr 1
  refine List.filter_congr fun m hm => ?_
  have hname := honly m hm
  simp only [List.mem_cons, List.not_mem_nil, or_false] at hname hfield
  have hne := laws.type_ne_text
  rcases hname with hname | hname <;> rcases hfield with rfl | rfl <;>
    simp [resolves, hname, hne, hne.symm]

lemma textPart_iff (hnodup : members.NodupKeys) (s : String) :
    FlatKept codec (.obj members) (textContentPart s).value ↔ OnlyNames ["type", "text"] members ∧
      (∀ v ∈ members.dlookup "type", v = .str "text") ∧ ∀ v ∈ members.dlookup "text", v = .str s := by
  refine (structKept_iff hnodup (by simp)).trans ?_
  simp [flatFields_cons, fieldsKept_nil, Writes, sameJson_str_right]

/-- Of a part with no other member, the two are what was read. -/
lemma lookup_of_textPart (laws : FoldLaws codec) (hnodup : members.NodupKeys)
    (htype : partType codec (.obj members) = .ok type)
    (htext : partText codec (.obj members) = .ok (some s)) (hkind : type ∈ textKinds)
    (honly : OnlyNames ["type", "text"] members) :
    members.dlookup "type" = some (.str type) ∧ members.dlookup "text" = some (.str s) := by
  have htype : decodeString "" (bound codec ["type"] members "type") = .ok type := htype
  have htext : decodeStringPtr (bound codec ["text"] members "text") = .ok (some s) := htext
  rw [bound_probe laws hnodup honly (by decide)] at htype htext
  constructor
  · rcases decodeString_toList.mp htype with hlookup | ⟨-, rfl⟩
    · exact hlookup
    · exact absurd hkind (by decide)
  · rcases decodeStringPtr_toList htext with ⟨t, ht, hst⟩ | ⟨-, hnone⟩
    · cases hst
      exact ht
    · cases hnone

lemma partPlain_iff (htype : partType codec (.obj members) = .ok type) :
    PartPlain codec (.obj members) ↔
      if type ∈ textKinds then OnlyNames ["type", "text"] members ∧ type = "text"
      else ∀ v ∈ members.dlookup "type", v = .str type := by
  constructor
  · rintro ⟨_, type', ⟨⟩, htype', hplain⟩
    cases htype.symm.trans htype'
    exact hplain
  · intro hplain
    exact ⟨members, type, rfl, htype, hplain⟩

/-- **A content part** keeps its members exactly when it is plain. -/
theorem part_iff (laws : FoldLaws codec)
    (hstrict : strictJson raw = true) (h : PartSent codec raw part) :
    FlatKept codec raw part.value ↔ PartPlain codec raw := by
  obtain ⟨members, type, rfl, htype, hpart⟩ := h
  have hnodup := (strictJson_obj.mp hstrict).1
  rw [partPlain_iff htype]
  by_cases hkind : type ∈ textKinds
  · rw [if_pos hkind] at hpart ⊢
    obtain ⟨s, htext, rfl⟩ := hpart
    rw [textPart_iff hnodup]
    refine and_congr_right fun honly => ?_
    obtain ⟨hlookup, hs⟩ := lookup_of_textPart laws hnodup htype htext hkind honly
    simp [hlookup, hs]
  rw [if_neg hkind] at hpart ⊢
  subst hpart
  rw [flatKept_iff hnodup]
  constructor
  · intro h v hv
    obtain ⟨w, hw, hsame⟩ := h "type" v hv
    cases hw
    exact sameJson_str_right.mp hsame
  · intro h key v hv
    by_cases hkey : key = "type"
    · subst hkey
      exact ⟨_, lookup_insert _, by rw [h v hv]; exact .refl _⟩
    refine ⟨v, ?_, .refl v⟩
    rw [lookup_insert_ne hkey, lookup_erase_ne hkey]
    exact (lookup_to_alist members).trans hv

/-- A part that is written as text is plain when it is no more than its text. -/
lemma partPlain_iff_isTextPart (laws : FoldLaws codec) (hstrict : strictJson raw = true)
    (h : PartSent codec raw part) (hpart : part.text = some s) :
    PartPlain codec raw ↔ IsTextPart s raw := by
  obtain ⟨members, type, rfl, htype, hsent⟩ := h
  have hnodup := (strictJson_obj.mp hstrict).1
  rw [partPlain_iff htype]
  by_cases hkind : type ∈ textKinds
  · rw [if_pos hkind] at hsent ⊢
    obtain ⟨t, htext, rfl⟩ := hsent
    cases hpart
    have hread := lookup_of_textPart laws hnodup htype htext hkind
    constructor
    · rintro ⟨honly, rfl⟩
      exact ⟨members, rfl, (hread honly).1, (hread honly).2, honly⟩
    · rintro ⟨_, ⟨⟩, hlookup, -, honly⟩
      cases hlookup.symm.trans (hread honly).1
      exact ⟨honly, rfl⟩
  rw [if_neg hkind] at hsent
  subst hsent
  cases hpart

/-! ## Functions -/

variable {o : Option Json} {P : Entries → Prop}

lemma decodeStruct_toList {α : Type} {decode : α → Entries → Except String α} {old a : α}
    (h : decodeStruct decode old o.toList = .ok a) :
    ∀ v ∈ o, v = .null ∧ a = old ∨ ∃ members, v = .obj members ∧ decode old members = .ok a := by
  rintro v rfl
  obtain ⟨a', ha', h⟩ := bind_eq_ok.mp h
  cases h
  cases v with
  | null =>
    cases ha'
    exact .inl ⟨rfl, rfl⟩
  | obj members => exact .inr ⟨members, rfl, ha'⟩
  | bool _ | num _ | str _ | arr _ => cases ha'

/-- An object that is read into a struct. -/
lemma decoded_iff {α : Type} {decode : α → Entries → Except String α} {old a : α} {v w : Json}
    {rel : String → Json → Json → Prop} (hread : decodeStruct decode old [v] = .ok a)
    (h : ∀ members, v = .obj members → decode old members = .ok a →
      (ObjectKept rel (.obj members) w ↔ P members)) :
    ObjectKept rel v w ↔ ∃ members, v = .obj members ∧ P members := by
  rcases decodeStruct_toList (o := some v) hread v rfl with ⟨rfl, -⟩ | ⟨members, rfl, hmembers⟩
  · refine iff_of_false ?_ (by simp)
    rintro ⟨_, _, hnull, -⟩
    cases hnull
  · simp [h members rfl hmembers]

/-- A member that is read into a struct and written as one. -/
lemma nestedFunction_iff {α : Type} {decode : α → Entries → Except String α} {old a : α}
    {fields : List (String × Option Json)} (hstrict : ∀ v ∈ o, strictJson v = true)
    (hread : decodeStruct decode old o.toList = .ok a)
    (h : ∀ fn, strictJson (.obj fn) = true → decode old fn = .ok a →
      (FlatKept codec (.obj fn) (structJson fields) ↔ P fn)) :
    (∀ v ∈ o, ∃ w, some (structJson fields) = some w ∧ functionRel codec "function" v w) ↔
      ∀ v ∈ o, ∃ fn, v = .obj fn ∧ P fn := by
  refine forall₂_congr fun v hv => ?_
  have hv' := hstrict v hv
  rw [Option.mem_def.mp hv] at hread
  have hflat : FlatKept codec v (structJson fields) ↔ ∃ fn, v = .obj fn ∧ P fn :=
    decoded_iff hread fun fn heq hfn => h fn (heq ▸ hv') hfn
  simp only [Option.some.injEq, exists_eq_left', functionRel, true_and]
  rw [← hflat, or_iff_right_iff_imp]
  intro hsame
  obtain ⟨fn, rfl⟩ : ∃ fn, v = .obj fn := by
    cases (show SameJson codec v (.obj _) from hsame) <;> exact ⟨_, rfl⟩
  exact flatKept_of_sameJson (strictJson_obj.mp hv').1 hsame

lemma flatField_iff {o value : Option Json} {name : String} (hne : name ≠ "function") :
    (∀ v ∈ o, ∃ w, value = some w ∧ functionRel codec name v w) ↔ Writes codec o value := by
  simp [functionRel, hne, Writes]

lemma writes_str_iff : Writes codec o (some (.str s)) ↔ ∀ v ∈ o, v = .str s := by
  simp [Writes, sameJson_str_right]

/-! ## Tool calls -/

/-- A raw call and what is written for it. -/
def CallSent (codec : WireCodec) (call w : Json) : Prop :=
  ∃ tc args, decodeStruct (decodeToolCall codec) {} [call] = .ok tc ∧
    parseArguments codec tc.function.arguments = .ok args ∧
    w = marshalTC { id := tc.id, name := tc.function.name, arguments := args }

variable {args : RequiredJSONObject} {fn : Entries} {t : ToolDef}

lemma text_parseArguments {raw : String} (h : parseArguments codec raw = .ok args) :
    args.text = if raw = "" then "\x7b\x7d" else raw := by
  rcases ite_eq_iff.mp h with ⟨hraw, h⟩ | ⟨hraw, h⟩
  · cases h
    rw [if_pos hraw]
  rw [if_neg hraw]
  split at h
  · cases h
  · cases h
    rfl
  · cases h

/-- The arguments are written as they came, unless they are empty. -/
lemma writes_arguments_iff {raw : String}
    (hread : decodeString "" o.toList = .ok raw) (h : parseArguments codec raw = .ok args) :
    Writes codec o (some (.str args.text)) ↔ ∀ v ∈ o, ¬ Omitted v := by
  rw [writes_str_iff, text_parseArguments h]
  rcases decodeString_toList.mp hread with rfl | ⟨rfl | rfl, rfl⟩
  · by_cases hraw : raw = ""
    · subst hraw
      simp [Omitted]
    · simp [Omitted, hraw]
  · simp
  · simp [Omitted]

lemma callFunction_iff {tf : ChatToolFunc} (hstrict : strictJson (.obj fn) = true)
    (hread : decodeToolFunc codec {} fn = .ok tf)
    (hargs : parseArguments codec tf.arguments = .ok args) :
    FlatKept codec (.obj fn) (structJson [("name", some (.str tf.name)),
        ("arguments", some (.str args.text))]) ↔ CallFunctionPlain fn := by
  obtain ⟨name, hname, arguments, harguments, hread⟩ := bind₂_eq_ok.mp hread
  cases hread
  refine structKept_congr hstrict rfl (by decide) fun _ hbound => ?_
  rw [hbound] at hname harguments
  simp only [flatFields_cons, and_iff_left fieldsKept_nil]
  rw [writes_string_iff codec hname, writes_arguments_iff harguments hargs]

/-- **A tool call** keeps its members exactly when it is plain. -/
theorem call_iff {call w : Json} (hstrict : strictJson call = true) (h : CallSent codec call w) :
    FunctionKept codec call w ↔ CallPlain call := by
  obtain ⟨tc, args, hread, hargs, rfl⟩ := h
  refine decoded_iff hread ?_
  rintro members rfl hmembers
  obtain ⟨id, hid, type, -, tf, htf, hmembers⟩ := bind₃_eq_ok.mp hmembers
  cases hmembers
  refine structKept_congr hstrict rfl (by decide) fun _ hbound => ?_
  rw [hbound] at hid htf
  rw [fieldsKept_cons, fieldsKept_cons, fieldsKept_cons, and_iff_left fieldsKept_nil,
    flatField_iff (by decide), flatField_iff (by decide), writes_string_iff codec hid,
    writes_str_iff]
  refine and_congr_right fun _ => and_congr_right fun _ => ?_
  exact nestedFunction_iff (strict_of_mem_lookup hstrict) htf fun fn hfn hread =>
    callFunction_iff hfn hread hargs

/-! ## Tool definitions -/

/-- A raw tool and the definition it became. -/
def ToolRead (codec : WireCodec) (tool : Json) (t : ToolDef) : Prop :=
  ∃ td, decodeStruct (decodeToolDef codec) {} [tool] = .ok td ∧ unmarshalTool codec td = .ok t

lemma toolFunction_iff {td : ChatToolDef} (hstrict : strictJson (.obj fn) = true)
    (hread : decodeToolFuncDef codec {} fn = .ok td.function) (h : unmarshalTool codec td = .ok t) :
    FlatKept codec (.obj fn) (structJson [("name", some (.str t.name)),
        ("description", nonEmptyString t.description), ("parameters", some t.parameters.members.json),
        ("strict", trueOnly t.strict)]) ↔ ToolFunctionPlain fn := by
  obtain ⟨params, hparams, h⟩ := bind_eq_ok.mp h
  have hparams := context_eq_ok.mp hparams
  cases h
  obtain ⟨name, hname, description, hdescription, strict, hbool, hread⟩ := bind₃_eq_ok.mp hread
  rw [← Except.ok.inj hread] at hparams ⊢
  refine structKept_congr hstrict rfl (by decide) fun _ hbound => ?_
  simp only [hbound, rawMessage_toList, Option.or_none] at hname hdescription hbool hparams
  simp only [flatFields_cons, and_iff_left fieldsKept_nil]
  rw [writes_string_iff codec hname, writes_nonEmpty_iff codec hdescription,
    writes_trueOnly_iff codec hbool,
    and_iff_right (writes_required codec (strict_of_mem_lookup hstrict) hparams)]

/-- **A tool definition** keeps its members exactly when it is plain. -/
theorem tool_iff {tool : Json} (hstrict : strictJson tool = true) (h : ToolRead codec tool t) :
    FunctionKept codec tool (marshalTool t) ↔ ToolPlain tool := by
  obtain ⟨td, hread, hunmarshal⟩ := h
  refine decoded_iff hread ?_
  rintro members rfl hmembers
  obtain ⟨type, -, tf, htf, hmembers⟩ := bind₂_eq_ok.mp hmembers
  cases hmembers
  refine structKept_congr hstrict rfl (by decide) fun _ hbound => ?_
  rw [hbound] at htf
  rw [fieldsKept_cons, fieldsKept_cons, and_iff_left fieldsKept_nil, flatField_iff (by decide),
    writes_str_iff]
  refine and_congr_right fun _ => ?_
  exact nestedFunction_iff (strict_of_mem_lookup hstrict) htf fun fn hfn hread =>
    toolFunction_iff hfn hread hunmarshal

end ToranaEdge.Format.OpenAI
