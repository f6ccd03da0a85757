import ToranaEdge.Format.GeminiFidelity.Parts

/-! # Parts, blocks and the parts written for them -/

namespace ToranaEdge.Format.Gemini

open Engine Attempt List Option Members
open Anthropic (SameJson FlatKept OnlyNames sameJson_str_right membersKept_iff onlyNames_iff
  objectKept_iff objectKept_of_sameJson strict_of_mem_lookup strict_of_mem_bound)

/-! ## What is written for a block -/

variable {codec : GeminiCodec} {i : Nat} {p : WirePart × Nat} {metadata : OptionalJSONObject}
variable {b : Block}

/-- The part written for a block of the model, wherever it is written. -/
def assistantPart (codec : Codec) (codeAssist : Bool) (b : Block) : Except String Json :=
  match b.text, b.thinking, b.unknown, b.toolUse, b.toolResult, b.trailingSignature with
  | some t, _, _, _, _, _ =>
    .ok (GeminiPart.json { text := some t.text, thoughtSignature := t.signature
                           partMetadata := t.partMetadataJson })
  | none, some t, _, _, _, _ =>
    .ok (GeminiPart.json { thought := true, text := some t.text, thoughtSignature := t.signature
                           partMetadata := t.partMetadataJson })
  | none, none, some u, _, _, _ => unknownPart codec u
  | none, none, none, some t, _, _ => .ok (toolUsePart t)
  | none, none, none, none, some r, _ => toolResultPart codec codeAssist r
  | none, none, none, none, none, some t =>
    .ok (GeminiPart.json { text := some "", thoughtSignature := t.signature
                           partMetadata := t.partMetadataJson })
  | none, none, none, none, none, none =>
    .error "gemini: block kind not representable in an assistant content"

variable {part : Entries} {arm signature : String} {w : Json} {codeAssist : Bool}

lemma partKept_struct_iff {codec : WireCodec} (hnodup : part.NodupKeys) (g : GeminiPart) :
    PartKept codec (.obj part) g.json ↔ OnlyNames partNames part ∧
      Writes codec (part.dlookup "text") (g.text.map Json.str) ∧
      Writes codec (part.dlookup "thought") (trueOnly g.thought) ∧
      Writes codec (part.dlookup "thoughtSignature") (nonEmptyString g.thoughtSignature) ∧
      (∀ v ∈ part.dlookup "functionCall", ∃ w, g.functionCall = some w ∧
        (SameJson codec v w ∨ FlatKept codec v w)) ∧
      (∀ v ∈ part.dlookup "functionResponse", ∃ w, g.functionResponse = some w ∧
        (SameJson codec v w ∨ FlatKept codec v w)) ∧
      Writes codec (part.dlookup "partMetadata") (g.partMetadata.map json) := by
  refine (structKept_iff hnodup (by simp)).trans ?_
  show OnlyNames partNames part ∧ _ ↔ _
  simp [fieldsKept_cons, fieldsKept_nil, partRel, Writes]

/-- The signature and the metadata of a part, as they are written back. -/
lemma factsPlain_iff {codec : WireCodec} {p : WirePart} (hstrict : strictJson (.obj part) = true)
    (hread : PartRead codec part p) (hmetadata : partMetadata p.partMetadata = .ok metadata) :
    FactsPlain codec part ↔
      Writes codec (part.dlookup "thoughtSignature") (nonEmptyString p.thoughtSignature) ∧
        Writes codec (part.dlookup "partMetadata") (metadata.map json) := by
  have hraw : metadata.map json = rawMessage (bound codec partNames part "partMetadata") := by
    have hparse := context_eq_ok.mp hmetadata
    rw [hread.partMetadata] at hparse
    cases hvalue : rawMessage (bound codec partNames part "partMetadata") with
    | none =>
      rw [hvalue] at hparse
      cases hparse
      rfl
    | some v =>
    rw [hvalue] at hparse
    have hv := strict_of_mem_bound hstrict v hvalue
    cases v with
    | obj members =>
      cases hparse
      show some (Json.obj members.toAList.entries) = _
      rw [toAList_entries (strictJson_obj.mp hv).1]
    | null | bool _ | num _ | str _ | arr _ => cases hparse
  rw [hraw]
  unfold FactsPlain
  rw [hread.thoughtSignature]
  refine and_congr ?_ (by simp [Writes])
  constructor
  · intro h v hv
    obtain ⟨s, rfl, hne, hs⟩ := h v hv
    cases hs
    exact ⟨.str p.thoughtSignature, if_neg hne, .refl _⟩
  · intro h v hv
    obtain ⟨w, hw, hsame⟩ := h v hv
    obtain ⟨hne, hw⟩ := ite_none_left_eq_some.mp hw
    cases hw
    exact ⟨_, sameJson_str_right.mp hsame, hne, rfl⟩

/-- The members an unknown part has of those that blocks own. -/
def blockMembers : List String := ["text", "thought", "functionCall", "functionResponse"]

/-- The members with an optional one put back. -/
def putBack (m : Members) (key : String) (o : Option Json) : Members := o.elim m (m.insert key)

lemma lookup_putBack (m : Members) (key : String) (o : Option Json) (key' : String) :
    (putBack m key o).lookup key' =
      if key' = key then o.or (m.lookup key') else m.lookup key' := by
  cases o with
  | none => simp [putBack]
  | some v =>
  by_cases hkey : key' = key
  · subst hkey
    simp [putBack]
  · simp [putBack, hkey]

lemma unknownPart_lookup (laws : TextLaws codec) {payload : RequiredJSONObject}
    (h : unknownPart codec
      { kind := "part", payload, partMetadataJson := metadata, signature } =
        .ok w) : ∃ out : Members, w = out.json ∧ ∀ key, out.lookup key =
      if key = "partMetadata" then (metadata.map json).or (payload.members.lookup key)
      else if key = "thoughtSignature" then
        (nonEmptyString signature).or (payload.members.lookup key)
      else payload.members.lookup key := by
  have heq : w = json (putBack (putBack payload.members "thoughtSignature"
      (nonEmptyString signature)) "partMetadata" (metadata.map json)) := by
    obtain ⟨⟨⟩, -, h⟩ := bind_eq_ok.mp h
    dsimp only at h
    rcases ite_eq_iff.mp h with ⟨-, h⟩ | ⟨hnone, h⟩
    · rcases ite_eq_iff.mp h with ⟨hempty, h⟩ | ⟨hne, h⟩
      · cases metadata <;> cases h <;> simp [putBack, nonEmptyString, hempty]
      split at h
      · cases h
      next value hparse =>
      cases laws.quoted signature value hparse
      cases metadata <;> cases h <;> simp [putBack, nonEmptyString, hne]
    · cases h
      push Not at hnone
      have hmetadata : metadata = none := by simpa using hnone.2
      simp [putBack, hmetadata, nonEmptyString, hnone.1]
  refine ⟨_, heq, fun key => ?_⟩
  rw [lookup_putBack, lookup_putBack]
  by_cases hkey : key = "partMetadata" <;> simp [hkey]

/-- An unknown part keeps its members exactly when its facts are plain and it has no
member that a block owns. -/
lemma unknownPart_iff (laws : TextLaws codec) (hstrict : strictJson (.obj part) = true)
    (hread : PartRead codec part p.1)
    (hmetadata : partMetadata p.1.partMetadata = .ok metadata) (h : unknownPart codec
      { kind := "part", payload := stripGeminiPartFacts codec p.1.raw
        partMetadataJson := metadata, signature := p.1.thoughtSignature } = .ok w) :
    PartKept codec (.obj part) w ↔ FactsPlain codec part ∧
      ∀ key ∈ blockMembers, key ∉ part.keys := by
  have hnodup := (strictJson_obj.mp hstrict).1
  obtain ⟨out, rfl, hout⟩ := unknownPart_lookup laws h
  -- the payload is the part without the members that blocks own
  have hlookup : ∀ key, out.lookup key = if key = "partMetadata" then metadata.map json
      else if key = "thoughtSignature" then nonEmptyString p.1.thoughtSignature
      else if key ∈ blockMembers then none else part.dlookup key := by
    intro key
    have hpayload : (stripGeminiPartFacts codec p.1.raw).members.lookup key =
        if key ∈ geminiCanonicalPartMembers then none else part.dlookup key := by
      show (withoutMembers geminiCanonicalPartMembers p.1.raw.toAList).lookup key = _
      rw [lookup_withoutMembers, hread.raw, lookup_toAList]
    rw [hout, hpayload]
    by_cases hkey₁ : key = "partMetadata"
    · simp [hkey₁, geminiCanonicalPartMembers]
    by_cases hkey₂ : key = "thoughtSignature"
    · simp [hkey₂, geminiCanonicalPartMembers]
    · simp [hkey₁, hkey₂, geminiCanonicalPartMembers, blockMembers]
  rw [factsPlain_iff hstrict hread hmetadata]
  refine (objectKept_iff.trans (membersKept_iff hnodup)).trans ?_
  show (∀ key, ∀ v ∈ part.dlookup key, ∃ w, out.lookup key = some w ∧ _) ↔ _
  constructor
  · intro hkept
    refine ⟨⟨?_, ?_⟩, fun key hkey hmem => ?_⟩
    · simpa [hlookup, partRel, Writes] using hkept "thoughtSignature"
    · simpa [hlookup, partRel, Writes] using hkept "partMetadata"
    · obtain ⟨v, hv⟩ := isSome_iff_exists.mp (dlookup_isSome.mpr hmem)
      obtain ⟨w, hw, -⟩ := hkept key v hv
      have hne₁ : key ≠ "partMetadata" := fun h => absurd (h ▸ hkey) (by decide)
      have hne₂ : key ≠ "thoughtSignature" := fun h => absurd (h ▸ hkey) (by decide)
      rw [hlookup, if_neg hne₁, if_neg hne₂, if_pos hkey] at hw
      cases hw
  · rintro ⟨⟨hsig, hmeta⟩, hnot⟩ key v hv
    rw [hlookup]
    split
    · next hkey =>
      obtain ⟨w, hw, hsame⟩ := hmeta v (hkey ▸ hv)
      exact ⟨w, hw, .inl hsame⟩
    split
    · next hkey =>
      obtain ⟨w, hw, hsame⟩ := hsig v (hkey ▸ hv)
      exact ⟨w, hw, .inl hsame⟩
    split
    · next hkey =>
      exact absurd (dlookup_isSome.mp (by rw [mem_def.mp hv]; rfl)) (hnot key hkey)
    · exact ⟨v, hv, .inl (.refl v)⟩

/-! ## Which parts are kept -/

section arms

variable {q : WirePart}

lemma dlookup_eq_none {key : String} (h : key ∉ part.keys) : part.dlookup key = none :=
  List.dlookup_eq_none.mpr h

lemma Grammar.bound_eq {codec : WireCodec} (h : Grammar codec part arm)
    (hnodup : part.NodupKeys) (harm : arm ∈ modelledArms) (field : String) :
    bound codec partNames part field = (part.dlookup field).toList :=
  bound_eq_lookup (h.onlyNames harm) hnodup field

/-- An arm the adapter does not model is plain when it is read as none it does. -/
lemma Grammar.armPlain_iff {codec : WireCodec} (h : Grammar codec part arm)
    (harm : arm ∉ modelledArms) (hread : PartRead codec part q) :
    ArmPlain codec part ↔ q.text = none ∧ q.functionCall = none ∧ q.functionResponse = none := by
  have hnot : ∀ key ∈ modelledArms, key ∉ part.keys := fun key hkey =>
    h.not_mem hkey fun heq => harm (heq ▸ hkey)
  rw [hread.unmodelled_iff, ArmPlain, if_neg (hnot _ (by decide)), if_neg (hnot _ (by decide)),
    if_neg (hnot _ (by decide))]
  rfl

/-- A struct has no field for an arm the adapter does not model. -/
lemma Grammar.not_partKept {codec : WireCodec} (h : Grammar codec part arm)
    (hnodup : part.NodupKeys) (harm : arm ∉ modelledArms) (g : GeminiPart) :
    ¬ PartKept codec (.obj part) g.json := by
  intro hkept
  have honly := ((partKept_struct_iff hnodup g).mp hkept).1
  obtain ⟨v, hv⟩ := isSome_iff_exists.mp (dlookup_isSome.mpr h.mem)
  exact h.not_mem_partNames harm ((onlyNames_iff hnodup).mp honly arm v hv)

lemma armPlain_text_iff {codec : WireCodec} (h : Grammar codec part "text") : ArmPlain codec part ↔
      part.dlookup "text" ≠ some .null ∧ ∀ v ∈ part.dlookup "thought", v = .bool true := by
  rw [ArmPlain, if_neg (h.not_mem (by decide) (by decide)),
    if_neg (h.not_mem (by decide) (by decide)), if_pos h.mem]

lemma armPlain_call_iff {codec : WireCodec} (h : Grammar codec part "functionCall") :
    ArmPlain codec part ↔
      ∃ call, part.dlookup "functionCall" = some (.obj call) ∧ CallPlain call := by
  rw [ArmPlain, if_pos h.mem]

lemma armPlain_response_iff {codec : WireCodec} (h : Grammar codec part "functionResponse") :
    ArmPlain codec part ↔ ∃ response, part.dlookup "functionResponse" = some (.obj response) ∧
      ResponsePlain response := by
  rw [ArmPlain, if_neg (h.not_mem (by decide) (by decide)), if_pos h.mem]

end arms

variable {o : Option Json}

/-- A pointer that is not nil was read from an object. -/
lemma decodePtr_toList {α : Type} {decode : Entries → Except String α} {a : α}
    (h : decodePtr decode o.toList = .ok (some a)) :
    ∃ members, o = some (.obj members) ∧ decode members = .ok a := by
  cases o with
  | none => cases h
  | some v =>
  obtain ⟨read, hread, h⟩ := bind_eq_ok.mp h
  cases h
  cases v with
  | obj members =>
    obtain ⟨a', ha, heq⟩ := map_eq_ok.mp hread
    cases heq
    exact ⟨members, rfl, ha⟩
  | null | bool _ | num _ | str _ | arr _ => cases hread

/-- A call or a response is a level of its own. -/
lemma nestedKept_iff (codec : WireCodec) {members : Entries} (w : Json)
    (ho : o = some (.obj members)) (hnodup : members.NodupKeys) :
    (∀ v ∈ o, ∃ w', some w = some w' ∧ (SameJson codec v w' ∨ FlatKept codec v w')) ↔
      FlatKept codec (.obj members) w := by
  subst ho
  constructor
  · intro h
    obtain ⟨w', hw, hsame | hflat⟩ := h _ rfl
    · cases hw
      exact objectKept_of_sameJson (fun _ _ _ h => h) hnodup hsame
    · cases hw
      exact hflat
  · rintro hflat v ⟨⟩
    exact ⟨w, rfl, .inr hflat⟩

lemma writes_nil_iff (codec : WireCodec) : Writes codec o none ↔ o = none := by
  cases o with
  | none => exact iff_of_true (writes_none _) rfl
  | some v => simp [Writes]

/-- A part read from a body and the block it was projected to. -/
structure Projected (codec : GeminiCodec) (i : Nat) (part : Entries) (arm : String)
    (p : WirePart × Nat) (metadata : OptionalJSONObject) (b : Block) : Prop where
  strict : strictJson (.obj part) = true
  grammar : Grammar codec.toWireCodec part arm
  read : PartRead codec.toWireCodec part p.1
  facts : partMetadata p.1.partMetadata = .ok metadata
  projects : Projects codec i p metadata b

namespace Projected

section arms

variable (h : Projected codec i part arm p metadata b) {id text : String} {tr : ToolResultBlock}

include h

lemma nodup : part.NodupKeys := (strictJson_obj.mp h.strict).1

/-- A modelled arm other than that of the part is not a member of it. -/
lemma absent (key : String) (hkey : key ∈ modelledArms) (hne : key ≠ arm) :
    part.dlookup key = none := dlookup_eq_none (h.grammar.not_mem hkey hne)

lemma thought_absent (harm : arm ≠ "text") : part.dlookup "thought" = none :=
  dlookup_eq_none fun hmem => harm (h.grammar.thought hmem)

/-- A call keeps its members exactly when it is plain. -/
lemma call_iff {args : RequiredJSONObject} (harm : arm = "functionCall")
    (hcall : p.1.functionCall = some fc) (hid : fc.id ≠ "" → id = fc.id)
    (hargs : parseRequiredOrEmpty codec fc.args = .ok args) :
    PartKept codec (.obj part) (toolUsePart
        { id, name := fc.name, arguments := args, signature := p.1.thoughtSignature
          partMetadataJson := metadata }) ↔ PartPlain codec part := by
  subst harm
  have hread := h.read.functionCall
  rw [h.grammar.bound_eq h.nodup (by decide), hcall] at hread
  obtain ⟨call, hmember, hdecode⟩ := decodePtr_toList hread
  have hstrict := strict_of_mem_lookup h.strict _ hmember
  have hplain : (∃ call, part.dlookup "functionCall" = some (.obj call) ∧ CallPlain call) ↔
      CallPlain call := by simp [hmember]
  have hkept := nestedKept_iff codec (structJson (callFields fc.name id args)) hmember
    (strictJson_obj.mp hstrict).1
  unfold callFields at hkept
  rw [toolUsePart, partKept_struct_iff h.nodup, PartPlain, armPlain_call_iff h.grammar, hplain,
    factsPlain_iff h.strict h.read h.facts, and_iff_right (h.grammar.onlyNames (by decide)),
    h.absent "text" (by decide) (by decide), h.thought_absent (by decide),
    h.absent "functionResponse" (by decide) (by decide), ← Gemini.call_iff hstrict hdecode hargs hid]
  tauto

/-- A response keeps its members exactly when it is plain. -/
lemma response_iff (laws : TextLaws codec) (harm : arm = "functionResponse")
    (hresponse : p.1.functionResponse = some fr) (hid : fr.id ≠ "" → id = fr.id)
    (hblock : geminiToolResultBlock codec i p.2 fr id = .ok tr)
    (hsent : toolResultPart codec codeAssist
      { tr with signature := p.1.thoughtSignature, partMetadataJson := metadata } = .ok w) :
    PartKept codec (.obj part) w ↔ PartPlain codec part := by
  subst harm
  obtain ⟨wire, hwire, hsent⟩ := bind_eq_ok.mp hsent
  cases hsent
  have hread := h.read.functionResponse
  rw [h.grammar.bound_eq h.nodup (by decide), hresponse] at hread
  obtain ⟨response, hmember, hdecode⟩ := decodePtr_toList hread
  have hstrict := strict_of_mem_lookup h.strict _ hmember
  have hnodup := (strictJson_obj.mp hstrict).1
  obtain ⟨place, hvalidate⟩ := h.grammar.response rfl _ hmember
  have hvalid := responseValid_of_validate hnodup hvalidate
  have hplain : (∃ response, part.dlookup "functionResponse" = some (.obj response) ∧
      ResponsePlain response) ↔ ResponsePlain response := by simp [hmember]
  rw [partKept_struct_iff h.nodup, PartPlain, armPlain_response_iff h.grammar, hplain,
    factsPlain_iff h.strict h.read h.facts, and_iff_right (h.grammar.onlyNames (by decide)),
    h.absent "text" (by decide) (by decide), h.thought_absent (by decide),
    h.absent "functionCall" (by decide) (by decide), nestedKept_iff _ _ hmember hnodup,
    ← Gemini.response_iff laws hstrict hvalid hdecode hid hblock hwire]
  tauto

/-- The members of a text part, as a struct writes them. -/
lemma text_struct_iff (harm : arm = "text") (htext : p.1.text = some text) (thought : Bool)
    (signature : String) : PartKept codec (.obj part) (GeminiPart.json
        { text := some text, thought, thoughtSignature := signature, partMetadata := metadata }) ↔
      Writes codec (part.dlookup "thought") (trueOnly thought) ∧
        Writes codec (part.dlookup "thoughtSignature") (nonEmptyString signature) ∧
        Writes codec (part.dlookup "partMetadata") (metadata.map json) := by
  subst harm
  have hread := h.read.text
  rw [h.grammar.bound_eq h.nodup (by decide), htext] at hread
  have hwrites : Writes codec (part.dlookup "text") (some (.str text)) := by
    rcases decodeStringPtr_toList hread with ⟨t, hmember, ht⟩ | ⟨-, hnone⟩
    · cases ht
      exact writes_of_eq _ hmember.symm
    · cases hnone
  rw [partKept_struct_iff h.nodup, and_iff_right (h.grammar.onlyNames (by decide)),
    h.absent "functionCall" (by decide) (by decide),
    h.absent "functionResponse" (by decide) (by decide), map_some, and_iff_right hwrites]
  simp

/-- A text part is plain when its facts are and its thought member is true. -/
lemma text_plain_iff (harm : arm = "text") (htext : p.1.text = some text) :
    PartPlain codec part ↔ FactsPlain codec part ∧
      Writes codec (part.dlookup "thought") (trueOnly p.1.thought) := by
  subst harm
  have hbound := h.grammar.bound_eq h.nodup (by decide)
  have hread := h.read.text
  rw [hbound, htext] at hread
  have hnotNull : part.dlookup "text" ≠ some .null := by
    intro hnull
    rw [hnull] at hread
    cases hread
  have hthought := h.read.thought
  rw [hbound] at hthought
  rw [PartPlain, armPlain_text_iff h.grammar, and_iff_right hnotNull, writes_trueOnly_iff _ hthought]

/-- A part that is read as no modelled arm keeps its members exactly when it is
plain: a modelled arm of its own name is null, and is lost. -/
lemma unknown_iff (laws : TextLaws codec) (htext : p.1.text = none)
    (hcall : p.1.functionCall = none) (hresponse : p.1.functionResponse = none)
    (hsent : unknownPart codec
      { kind := "part", payload := stripGeminiPartFacts codec p.1.raw
        partMetadataJson := metadata, signature := p.1.thoughtSignature } = .ok w) :
    PartKept codec (.obj part) w ↔ PartPlain codec part := by
  rw [unknownPart_iff laws h.strict h.read h.facts hsent]
  refine and_congr_right fun _ => ?_
  by_cases harm : arm ∈ modelledArms
  · have hbound := h.grammar.bound_eq h.nodup harm
    refine iff_of_false (fun hnot => hnot arm ?_ h.grammar.mem) ?_
    · simp only [modelledArms, blockMembers, mem_cons] at harm ⊢
      tauto
    · have hall := (h.read.unmodelled_iff.mp ⟨htext, hcall, hresponse⟩) arm harm
      rw [hbound, rawMessage_toList] at hall
      have hgrammar := h.grammar
      simp only [modelledArms, mem_cons, not_mem_nil, or_false] at harm
      rcases harm with rfl | rfl | rfl
      · rw [armPlain_text_iff hgrammar]
        rintro ⟨hne, -⟩
        obtain ⟨v, hv⟩ := isSome_iff_exists.mp (dlookup_isSome.mpr hgrammar.mem)
        exact hne (by rw [hv, hall v hv])
      · rw [armPlain_call_iff hgrammar]
        rintro ⟨call, hmember, -⟩
        cases hall _ hmember
      · rw [armPlain_response_iff hgrammar]
        rintro ⟨response, hmember, -⟩
        cases hall _ hmember
  · rw [h.grammar.armPlain_iff harm h.read]
    refine iff_of_true (fun key hkey hmem => ?_) ⟨htext, hcall, hresponse⟩
    by_cases hthought : key = "thought"
    · subst hthought
      exact harm (by rw [h.grammar.thought hmem]; decide)
    refine h.grammar.not_mem ?_ (fun heq => harm ?_) hmem
    · simp only [modelledArms, blockMembers, mem_cons] at hkey ⊢
      tauto
    · rw [← heq]
      simp only [modelledArms, blockMembers, mem_cons] at hkey ⊢
      tauto

/-- An arm that is read as a modelled one under a name in another case is lost. -/
lemma misspelled_iff (harm : arm ∉ modelledArms)
    (hread : ¬ (p.1.text = none ∧ p.1.functionCall = none ∧ p.1.functionResponse = none))
    (g : GeminiPart) : PartKept codec (.obj part) g.json ↔ PartPlain codec part := by
  refine iff_of_false (h.grammar.not_partKept h.nodup harm g) ?_
  rintro ⟨-, hplain⟩
  exact hread ((h.grammar.armPlain_iff harm h.read).mp hplain)

/-- A modelled arm of the part is the only one that is read. -/
lemma modelled (harm : arm ∈ modelledArms) {field : String} (hfield : field ∈ modelledArms)
    (hread : bound codec partNames part field ≠ []) : arm = field := by
  by_contra hne
  rw [h.grammar.bound_eq h.nodup harm, h.absent field hfield (Ne.symm hne)] at hread
  exact hread rfl

lemma modelled_text (htext : p.1.text = some text) (harm : arm ∈ modelledArms) : arm = "text" := by
  refine h.modelled harm (by decide) fun hnil => ?_
  have hread := h.read.text
  rw [hnil, htext] at hread
  cases hread

lemma modelled_call (hcall : p.1.functionCall = some fc)
    (harm : arm ∈ modelledArms) : arm = "functionCall" := by
  refine h.modelled harm (by decide) fun hnil => ?_
  have hread := h.read.functionCall
  rw [hnil, hcall] at hread
  cases hread

lemma modelled_response (hresponse : p.1.functionResponse = some fr)
    (harm : arm ∈ modelledArms) : arm = "functionResponse" := by
  refine h.modelled harm (by decide) fun hnil => ?_
  have hread := h.read.functionResponse
  rw [hnil, hresponse] at hread
  cases hread

/-- A plain part has a call or a response exactly when one is read. -/
lemma mem_keys_iff {α : Type} {decode : Entries → Except String α} {x : Option α} {key : String}
    (hplain : ArmPlain codec part) (hkey : key = "functionCall" ∨ key = "functionResponse")
    (hread : decodePtr decode (bound codec partNames part key) = .ok x) :
    key ∈ part.keys ↔ x ≠ none := by
  have hmodelled : key ∈ modelledArms := by rcases hkey with rfl | rfl <;> decide
  rw [Ne, decodePtr_eq_none_iff hread]
  constructor
  · intro hmem hnull
    obtain rfl := h.grammar.eq_of_mem hmodelled hmem
    rw [h.grammar.bound_eq h.nodup hmodelled, rawMessage_toList] at hnull
    rcases hkey with rfl | rfl
    · obtain ⟨call, hlookup, -⟩ := (armPlain_call_iff h.grammar).mp hplain
      exact nomatch hnull _ hlookup
    · obtain ⟨response, hlookup, -⟩ := (armPlain_response_iff h.grammar).mp hplain
      exact nomatch hnull _ hlookup
  · intro hsome
    by_contra hmem
    apply hsome
    by_cases harm : arm ∈ modelledArms
    · rw [h.grammar.bound_eq h.nodup harm, dlookup_eq_none hmem]
      exact fun _ => nofun
    · exact h.read.unmodelled_iff.mp ((h.grammar.armPlain_iff harm h.read).mp hplain) key hmodelled

/-- A response, written for the user or for the model. -/
lemma toolResult_iff (laws : TextLaws codec) (hresponse : p.1.functionResponse = some fr)
    (hid : fr.id ≠ "" → id = fr.id) (hblock : geminiToolResultBlock codec i p.2 fr id = .ok tr)
    (hsent : toolResultPart codec codeAssist
      { tr with signature := p.1.thoughtSignature, partMetadataJson := metadata } = .ok w) :
    PartKept codec (.obj part) w ↔ PartPlain codec part := by
  by_cases harm : arm ∈ modelledArms
  · exact h.response_iff laws (h.modelled_response hresponse harm) hresponse hid hblock hsent
  obtain ⟨wire, -, hsent⟩ := bind_eq_ok.mp hsent
  cases hsent
  exact h.misspelled_iff harm (by simp [hresponse]) _

/-- **A part of the model** keeps its members exactly when it is plain. -/
theorem assistantPart_iff (laws : TextLaws codec)
    (hsent : assistantPart codec codeAssist b = .ok w) :
    PartKept codec (.obj part) w ↔ PartPlain codec part := by
  have hprojects := h.projects
  unfold Projects at hprojects
  split at hprojects
  · next fr hresponse =>
    obtain ⟨id, tr, hid, hblock, rfl⟩ := hprojects
    exact h.toolResult_iff laws hresponse hid hblock hsent
  · next fc hresponse hcall =>
    obtain ⟨id, args, hid, hargs, rfl⟩ := hprojects
    cases hsent
    by_cases harm : arm ∈ modelledArms
    · exact h.call_iff (h.modelled_call hcall harm) hcall hid hargs
    · exact h.misspelled_iff harm (by simp [hcall]) _
  rotate_left
  · next hresponse hcall htext =>
    subst hprojects
    exact h.unknown_iff laws htext hcall hresponse hsent
  next text hresponse hcall htext =>
  -- the three blocks of a text part are written alike
  obtain rfl : w = GeminiPart.json { text := some text, thought := p.1.thought
                                     thoughtSignature := p.1.thoughtSignature
                                     partMetadata := metadata } := by
    subst hprojects
    by_cases hthought : p.1.thought = true
    · rw [if_pos hthought] at hsent
      cases hsent
      rw [hthought]
    rw [if_neg hthought] at hsent
    rw [Bool.not_eq_true] at hthought
    by_cases htrailing : p.1.isTrailing = true
    · rw [if_pos htrailing] at hsent
      cases hsent
      have hempty : text = "" := by
        simp only [WirePart.isTrailing, htext, Bool.and_eq_true, beq_iff_eq,
          some.injEq] at htrailing
        exact htrailing.2
      rw [hthought, hempty]
    rw [if_neg htrailing] at hsent
    cases hsent
    rw [hthought]
  by_cases harm : arm ∈ modelledArms
  · have hname := h.modelled_text htext harm
    rw [h.text_struct_iff hname htext, h.text_plain_iff hname htext,
      factsPlain_iff h.strict h.read h.facts]
    tauto
  · exact h.misspelled_iff harm (by simp [htext]) _

/-- What is not read as text may have a signature. -/
lemma userPartPlain_iff (hread : arm = "text" → p.1.text = none) :
    UserPartPlain codec part ↔ PartPlain codec part := by
  refine and_iff_left_of_imp fun hplain hmem => ?_
  obtain rfl := h.grammar.eq_of_mem (by decide) hmem
  -- a plain part with a text member is read as text
  have htext := h.read.text
  rw [h.grammar.bound_eq h.nodup (by decide), hread rfl] at htext
  rcases decodeStringPtr_toList htext with ⟨t, -, ht⟩ | ⟨hnone | hnull, -⟩
  · cases ht
  · exact absurd hmem (List.dlookup_eq_none.mp hnone)
  · exact absurd hnull ((armPlain_text_iff h.grammar).mp hplain.2).1

/-- **A part of the user** keeps its members exactly when it is plain and, if it is
text, has no signature. -/
theorem userPart_iff (laws : TextLaws codec) (hsent : userPart codec codeAssist b = .ok w) :
    PartKept codec (.obj part) w ↔ UserPartPlain codec part := by
  have hprojects := h.projects
  unfold Projects at hprojects
  split at hprojects
  · next fr hresponse =>
    obtain ⟨id, tr, hid, hblock, rfl⟩ := hprojects
    have hne : arm ≠ "text" := by
      rintro rfl
      exact absurd (h.modelled_response hresponse (by decide)) (by decide)
    rw [h.userPartPlain_iff fun heq => absurd heq hne]
    exact h.toolResult_iff laws hresponse hid hblock hsent
  · obtain ⟨id, args, -, -, rfl⟩ := hprojects
    cases hsent
  rotate_left
  · next hresponse hcall htext =>
    subst hprojects
    rw [h.userPartPlain_iff fun _ => htext]
    exact h.unknown_iff laws htext hcall hresponse hsent
  next text hresponse hcall htext =>
  by_cases hthought : p.1.thought = true
  · rw [if_pos hthought] at hprojects
    subst hprojects
    cases hsent
  rw [if_neg hthought] at hprojects
  by_cases htrailing : p.1.isTrailing = true
  · rw [if_pos htrailing] at hprojects
    subst hprojects
    cases hsent
  rw [if_neg htrailing] at hprojects
  subst hprojects
  cases hsent
  rw [Bool.not_eq_true] at hthought
  by_cases harm : arm ∈ modelledArms
  · have hname := h.modelled_text htext harm
    have hmem : "text" ∈ part.keys := hname ▸ h.grammar.mem
    -- no signature is written for the text of a user
    rw [UserPartPlain, h.text_plain_iff hname htext, hthought,
      factsPlain_iff h.strict h.read h.facts, ← List.dlookup_eq_none]
    refine (h.text_struct_iff hname htext false "").trans ?_
    constructor
    · rintro ⟨hthought, hsig, hmeta⟩
      have hnone := (writes_nil_iff _).mp hsig
      refine ⟨⟨⟨?_, hmeta⟩, hthought⟩, fun _ => hnone⟩
      rw [hnone]
      exact writes_none _
    · rintro ⟨⟨⟨-, hmeta⟩, hthought⟩, hsig⟩
      exact ⟨hthought, (writes_nil_iff _).mpr (hsig hmem), hmeta⟩
  · have hne : arm ≠ "text" := by
      rintro rfl
      exact harm (by decide)
    rw [h.userPartPlain_iff fun heq => absurd heq hne]
    exact h.misspelled_iff harm (by simp [htext]) _

end arms

end Projected

end ToranaEdge.Format.Gemini
