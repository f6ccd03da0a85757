import ToranaEdge.Format.GeminiFidelity.Blocks

/-! # Which contents keep their members

A content of the model is read as one message and written as up to three kinds
of contents: each result alone, the texts together and the calls together.  A
content is kept when exactly one content is written for it, with its role and
its parts. -/

namespace ToranaEdge.Format.Gemini

open Engine Attempt List Align
open Anthropic (SameJson ArrayKept OnlyNames sameJson_str sameJson_arr_iff objectKept_of_sameJson
  strict_of_mem_bound)

/-! ## What is written for a message of the model -/

/-- The content of the model a block is written to. -/
def blockSort (b : Block) : PartSort :=
  match b.text, b.thinking, b.unknown, b.toolUse, b.toolResult with
  | none, none, none, some _, _ => .call
  | none, none, none, none, some _ => .result
  | _, _, _, _, _ => .text

/-- A part that has been written is added to its content. -/
def Assistant.add (codeAssist : Bool) (a : Assistant) (p : PartSort × Json) : Assistant :=
  match p.1 with
  | .text => a.addText p.2
  | .call => { a with toolParts := a.toolParts ++ [p.2] }
  | .result => { a with out := a.out ++ [content (toolResultRole codeAssist) [p.2]] }

variable {image : List Json}

section assistant

variable {codec : Codec} {codeAssist : Bool} {b : Block} {a a' : Assistant}

lemma assistantBlock_spec (h : assistantBlock codec codeAssist a b = .ok a') :
    ∃ w, assistantPart codec codeAssist b = .ok w ∧ a' = a.add codeAssist (blockSort b, w) := by
  obtain ⟨text, thinking, _, toolUse, toolResult, _, unknown, trailing⟩ := b
  rcases text with _ | t
  rcases thinking with _ | t
  rcases unknown with _ | u
  rcases toolUse with _ | t
  rcases toolResult with _ | r
  rcases trailing with _ | t
  · cases h
  · cases h
    exact ⟨_, rfl, rfl⟩
  · obtain ⟨w, hw, h⟩ := bind_eq_ok.mp h
    cases h
    exact ⟨w, hw, rfl⟩
  · cases h
    exact ⟨_, rfl, rfl⟩
  · obtain ⟨w, hw, h⟩ := bind_eq_ok.mp h
    cases h
    exact ⟨w, hw, rfl⟩
  · cases h
    exact ⟨_, rfl, rfl⟩
  · cases h
    exact ⟨_, rfl, rfl⟩

/-- The parts of one sort. -/
def ofSort (sort : PartSort) (ps : List (PartSort × Json)) : List Json :=
  (ps.filter fun p => p.1 = sort).map Prod.snd

/-- The contents of a body that was split. -/
def splitContents (codeAssist : Bool) (ps : List (PartSort × Json)) : List Json :=
  (ofSort .result ps).map (fun w => content (toolResultRole codeAssist) [w]) ++
    (if ofSort .text ps = [] then [] else [content "model" (ofSort .text ps)]) ++
    (if ofSort .call ps = [] then [] else [content "model" (ofSort .call ps)])

/-- An assistant that has taken those parts. -/
def Assistant.ofParts (codeAssist : Bool) (ps : List (PartSort × Json)) : Assistant where
  out := (ofSort .result ps).map fun w => content (toolResultRole codeAssist) [w]
  textParts := if ofSort .text ps = [] then none else some (ofSort .text ps)
  toolParts := ofSort .call ps

lemma ofSort_concat (sort : PartSort) (ps : List (PartSort × Json)) (p : PartSort × Json) :
    ofSort sort (ps ++ [p]) = ofSort sort ps ++ if p.1 = sort then [p.2] else [] := by
  by_cases h : p.1 = sort <;> simp [ofSort, h]

variable {ps : List (PartSort × Json)} {sort : PartSort} {w : Json} {m : Message}

namespace Assistant

lemma ofParts_concat (p : PartSort × Json) :
    ofParts codeAssist (ps ++ [p]) = (ofParts codeAssist ps).add codeAssist p := by
  obtain ⟨sort, w⟩ := p
  cases sort with
  | text =>
    by_cases h : ofSort .text ps = [] <;> simp [ofParts, add, addText, ofSort_concat, h]
  | call | result => simp [ofParts, add, ofSort_concat]

lemma contents_ofParts : (ofParts codeAssist ps).contents = splitContents codeAssist ps := by
  unfold contents ofParts splitContents
  split <;> simp_all

end Assistant

/-- What was written for each block, with the content it was written to. -/
def Sorted (codec : Codec) (codeAssist : Bool) (b : Block) (p : PartSort × Json) : Prop :=
  assistantPart codec codeAssist b = .ok p.2 ∧ p.1 = blockSort b

lemma sorted_of_run {blocks : List Block}
    (hrun : blocks.foldlM (assistantBlock codec codeAssist) (.ofParts codeAssist ps) = .ok a') :
    ∃ qs, Forall₂ (Sorted codec codeAssist) blocks qs ∧
      a' = .ofParts codeAssist (ps ++ qs) := by
  induction blocks generalizing ps with
  | nil =>
    cases hrun
    exact ⟨[], .nil, by rw [append_nil]⟩
  | cons b blocks ih =>
  obtain ⟨a₁, hfirst, hrest⟩ := bind_eq_ok.mp hrun
  obtain ⟨w, hw, rfl⟩ := assistantBlock_spec hfirst
  rw [← Assistant.ofParts_concat] at hrest
  obtain ⟨qs, hqs, rfl⟩ := ih hrest
  exact ⟨(blockSort b, w) :: qs, .cons ⟨hw, rfl⟩ hqs, by simp⟩

/-! ## One content is written -/

/-- The role of the content that the parts of that sort are written to. -/
def sortRole (codeAssist : Bool) : PartSort → String
  | .result => toolResultRole codeAssist
  | _ => "model"

lemma ofSort_of_all {sort' : PartSort} (h : ∀ p ∈ ps, p.1 = sort) :
    ofSort sort' ps = if sort' = sort then ps.map Prod.snd else [] := by
  unfold ofSort
  split
  next heq =>
    rw [filter_eq_self.mpr fun p hp => by simp [h p hp, heq]]
  next hne =>
    rw [filter_eq_nil_iff.mpr fun p hp => by simp [h p hp, Ne.symm hne]]
    rfl

/-- Parts of one sort are written to one content, results if there is only one. -/
lemma splitContents_of_all (h : ∀ p ∈ ps, p.1 = sort) (hne : ps ≠ [])
    (hone : sort = .result → ps.length = 1) :
    splitContents codeAssist ps = [content (sortRole codeAssist sort) (ps.map Prod.snd)] := by
  have hmap : ps.map Prod.snd ≠ [] := by simpa using hne
  unfold splitContents
  simp only [ofSort_of_all h]
  cases sort with
  | text | call => simp [hmap, sortRole]
  | result =>
    obtain ⟨p, rfl⟩ := length_eq_one_iff.mp (hone rfl)
    simp [sortRole]

lemma mem_ofSort (p : PartSort × Json) (hp : p ∈ ps) (hsort : p.1 = sort) : p.2 ∈ ofSort sort ps :=
  mem_map.mpr ⟨p, mem_filter.mpr ⟨hp, by simpa using hsort⟩, rfl⟩

/-- One content is written only for parts of one sort. -/
lemma all_of_splitContents (h : splitContents codeAssist ps = [w]) :
    ∃ sort, (∀ p ∈ ps, p.1 = sort) ∧ ps ≠ [] ∧ (sort = .result → ps.length = 1) ∧
      w = content (sortRole codeAssist sort) (ps.map Prod.snd) := by
  have hne : ps ≠ [] := by
    rintro rfl
    cases h
  have hlength := congrArg length h
  simp only [splitContents, length_append, length_map, apply_ite length, length_singleton, ←
    length_eq_zero_iff] at hlength
  obtain ⟨p, hp⟩ := exists_mem_of_ne_nil ps hne
  -- a sort with a part is the only one: each of the three writes at least one content
  have hsort : ∀ q ∈ ps, q.1 = p.1 := by
    intro q hq
    have hpmem := length_pos_of_mem (mem_ofSort p hp rfl)
    have hqmem := length_pos_of_mem (mem_ofSort q hq rfl)
    cases hps : p.1 <;> cases hqs : q.1 <;> rw [hps] at hpmem <;> rw [hqs] at hqmem <;> first
      | rfl
      | split at hlength <;> split at hlength <;> omega
  have hone : p.1 = .result → ps.length = 1 := by
    intro hresult
    simpa [ofSort_of_all hsort, hresult] using hlength
  refine ⟨p.1, hsort, hne, hone, ?_⟩
  rw [splitContents_of_all hsort hne hone] at h
  exact (cons.inj h).1.symm

/-- The part written for a block of a tool message. -/
def toolPart (codec : Codec) (codeAssist : Bool) (b : Block) : Except String Json :=
  b.toolResult.elim (.error "gemini: tool-role message with a non-tool-result block")
    (toolResultPart codec codeAssist)

lemma toolBlock_spec (h : toolBlock codec codeAssist b = .ok w) :
    ∃ part, toolPart codec codeAssist b = .ok part ∧
      w = content (toolResultRole codeAssist) [part] := by
  unfold toolBlock at h
  split at h
  · cases h
  next r hresult =>
  obtain ⟨part, hpart, h⟩ := bind_eq_ok.mp h
  cases h
  exact ⟨part, by rwa [toolPart, hresult], rfl⟩

lemma length_ofSort (ps : List (PartSort × Json)) :
    (ofSort .result ps).length + (ofSort .text ps).length + (ofSort .call ps).length =
      ps.length := by
  induction ps with
  | nil => rfl
  | cons p ps ih =>
    obtain ⟨sort, w⟩ := p
    cases sort <;> simp [ofSort] at ih ⊢ <;> omega

/-- What is written for a message, by its role. -/
lemma messageContents_spec (h : messageContents codec codeAssist m = .ok image) :
    (m.role = roleSystem ∧ image = []) ∨
      (m.role = roleUser ∧ ∃ ws, m.blocks.mapM (userPart codec codeAssist) = .ok ws ∧
        image = if ws = [] then [] else [content "user" ws]) ∨
      (m.role = roleAssistant ∧ ∃ ps, Forall₂ (Sorted codec codeAssist) m.blocks ps ∧
        image = splitContents codeAssist ps) ∨
      m.role = roleTool ∧ ∃ ws, m.blocks.mapM (toolPart codec codeAssist) = .ok ws ∧
        image = ws.map fun w => content (toolResultRole codeAssist) [w] := by
  rcases ite_eq_iff.mp h with ⟨hrole, h⟩ | ⟨-, h⟩
  · cases h
    exact .inl ⟨hrole, rfl⟩
  rcases ite_eq_iff.mp h with ⟨hrole, h⟩ | ⟨-, h⟩
  · obtain ⟨ws, hws, h⟩ := bind_eq_ok.mp h
    refine .inr (.inl ⟨hrole, ws, hws, ?_⟩)
    cases ws <;> cases h <;> rfl
  rcases ite_eq_iff.mp h with ⟨hrole, h⟩ | ⟨-, h⟩
  · obtain ⟨a, hrun, h⟩ := bind_eq_ok.mp h
    cases h
    obtain ⟨ps, hps, rfl⟩ := @sorted_of_run _ _ _ [] _ hrun
    exact .inr (.inr (.inl ⟨hrole, ps, hps, Assistant.contents_ofParts⟩))
  rcases ite_eq_iff.mp h with ⟨hrole, h⟩ | ⟨-, h⟩
  · refine .inr (.inr (.inr ⟨hrole, ?_⟩))
    obtain ⟨ws, hws, himage⟩ := exists_map_of_mapM h fun b w hb => toolBlock_spec hb
    exact ⟨ws, mapM_eq_ok.mpr hws, himage⟩
  · cases h

/-- The number of parts of a content. -/
def contentSize (v : Json) : Nat := (elemsOf ((entriesOf v).dlookup "parts")).length

@[simp]
lemma contentSize_content (role : String) (ws : List Json) :
    contentSize (content role ws) = ws.length := by
  cases ws <;> rfl

/-- Whatever is written for a message is a content with parts, and no part is written
twice. -/
lemma messageContents_sizes (h : messageContents codec codeAssist m = .ok image) :
    (image.map contentSize).sum ≤ m.blocks.length ∧
      ∀ w ∈ image, ∃ role ws, w = content role ws ∧ ws ≠ [] := by
  have hone (role : String) {ws : List Json} : ∀ w ∈ if ws = [] then [] else [content role ws],
      ∃ role ws, w = content role ws ∧ ws ≠ [] := by
    split
    next => simp
    next hne => simpa using ⟨_, _, rfl, hne⟩
  have heach (role : String) (ws : List Json) : ∀ w ∈ ws.map fun w => content role [w],
      ∃ role ws, w = content role ws ∧ ws ≠ [] := by
    rw [forall_mem_map]
    exact fun w _ => ⟨_, _, rfl, by simp⟩
  rcases messageContents_spec h with ⟨-, rfl⟩ | ⟨-, ws, hws, rfl⟩ | ⟨-, ps, hps, rfl⟩ |
    ⟨-, ws, hws, rfl⟩
  · simp
  · rw [(mapM_eq_ok.mp hws).length_eq]
    exact ⟨by split <;> simp, hone _⟩
  · rw [hps.length_eq, ← length_ofSort ps, splitContents]
    refine ⟨?_, ?_⟩
    · split <;> split <;> simp_all [Function.comp_def, Nat.add_assoc]
    · simp only [forall_mem_append]
      exact ⟨⟨heach _ _, hone _⟩, hone _⟩
  · rw [(mapM_eq_ok.mp hws).length_eq]
    exact ⟨by simp [Function.comp_def], heach _ _⟩

end assistant

/-! ## How a content is read -/

section read

variable {codec : GeminiCodec} {i : Nat} {v : Json}

/-- A part of a body and the block it became. -/
def PartImage (codec : GeminiCodec) (i : Nat) (raw : Json) (b : Block) : Prop :=
  ∃ part arm p metadata, raw = .obj part ∧ Projected codec i part arm p metadata b

/-- A content of a body and the message it became. -/
def ContentRead (codec : GeminiCodec) (i : Nat) (v : Json) (m : Message) : Prop :=
  ∃ role parts, decodeRoleParts codec.toWireCodec v = .ok (role, parts) ∧ m.role = mapRoleG role ∧
    Forall₂ (PartImage codec i) parts m.blocks

lemma projectParts_spec {parts : List WirePart} {ps : List (WirePart × Nat)} {q q' : Projection}
    (h : ps.foldlM (projectPart codec i parts) q = .ok q') :
    ∃ bs, q'.blocks = q.blocks ++ bs ∧ Forall₂ (fun p b => ∃ metadata,
      partMetadata p.1.partMetadata = .ok metadata ∧ Projects codec i p metadata b) ps bs := by
  induction ps generalizing q with
  | nil =>
    cases h
    exact ⟨[], by simp, .nil⟩
  | cons p ps ih =>
  obtain ⟨q₁, hfirst, hrest⟩ := bind_eq_ok.mp h
  obtain ⟨metadata, b, hmetadata, hb, hprojects⟩ := projectPart_spec hfirst
  obtain ⟨bs, hbs, hall⟩ := ih hrest
  refine ⟨b :: bs, ?_, .cons ⟨metadata, hmetadata, hprojects⟩ hall⟩
  rw [hbs, hb, append_assoc]
  rfl

lemma partImage_of_decode {raw : Json} {p : WirePart × Nat} {metadata : OptionalJSONObject}
    {b : Block} (hstrict : strictJson raw = true) (hdecode : decodeContentPart codec raw = .ok p.1)
    (hmetadata : partMetadata p.1.partMetadata = .ok metadata)
    (hprojects : Projects codec i p metadata b) : PartImage codec i raw b := by
  obtain ⟨arm, hvalid, hdecode⟩ := bind_eq_ok.mp hdecode
  cases raw with
  | obj part =>
    exact ⟨part, arm, p, metadata, rfl, hstrict,
      grammar_of_validate (strictJson_obj.mp hstrict).1 hvalid, .of_decode hdecode, hmetadata,
      hprojects⟩
  | null | bool _ | num _ | str _ | arr _ => cases hvalid

lemma strict_of_decodeRoleParts {role : String} {parts : List Json}
    (hstrict : strictJson v = true) (h : decodeRoleParts codec v = .ok (role, parts)) :
    ∀ raw ∈ parts, strictJson raw = true := by
  cases v with
  | null =>
    cases h
    intro raw hraw
    cases hraw
  | obj c =>
    obtain ⟨role, -, parts, hparts, h⟩ := bind₂_eq_ok.mp h
    cases h
    rcases decodeRawSlice_last hparts with harr | ⟨rfl, -⟩
    · exact strictJson_arr.mp (strict_of_mem_bound hstrict _ harr)
    · intro raw hraw
      cases hraw
  | bool _ | num _ | str _ | arr _ => cases h

lemma contentRead_of_decode {c : GeminiContent} {ids : Synthesized} {m : Message × Synthesized}
    (hstrict : strictJson v = true) (hdecode : decodeContent codec v = .ok c)
    (h : geminiContentToMessage codec ids (c, i) = .ok m) : ContentRead codec i v m.1 := by
  obtain ⟨⟨role, parts⟩, hraw, wireParts, hwire, hdecode⟩ := bind₂_eq_ok.mp hdecode
  cases hdecode
  obtain ⟨⟨⟩, -, q, hq, h⟩ := bind₂_eq_ok.mp h
  cases h
  obtain ⟨blocks, hblocks, hall⟩ := projectParts_spec hq
  refine ⟨role, parts, hraw, rfl, ?_⟩
  have hstrictParts := strict_of_decodeRoleParts hstrict hraw
  have hdecoded : Forall₂ (fun raw (p : WirePart × Nat) => strictJson raw = true ∧
      decodeContentPart codec raw = .ok p.1) parts wireParts.zipIdx := by
    have hforall := mapM_eq_ok.mp hwire
    rw [← zipIdx_map_fst 0 wireParts, forall₂_map_right_iff] at hforall
    exact (forall₂_and_left _ _).mpr ⟨hstrictParts, hforall⟩
  rw [hblocks]
  exact forall₂_trans (fun raw p b hraw ⟨metadata, hmetadata, hprojects⟩ =>
    partImage_of_decode hraw.1 hraw.2 hmetadata hprojects) hdecoded hall

end read

/-! ## Contents that are kept -/

section kept

variable {codec : GeminiCodec} {codeAssist : Bool} {i : Nat} {v : Json} {c : Entries}
variable {role : String} {parts : List Json}

variable {ws : List Json}

lemma contentKept_iff {codec : WireCodec} (hnodup : c.NodupKeys) :
    ContentKept codec (.obj c) (content role ws) ↔ OnlyNames contentNames c ∧
      (∀ v ∈ c.dlookup "role", SameJson codec v (.str role)) ∧
      ∀ v ∈ c.dlookup "parts", ArrayKept codec (PartKept codec) v (sliceJson ws) := by
  refine (structKept_iff hnodup (by simp)).trans ?_
  rw [fieldsKept_cons, fieldsKept_cons, and_iff_left fieldsKept_nil]
  simp [contentRel, contentNames]

/-- With no other name, the role and the parts are the members of those names. -/
lemma decodeRoleParts_obj {codec : WireCodec} (hnodup : c.NodupKeys)
    (honly : OnlyNames contentNames c) (h : decodeRoleParts codec (.obj c) = .ok (role, parts)) :
    (c.dlookup "role" = some (.str role) ∨ role = "" ∧ ∀ s, c.dlookup "role" ≠ some (.str s)) ∧
      (c.dlookup "parts" = some (.arr parts) ∨
        parts = [] ∧ ∀ elems, c.dlookup "parts" ≠ some (.arr elems)) := by
  obtain ⟨role, hrole, parts, hparts, h⟩ := bind₂_eq_ok.mp h
  cases h
  rw [bound_eq_lookup honly hnodup] at hrole hparts
  have hslice := decodeRawSlice_last hparts
  rw [rawMessage_toList] at hslice
  refine ⟨?_, hslice⟩
  rcases decodeString_toList.mp hrole with hrole | ⟨hnone | hnull, hempty⟩
  · exact .inl hrole
  · exact .inr ⟨hempty, by simp [hnone]⟩
  · exact .inr ⟨hempty, by simp [hnull]⟩

/-- A plain content is read as it stands. -/
lemma contentPlain_iff {codec : WireCodec} (hnodup : c.NodupKeys)
    (h : decodeRoleParts codec (.obj c) = .ok (role, parts)) :
    ContentPlain codec codeAssist c ↔ OnlyNames contentNames c ∧
      c.dlookup "role" = some (.str role) ∧ c.dlookup "parts" = some (.arr parts) ∧ parts ≠ [] ∧
      (role = "user" ∧ (∀ p ∈ parts, UserPartPlain codec (entriesOf p)) ∨ role = "model" ∧
        (∀ p ∈ parts, PartPlain codec (entriesOf p)) ∧ Unsplit codeAssist parts) := by
  constructor
  · rintro ⟨honly, elems, helems, hne, hroles⟩
    obtain ⟨hreadRole, hreadParts⟩ := decodeRoleParts_obj hnodup honly h
    have hparts := hreadParts.resolve_right fun hnone => hnone.2 elems helems
    cases helems.symm.trans hparts
    have hrole := hreadRole.resolve_right fun hnone =>
      hroles.elim (fun huser => hnone.2 _ huser.1) fun hmodel => hnone.2 _ hmodel.1
    rw [hrole] at hroles
    exact ⟨honly, hrole, hparts, hne, by simpa using hroles⟩
  · rintro ⟨honly, hrole, hparts, hne, hroles⟩
    refine ⟨honly, parts, hparts, hne, ?_⟩
    rw [hrole]
    simpa using hroles

variable {blocks : List Block}

lemma arrayKept_parts_iff (hws : ws ≠ []) (h : Forall₂ (PartImage codec i) parts blocks) :
    ArrayKept codec (PartKept codec) (.arr parts) (sliceJson ws) ↔
      Forall₂ (PartKept codec) parts ws := by
  have hslice : sliceJson ws = .arr ws := by simp [sliceJson, hws]
  rw [hslice]
  constructor
  · rintro (hsame | ⟨vs, ws', hvs, hws', hkept⟩)
    · have hread : ∀ raw ∈ parts, ∃ b ∈ _, PartImage codec i raw b := fun raw hraw =>
        exists_of_mem_right h.flip hraw
      refine ((forall₂_and_left _ _).mpr ⟨hread, sameJson_arr_iff.mp hsame⟩).imp ?_
      rintro raw w ⟨⟨b, -, part, arm, p, metadata, rfl, hprojected⟩, hsame⟩
      exact objectKept_of_sameJson (fun _ _ _ hsame => .inl hsame) hprojected.nodup hsame
    · cases hvs
      cases hws'
      exact hkept
  · intro hkept
    exact .inr ⟨parts, ws, rfl, rfl, hkept⟩

/-- **A content and the one written for it.**  What decides about its parts is a
condition on each of them. -/
theorem sent_content_iff {write : Block → Except String Json}
    {P : Entries → Prop} (sentRole : String) (hnodup : c.NodupKeys)
    (hraw : decodeRoleParts codec (.obj c) = .ok (role, parts)) (hrole : role ≠ "")
    (hblocks : Forall₂ (PartImage codec i) parts blocks) (hne : blocks ≠ [])
    (hws : Forall₂ (fun b w => write b = .ok w) blocks ws)
    (hwrite : ∀ raw b w, PartImage codec i raw b → write b = .ok w →
      (PartKept codec raw w ↔ P (entriesOf raw))) :
    ContentKept codec (.obj c) (content sentRole ws) ↔
      OnlyNames contentNames c ∧ role = sentRole ∧ c.dlookup "role" = some (.str role) ∧
        c.dlookup "parts" = some (.arr parts) ∧ ∀ p ∈ parts, P (entriesOf p) := by
  rw [contentKept_iff hnodup]
  refine and_congr_right fun honly => ?_
  obtain ⟨hreadRole, hreadParts⟩ := decodeRoleParts_obj hnodup honly hraw
  have hreadRole := hreadRole.resolve_right fun hnone => hrole hnone.1
  have hpartsNe := (ne_nil_iff hblocks).mpr hne
  have hreadParts := hreadParts.resolve_right fun hnone => hpartsNe hnone.1
  have hwsNe := (ne_nil_iff hws).mp hne
  have himages : Forall₂ (fun raw w => ∃ b, PartImage codec i raw b ∧ write b = .ok w)
      parts ws := forall₂_trans (fun _ b _ hb hw => ⟨b, hb, hw⟩) hblocks hws
  have hparts : Forall₂ (PartKept codec) parts ws ↔ ∀ p ∈ parts, P (entriesOf p) :=
    forall₂_iff_forall himages fun raw _ w ⟨b, hb, hw⟩ => hwrite raw b w hb hw
  rw [hreadRole, hreadParts]
  simp only [Option.mem_some_iff, forall_eq', arrayKept_parts_iff hwsNe hblocks, hparts,
    sameJson_str, Json.str.injEq, true_and]
  rw [eq_comm]

/-! ## The contents of the model -/

/-- A plain part is of the sort of its block. -/
lemma blockSort_of_plain {raw : Json} {b : Block} (h : PartImage codec i raw b)
    (hplain : PartPlain codec (entriesOf raw)) : blockSort b = partSort raw := by
  obtain ⟨part, arm, p, metadata, rfl, h⟩ := h
  have hprojects := h.projects
  unfold Projects at hprojects
  have hcallKey := h.mem_keys_iff hplain.2 (.inl rfl) h.read.functionCall
  have hresponseKey := h.mem_keys_iff hplain.2 (.inr rfl) h.read.functionResponse
  show _ = if "functionCall" ∈ part.keys then PartSort.call
    else if "functionResponse" ∈ part.keys then .result else .text
  cases hresponse : p.1.functionResponse with
  | some fr =>
    rw [hresponse] at hprojects hresponseKey
    obtain ⟨id, tr, -, -, rfl⟩ := hprojects
    have hmem := hresponseKey.mpr nofun
    obtain rfl := h.grammar.eq_of_mem (by decide) hmem
    rw [if_neg (h.grammar.not_mem (by decide) (by decide)), if_pos hmem]
    rfl
  | none =>
  cases hcall : p.1.functionCall with
  | some fc =>
    rw [hresponse, hcall] at hprojects
    obtain ⟨id, args, -, -, rfl⟩ := hprojects
    rw [if_pos (hcallKey.mpr (by simp [hcall]))]
    rfl
  | none =>
  rw [hresponse, hcall] at hprojects
  rw [if_neg (hcallKey.not.mpr (not_not.mpr hcall)),
    if_neg (hresponseKey.not.mpr (not_not.mpr hresponse))]
  cases htext : p.1.text with
  | none =>
    rw [htext] at hprojects
    subst hprojects
    rfl
  | some text =>
  rw [htext] at hprojects
  subst hprojects
  split
  · rfl
  · split <;> rfl

/-- **A content of the model** is kept, as one content, exactly when its parts are
plain and not split. -/
theorem model_iff (laws : TextLaws codec) {ps : List (PartSort × Json)} (hnodup : c.NodupKeys)
    (hraw : decodeRoleParts codec (.obj c) = .ok ("model", parts))
    (hblocks : Forall₂ (PartImage codec i) parts blocks) (hne : blocks ≠ [])
    (hps : Forall₂ (Sorted codec codeAssist) blocks ps) :
    (∃ w, splitContents codeAssist ps = [w] ∧ ContentKept codec (.obj c) w) ↔
      ContentPlain codec codeAssist c := by
  have hws : Forall₂ (fun b w => assistantPart codec codeAssist b = .ok w) blocks
      (ps.map Prod.snd) := forall₂_map_right_iff.mpr (hps.imp fun _ _ h => h.1)
  have hkept (sentRole : String) := sent_content_iff sentRole hnodup hraw (by decide) hblocks hne
    hws fun raw b w ⟨part, arm, p, metadata, hraw, hprojected⟩ hw => by
      subst hraw
      exact hprojected.assistantPart_iff laws hw
  have hlength : parts.length = ps.length := hblocks.length_eq.trans hps.length_eq
  have hsorts : (∀ p ∈ parts, PartPlain codec (entriesOf p)) →
      ∀ sort, (∀ q ∈ ps, q.1 = sort) ↔ ∀ p ∈ parts, partSort p = sort := by
    intro hplain sort
    have haligned : Forall₂ (fun raw (q : PartSort × Json) =>
        PartPlain codec (entriesOf raw) → partSort raw = q.1) parts ps :=
      forall₂_trans (fun raw b q hb hq hplain =>
        (blockSort_of_plain hb hplain).symm.trans hq.2.symm) hblocks hps
    have hmap : parts.map partSort = ps.map Prod.fst := by
      rw [← forall₂_eq_eq_eq, forall₂_map_left_iff, forall₂_map_right_iff]
      exact ((forall₂_and_left _ _).mpr ⟨hplain, haligned⟩).imp fun _ _ h => h.2 h.1
    rw [← forall_mem_map (P := (· = sort)), ← hmap, forall_mem_map]
  rw [contentPlain_iff hnodup hraw]
  constructor
  · rintro ⟨w, hsent, hw⟩
    obtain ⟨sort, hall, -, hone, rfl⟩ := all_of_splitContents hsent
    obtain ⟨honly, hrole, hlookup, hparts, hplain⟩ := (hkept _).mp hw
    refine ⟨honly, hlookup, hparts, (ne_nil_iff hblocks).mpr hne,
      .inr ⟨rfl, hplain, sort, (hsorts hplain sort).mp hall, ?_⟩⟩
    rintro rfl
    refine ⟨?_, hlength.trans (hone rfl)⟩
    cases codeAssist with
    | true => rfl
    | false => exact absurd hrole (by decide)
  · rintro ⟨honly, hlookup, hparts, -, ⟨huser, -⟩ | ⟨-, hplain, sort, hall, hone⟩⟩
    · exact absurd huser (by decide)
    have hpsNe := (ne_nil_iff hps).mp hne
    refine ⟨_, splitContents_of_all ((hsorts hplain sort).mpr hall) hpsNe
      fun hresult => hlength.symm.trans (hone hresult).2, (hkept _).mpr
        ⟨honly, ?_, hlookup, hparts, hplain⟩⟩
    cases sort with
    | text | call => rfl
    | result =>
      rw [(hone rfl).1]
      rfl

/-! ## All contents -/

/-- A content of a body and what is written for it; nothing is when it has no parts. -/
def ContentSent (codec : GeminiCodec) (codeAssist : Bool) (v : Json) (image : List Json) : Prop :=
  ∃ i m, ContentRead codec i v m ∧
    if m.blocks = [] then image = [] else messageContents codec.toCodec codeAssist m = .ok image

lemma mapRoleG_eq_or {role mapped : String} (h : mapRoleG role = mapped) :
    role = "model" ∧ mapped = roleAssistant ∨ role = mapped := by
  unfold mapRoleG at h
  split at h
  next huser => exact .inr (huser.trans h)
  split at h
  next hmodel => exact .inl ⟨hmodel, h.symm⟩
  next => exact .inr h

lemma mapRoleG_eq {role mapped : String} (h : mapRoleG role = mapped)
    (hne : mapped ≠ roleAssistant) : role = mapped :=
  (mapRoleG_eq_or h).resolve_left fun hmodel => hne hmodel.2

/-- A message that is not the user's nor the model's is not kept. -/
lemma not_plain_of_role (hnodup : c.NodupKeys)
    (hraw : decodeRoleParts codec (.obj c) = .ok (role, parts)) (huser : role ≠ "user")
    (hmodel : role ≠ "model") : ¬ ContentPlain codec codeAssist c := by
  simp [contentPlain_iff hnodup hraw, huser, hmodel]

lemma not_kept_of_role {codec : WireCodec} {sentRole : String}
    (hnodup : c.NodupKeys) (hraw : decodeRoleParts codec (.obj c) = .ok (role, parts))
    (hne : role ≠ "") (hsent : sentRole ≠ role) :
    ¬ ContentKept codec (.obj c) (content sentRole ws) := by
  rw [contentKept_iff hnodup]
  rintro ⟨honly, hrole, -⟩
  have hlookup := (decodeRoleParts_obj hnodup honly hraw).1.resolve_right fun h => hne h.1
  rw [hlookup] at hrole
  cases sameJson_str.mp (hrole _ rfl)
  exact hsent rfl

/-- **One content.**  It is kept, as one content, exactly when it is plain. -/
theorem content_iff (laws : TextLaws codec) (hstrict : strictJson v = true)
    (h : ContentSent codec codeAssist v image) : (∃ w, image = [w] ∧ ContentKept codec v w) ↔
      ∃ c, v = .obj c ∧ ContentPlain codec codeAssist c := by
  obtain ⟨i, ⟨_, blocks⟩, ⟨role, parts, hraw, hrole, hblocks⟩, himage⟩ := h
  subst hrole
  cases v with
  | null =>
    cases hraw
    cases hblocks
    cases himage
    simp
  | bool _ | num _ | str _ | arr _ => cases hraw
  | obj c =>
  have hnodup := (strictJson_obj.mp hstrict).1
  simp only [Json.obj.injEq, exists_eq_left']
  by_cases hne : blocks = []
  · rw [if_pos hne] at himage
    subst himage hne
    cases hblocks
    refine iff_of_false (by simp) fun hplain => ?_
    exact ((contentPlain_iff hnodup hraw).mp hplain).2.2.2.1 rfl
  rw [if_neg hne] at himage
  rcases messageContents_spec himage with ⟨hsystem, rfl⟩ | ⟨huser, ws, hws, rfl⟩ |
    ⟨hassistant, ps, hps, rfl⟩ | ⟨htool, ws, -, rfl⟩
  · obtain rfl := mapRoleG_eq hsystem (by decide)
    exact iff_of_false (by simp) (not_plain_of_role hnodup hraw (by decide) (by decide))
  · obtain rfl : role = "user" := mapRoleG_eq huser (by decide)
    replace hws := mapM_eq_ok.mp hws
    have hwsNe := (ne_nil_iff hws).mp hne
    have hkept := sent_content_iff "user" hnodup hraw (by decide) hblocks hne hws
      fun raw b w ⟨part, arm, p, metadata, hraw, hprojected⟩ hw => by
        subst hraw
        exact hprojected.userPart_iff laws hw
    simp only [if_neg hwsNe, cons.injEq, and_true, exists_eq_left', hkept]
    rw [contentPlain_iff hnodup hraw]
    constructor
    · rintro ⟨honly, -, hlookup, hparts, hplain⟩
      exact ⟨honly, hlookup, hparts, (ne_nil_iff hblocks).mpr hne, .inl ⟨rfl, hplain⟩⟩
    · rintro ⟨honly, hlookup, hparts, -, ⟨-, hplain⟩ | ⟨hmodel, -⟩⟩
      · exact ⟨honly, trivial, hlookup, hparts, hplain⟩
      · exact absurd hmodel (by decide)
  · rcases mapRoleG_eq_or hassistant with ⟨rfl, -⟩ | rfl
    · exact model_iff laws hnodup hraw hblocks hne hps
    · -- no content is written with the role `assistant`
      refine iff_of_false ?_ (not_plain_of_role hnodup hraw (by decide) (by decide))
      rintro ⟨w, hsent, hw⟩
      obtain ⟨sort, -, -, -, rfl⟩ := all_of_splitContents hsent
      refine not_kept_of_role hnodup hraw (by decide) ?_ hw
      cases sort <;> cases codeAssist <;> decide
  · obtain rfl := mapRoleG_eq htool (by decide)
    refine iff_of_false ?_ (not_plain_of_role hnodup hraw (by decide) (by decide))
    rintro ⟨w, hsent, hw⟩
    obtain ⟨part, -, rfl⟩ := mem_map.mp (hsent ▸ mem_singleton_self w)
    refine not_kept_of_role hnodup hraw (by decide) ?_ hw
    cases codeAssist <;> decide

lemma contentSize_le {codec : WireCodec} {w : Json} (h : ContentKept codec v w) :
    contentSize v ≤ contentSize w := by
  obtain ⟨c, out, rfl, rfl, h⟩ := h
  show (elemsOf (c.dlookup "parts")).length ≤ (elemsOf (out.dlookup "parts")).length
  cases hv : c.dlookup "parts" with
  | none => exact Nat.zero_le _
  | some v =>
  obtain ⟨w, hw, hkept⟩ := h _ (of_mem_dlookup hv)
  rw [hw]
  have harray : ArrayKept codec (PartKept codec) v w := hkept
  rcases harray with hsame | ⟨vs, ws, rfl, rfl, hparts⟩
  · cases hsame with
    | arr hsame => exact Nat.le_of_eq hsame.length_eq
    | refl => exact Nat.le_refl _
    | num | obj => exact Nat.zero_le _
  · exact Nat.le_of_eq hparts.length_eq

/-- With no other name, the parts of a content are those that are read. -/
lemma size_contentSent (hnodup : c.NodupKeys)
    (honly : OnlyNames contentNames c) (h : ContentSent codec codeAssist (.obj c) image) :
    (image.map contentSize).sum ≤ contentSize (.obj c) ∧ ∀ w ∈ image, 1 ≤ contentSize w := by
  obtain ⟨i, m, ⟨role, parts, hraw, -, hblocks⟩, himage⟩ := h
  by_cases hempty : m.blocks = []
  · rw [if_pos hempty] at himage
    subst himage
    simp
  rw [if_neg hempty] at himage
  have hparts : c.dlookup "parts" = some (.arr parts) := by
    refine (decodeRoleParts_obj hnodup honly hraw).2.resolve_right ?_
    rintro ⟨hnil, -⟩
    exact (ne_nil_iff hblocks).mpr hempty hnil
  have hsize : contentSize (.obj c) = m.blocks.length := by
    show (elemsOf (c.dlookup "parts")).length = _
    rw [hparts]
    exact hblocks.length_eq
  obtain ⟨hsum, hcontents⟩ := messageContents_sizes himage
  refine ⟨hsize ▸ hsum, fun w hw => ?_⟩
  obtain ⟨role, ws, rfl, hne⟩ := hcontents w hw
  rw [contentSize_content]
  exact length_pos_iff.mpr hne

/-- **All contents** are kept exactly when each is plain: a content that is dropped
or split leaves too few parts for the others, or too many contents. -/
theorem contents_iff (laws : TextLaws codec) {elems : List Json} {images : List (List Json)}
    (hstrict : ∀ v ∈ elems, strictJson v = true)
    (h : Forall₂ (ContentSent codec codeAssist) elems images) :
    Forall₂ (ContentKept codec) elems images.flatten ↔
      ∀ v ∈ elems, ∃ c, v = .obj c ∧ ContentPlain codec codeAssist c := by
  have hsingle : Forall₂ (fun v image => ∃ w, image = [w] ∧ ContentKept codec v w) elems images ↔
        ∀ v ∈ elems, ∃ c, v = .obj c ∧ ContentPlain codec codeAssist c :=
    forall₂_iff_forall h fun v hv image hsent => content_iff laws (hstrict v hv) hsent
  rw [← hsingle]
  refine ⟨fun hkept => ?_, forall₂_flatten_single⟩
  have hcontent : ∀ w ∈ images.flatten, ∃ role ws, w = content role ws := by
    intro w hw
    obtain ⟨image, himage, hw⟩ := mem_flatten.mp hw
    obtain ⟨v, -, i, m, -, hsent⟩ := exists_of_mem_right h himage
    split at hsent
    · rw [hsent] at hw
      cases hw
    obtain ⟨role, ws, rfl, -⟩ := (messageContents_sizes hsent).2 w hw
    exact ⟨role, ws, rfl⟩
  -- a content with a name of its own is not kept by any
  have hnames : ∀ v ∈ elems, ∃ c, v = .obj c ∧ c.NodupKeys ∧ OnlyNames contentNames c := by
    intro v hv
    have hpairs := (forall₂_and_left _ _).mpr ⟨hstrict, hkept⟩
    have hpairs' := ((forall₂_and_left _ _).mpr ⟨hcontent, hpairs.flip⟩).flip
    obtain ⟨w, -, ⟨role, ws, rfl⟩, hstrictV, hv⟩ := exists_of_mem_right hpairs'.flip hv
    obtain ⟨c, -, rfl, -⟩ := id hv
    have hnodup := (strictJson_obj.mp hstrictV).1
    exact ⟨c, rfl, hnodup, ((contentKept_iff hnodup).mp hv).1⟩
  refine forall₂_single (f := contentSize) (g := contentSize)
    ((forall₂_and_left _ _).mpr ⟨hnames, h⟩) ?_ ?_ hkept fun v w => contentSize_le
  · rintro v image ⟨⟨c, rfl, hnodup, honly⟩, hsent⟩
    exact (size_contentSent hnodup honly hsent).1
  · rintro v image ⟨⟨c, rfl, hnodup, honly⟩, hsent⟩
    exact (size_contentSent hnodup honly hsent).2

end kept

end ToranaEdge.Format.Gemini
