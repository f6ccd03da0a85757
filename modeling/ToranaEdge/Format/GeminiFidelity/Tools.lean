import ToranaEdge.Format.GeminiFidelity.Contents

/-! # Which tools keep their members

The declarations of all tools are written as those of one tool, and a tool has
no other member that is read. -/

namespace ToranaEdge.Format.Gemini

open Engine Attempt List
open Anthropic (SameJson FlatKept Omitted strict_of_mem_lookup)

section declarations

variable {codec : GeminiCodec}

/-- What a declaration is written as. -/
def declarationFields (t : ToolDef) : List (String × Option Json) :=
  [("name", some (.str t.name)), ("description", nonEmptyString t.description),
    ("parameters", some t.parameters.members.json)]

lemma declarations_buildTools (tools : List ToolDef) : (buildTools tools).flatMap declarationsOf =
      tools.map fun t => structJson (declarationFields t) := by
  cases tools with
  | nil => rfl
  | cons t tools => exact append_nil _

/-- A declaration of a body and the tool it became. -/
def DeclarationRead (codec : GeminiCodec) (d : Json) (t : ToolDef) : Prop :=
  ∃ decl, decodeFuncDecl codec.toWireCodec {} d = .ok decl ∧ unmarshalTool codec decl = .ok t

/-- **A declaration** keeps its members exactly when it is plain. -/
theorem declaration_iff {d : Json} {t : ToolDef} (hstrict : strictJson d = true)
    (h : DeclarationRead codec d t) : FlatKept codec d (structJson (declarationFields t)) ↔
      ∃ decl, d = .obj decl ∧ DeclarationPlain decl := by
  obtain ⟨decl, hdecode, hunmarshal⟩ := h
  obtain ⟨parameters, hparameters, hunmarshal⟩ := bind_eq_ok.mp hunmarshal
  have hparameters := context_eq_ok.mp hparameters
  cases hunmarshal
  cases d with
  | null =>
    refine iff_of_false ?_ (by simp)
    rintro ⟨_, _, hnull, -⟩
    cases hnull
  | bool _ | num _ | str _ | arr _ => cases hdecode
  | obj members =>
  obtain ⟨name, hname, description, hdescription, hdecode⟩ := bind₂_eq_ok.mp hdecode
  cases hdecode
  simp only [Json.obj.injEq, exists_eq_left']
  refine structKept_congr hstrict rfl (by decide) fun _ hbound => ?_
  simp only [hbound, rawMessage_toList, Option.or_none] at hname hdescription hparameters
  simp only [declarationFields, flatFields_cons, and_iff_left fieldsKept_nil]
  rw [writes_string_iff _ hname, writes_nonEmpty_iff _ hdescription,
    and_iff_left (writes_required _ (strict_of_mem_lookup hstrict) hparameters)]

end declarations

/-! ## Tools -/

section tools

variable {codec : GeminiCodec} {tool : Json}

/-- A tool whose members are declarations, read or not. -/
def OnlyDeclarations (tool : Json) : Prop :=
  ∃ members, tool = .obj members ∧ ∀ m ∈ members, m.1 = "functionDeclarations" ∧
    ∃ decls, m.2 = .arr decls

lemma mem_buildTools {ts : List ToolDef} {sent : Json} (h : sent ∈ buildTools ts) {key : String}
    {w : Json} (hw : (entriesOf sent).dlookup key = some w) :
    key = "functionDeclarations" ∧ ∃ decls, w = .arr decls := by
  unfold buildTools at h
  split at h
  · cases h
  rw [mem_singleton.mp h] at hw
  have hlookup := lookup_structMembers [("functionDeclarations", some (Json.arr (ts.map fun t =>
    structJson (declarationFields t))))] key (by simp)
  have hsame : (structMembers [("functionDeclarations", some (Json.arr (ts.map fun t =>
    structJson (declarationFields t))))]).lookup key = some w := hw
  rw [hlookup] at hsame
  by_cases hkey : key = "functionDeclarations"
  · subst hkey
    cases hsame
    exact ⟨rfl, _, rfl⟩
  · rw [lookup_cons, beq_false_of_ne hkey] at hsame
    cases hsame

/-- The members of the tools are kept when they are declarations. -/
lemma toolMembers_iff {codec : WireCodec} (ts : List ToolDef) (tool : Json) :
    (∃ members, tool = .obj members ∧ ∀ m ∈ members, ToolMemberKept codec (buildTools ts) m) ↔
      OnlyDeclarations tool := by
  refine exists_congr fun members => and_congr_right fun _ => forall₂_congr fun ⟨_, _⟩ _ => ?_
  constructor
  · rintro (⟨sent, hsent, w, hw, hsame⟩ | h)
    · obtain ⟨hkey, decls, rfl⟩ := mem_buildTools hsent hw
      cases hsame with
      | refl | arr _ => exact ⟨hkey, _, rfl⟩
    · exact h
  · exact .inr

lemma declarations_of_decodeTool {slice : Slice FuncDecl} (hstrict : strictJson tool = true)
    (hdecode : decodeTool codec {} tool = .ok slice) (honly : OnlyDeclarations tool) :
    Forall₂ (fun d decl => decodeFuncDecl codec {} d = .ok decl)
      (declarationsOf tool) slice.values := by
  obtain ⟨members, rfl, hmembers⟩ := honly
  have hnodup := (strictJson_obj.mp hstrict).1
  have hdecode : (bound codec toolNames members "functionDeclarations").foldlM
      (Slice.decode {} (decodeFuncDecl codec)) {} = .ok slice := hdecode
  rw [bound_eq_lookup (fun m hm => by rw [(hmembers m hm).1]; decide) hnodup] at hdecode
  show Forall₂ _ (elemsOf (members.dlookup "functionDeclarations")) _
  cases hlookup : members.dlookup "functionDeclarations" with
  | none =>
    rw [hlookup] at hdecode
    cases hdecode
    exact .nil
  | some v =>
  obtain ⟨-, decls, rfl⟩ := hmembers _ (of_mem_dlookup hlookup)
  rw [hlookup] at hdecode
  have hslice : decodeSlice {} (decodeFuncDecl codec) [.arr decls] =
      .ok slice.values := map_eq_ok.mpr ⟨slice, hdecode, rfl⟩
  exact mapM_eq_ok.mp (decodeSlice_arr hslice)

lemma strict_declarationsOf (hstrict : strictJson tool = true) :
    ∀ d ∈ declarationsOf tool, strictJson d = true := by
  intro d hd
  cases tool with
  | obj members =>
    have hd : d ∈ elemsOf (members.dlookup "functionDeclarations") := hd
    cases hlookup : members.dlookup "functionDeclarations" with
    | none =>
      rw [hlookup] at hd
      cases hd
    | some v =>
    rw [hlookup] at hd
    have hv := strict_of_mem_lookup hstrict v hlookup
    cases v with
    | arr decls => exact strictJson_arr.mp hv d hd
    | null | bool _ | num _ | str _ | obj _ => cases hd
  | null | bool _ | num _ | str _ | arr _ => cases hd

/-- A tool is plain when its members are declarations and those are plain. -/
lemma toolPlain_iff (hstrict : strictJson tool = true) : ToolPlain tool ↔ OnlyDeclarations tool ∧
      ∀ d ∈ declarationsOf tool, ∃ decl, d = .obj decl ∧ DeclarationPlain decl := by
  constructor
  · rintro ⟨members, rfl, hmembers⟩
    refine ⟨⟨members, rfl, fun m hm => ?_⟩, fun d hd => ?_⟩
    · obtain ⟨hkey, decls, hdecls, -⟩ := hmembers m hm
      exact ⟨hkey, decls, hdecls⟩
    · have hd : d ∈ elemsOf (members.dlookup "functionDeclarations") := hd
      cases hlookup : members.dlookup "functionDeclarations" with
      | none =>
        rw [hlookup] at hd
        cases hd
      | some v =>
      obtain ⟨-, decls, rfl, hplain⟩ := hmembers _ (of_mem_dlookup hlookup)
      rw [hlookup] at hd
      exact hplain d hd
  · rintro ⟨⟨members, rfl, hmembers⟩, hplain⟩
    refine ⟨members, rfl, fun m hm => ?_⟩
    obtain ⟨hkey, decls, hdecls⟩ := hmembers m hm
    refine ⟨hkey, decls, hdecls, fun d hd => hplain d ?_⟩
    have hlookup : members.dlookup "functionDeclarations" = some (.arr decls) := by
      have hmem := mem_dlookup (strictJson_obj.mp hstrict).1 hm
      rwa [hkey, hdecls] at hmem
    show d ∈ elemsOf (members.dlookup "functionDeclarations")
    rw [hlookup]
    exact hd

/-- **All tools** are kept exactly when each is plain. -/
theorem tools_iff {elems : List Json} {slices : List (Slice FuncDecl)} {ts : List ToolDef}
    (hstrict : ∀ tool ∈ elems, strictJson tool = true)
    (hdecode : elems.mapM (decodeTool codec {}) = .ok slices)
    (hunmarshal : (slices.flatMap Slice.values).mapM (unmarshalTool codec) = .ok ts) :
    ToolsKept codec elems (buildTools ts) ↔ ∀ tool ∈ elems, ToolPlain tool := by
  have hplain : (∀ tool ∈ elems, ToolPlain tool) ↔ (∀ tool ∈ elems, OnlyDeclarations tool) ∧
      ∀ d ∈ elems.flatMap declarationsOf, ∃ decl, d = .obj decl ∧ DeclarationPlain decl := by
    rw [forall_mem_flatMap, ← forall₂_and]
    exact forall₂_congr fun tool htool => toolPlain_iff (hstrict tool htool)
  rw [hplain, ToolsKept, forall₂_congr fun tool _ => toolMembers_iff ts tool]
  refine and_congr_right fun honly => ?_
  have hdecls : Forall₂ (fun d decl => decodeFuncDecl codec {} d = .ok decl)
      (elems.flatMap declarationsOf) (slices.flatMap Slice.values) := by
    have hpairs := (forall₂_and_left _ _).mpr
      ⟨fun tool htool => And.intro (hstrict tool htool) (honly tool htool), mapM_eq_ok.mp hdecode⟩
    exact rel_flatMap hpairs fun tool slice h => declarations_of_decodeTool h.1.1 h.2 h.1.2
  have hread : Forall₂ (DeclarationRead codec) (elems.flatMap declarationsOf) ts :=
    Align.forall₂_trans (fun _ decl _ h h' => ⟨decl, h, h'⟩) hdecls (mapM_eq_ok.mp hunmarshal)
  rw [declarations_buildTools, forall₂_map_right_iff]
  refine Align.forall₂_iff_forall hread fun d hd t ht => declaration_iff ?_ ht
  obtain ⟨tool, htool, hd⟩ := mem_flatMap.mp hd
  exact strict_declarationsOf (hstrict tool htool) d hd

end tools

end ToranaEdge.Format.Gemini
