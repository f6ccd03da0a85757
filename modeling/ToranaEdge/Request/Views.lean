import ToranaEdge.Request.Preimages

/-! # A request from the views of its sections

No section sees a whole request.  The role view drops cache markers,
trailing carriers, tokens and tool-result content; the cache and text
sections see markers and texts with their places; the content and error
sections see tool results in encounter order.  This file puts the views back
together: requests all of whose sections agree have the same messages and
tools, tokens and trailing carriers apart.

The argument needs the SDK's rule that a trailing-signature block is the
last of its message; otherwise a trailing carrier would shift the places of
the blocks after it. -/

namespace ToranaEdge

open Framing List Align ChatRequest
open ToolResultContentBlock (declared textValue)

/-! ## What may not change -/

/-- The blocks of a message other than trailing carriers. -/
def Message.body (m : Message) : List RequestBlock :=
  m.blocks.filter fun b => (trailingBlock b).isNone

/-- A block's kind without its token. -/
def RequestBlockKind.untokened : RequestBlockKind → RequestBlockKind
  | .text b => .text { b with signature := "" }
  | .thinking b => .thinking { b with signature := "" }
  | .toolUse b => .toolUse { b with signature := "" }
  | .toolResult b => .toolResult { b with signature := "" }
  | .unknown b => .unknown { b with signature := "" }
  | kind => kind

/-- Every declared field of a block but its token. -/
def RequestBlock.core (b : RequestBlock) : RequestBlock :=
  { kind := b.kind.map fun k => k.untokened.declared }

def Message.core (m : Message) : Message :=
  { role := m.role, blocks := m.body.map RequestBlock.core }

/-- Every declared field of a request but tokens and trailing carriers. -/
def ChatRequest.core (req : ChatRequest) : ChatRequest :=
  { req with
    messages := req.messages.map Message.core
    tools := req.tools.map ToolDef.declared
    outputFormat := req.outputFormat.map OutputFormat.declared
    unknown := [] }

/-- The replacement validator's rule. -/
def Message.TrailingLast (m : Message) : Prop :=
  ∀ b ∈ m.blocks.dropLast, trailingBlock b = none

instance (m : Message) : Decidable m.TrailingLast :=
  inferInstanceAs (Decidable (∀ b ∈ m.blocks.dropLast, trailingBlock b = none))

/-! ## Places in the body -/

variable {m : Message}

/-- A trailing carrier that comes last leaves every other block in its place. -/
lemma Message.TrailingLast.blocks_eq (h : m.TrailingLast) :
    ∃ tail, m.blocks = m.body ++ tail ∧ ∀ b ∈ tail, (trailingBlock b).isSome = true := by
  rcases eq_nil_or_concat m.blocks with hnil | ⟨front, last, hblocks⟩
  · exact ⟨[], by simp [body, hnil], by simp⟩
  rw [concat_eq_append] at hblocks
  have hfront : ∀ b ∈ front, (trailingBlock b).isNone = true := by
    intro b hb
    have hnone := h b (by rw [hblocks, dropLast_concat]; exact hb)
    rw [hnone]
    rfl
  have hbody : m.body = front ++ [last].filter fun b => (trailingBlock b).isNone := by
    rw [body, hblocks, filter_append, filter_eq_self.mpr hfront]
  by_cases hlast : (trailingBlock last).isNone = true
  · rw [hbody, hblocks]
    simp [hlast]
  refine ⟨[last], ?_, ?_⟩
  · rw [hbody, hblocks]
    simp [hlast]
  · intro b hb
    rw [mem_singleton.mp hb]
    simpa [Option.isSome_iff_ne_none] using hlast

/-- What trailing carriers do not have is at the same place in the body. -/
lemma Message.TrailingLast.getElem?_bind {α : Type} (h : m.TrailingLast)
    {f : RequestBlock → Option α} (hf : ∀ b, (trailingBlock b).isSome = true → f b = none)
    (n : Nat) : m.blocks[n]?.bind f = m.body[n]?.bind f := by
  obtain ⟨tail, hblocks, htail⟩ := h.blocks_eq
  rw [hblocks]
  by_cases hn : n < m.body.length
  · rw [getElem?_append_left hn]
  have hle : m.body.length ≤ n := Nat.le_of_not_lt hn
  rw [getElem?_append_right hle, getElem?_eq_none hle]
  cases hget : tail[n - m.body.length]? with
  | none => rfl
  | some b => exact hf b (htail b (mem_of_getElem? hget))

lemma filterMap_body {α : Type} (m : Message) {f : RequestBlock → Option α}
    (hf : ∀ b, (trailingBlock b).isSome = true → f b = none) :
    m.body.filterMap f = m.blocks.filterMap f := by
  rw [Message.body, filterMap_filter]
  apply filterMap_congr
  intro b _
  by_cases hb : (trailingBlock b).isNone = true
  · rw [if_pos hb]
  · rw [if_neg hb, hf b (by simpa [Option.isSome_iff_ne_none] using hb)]

variable {b : RequestBlock}

/-- A trailing carrier is no marker, no tool result and nothing that is signed. -/
lemma trailingBlock_frame (h : (trailingBlock b).isSome = true) : b.cacheMarker = none ∧
    b.toolResult = none ∧ trailRef b = none ∧ ∀ binding : TokenBinding, binding.select b = none := by
  unfold trailingBlock at h
  split at h
  · exact ⟨rfl, rfl, rfl, fun binding => by cases binding <;> rfl⟩
  · cases h

/-! ## Nested content from its views -/

/-- A nested element as the content section sees it. -/
def itemView (c : ToolResultContentBlock) : Option ToolResultContentBlock :=
  if c.cacheMarker.isSome then none else some (maskText c).declared

lemma filterMap_itemView (content : List ToolResultContentBlock) :
    content.filterMap itemView = (maskedContent content).map declared := by
  rw [maskedContent, map_filterMap]
  apply filterMap_congr
  intro c _
  unfold itemView
  split <;> rfl

/-- An element is its marker, or its masked form with the text put back. -/
def itemOf (marker : Option Bytes) (view : Option ToolResultContentBlock) (text : Option String) :
    Option ToolResultContentBlock :=
  match marker, text with
  | some marker, _ => some { kind := some (.cacheBreakpoint { markerJson := marker }) }
  | none, some text => some { kind := some (.text { text }) }
  | none, none => view

lemma itemOf_self (c : ToolResultContentBlock) :
    itemOf c.cacheMarker (itemView c) c.textValue = some c.declared := by
  obtain ⟨kind, unknown⟩ := c
  cases kind with
  | none => rfl
  | some kind => cases kind <;> rfl

/-- Markers by place, masked content and texts by place determine the content. -/
lemma content_declared_eq {content content' : List ToolResultContentBlock}
    (hmarker : ∀ n : Nat, content[n]?.bind ToolResultContentBlock.cacheMarker =
      content'[n]?.bind ToolResultContentBlock.cacheMarker)
    (hmasked : (maskedContent content).map declared = (maskedContent content').map declared)
    (htext : ∀ n : Nat, content[n]?.bind textValue = content'[n]?.bind textValue) :
    content.map declared = content'.map declared := by
  have hkind : ∀ (l : List ToolResultContentBlock), ∀ c ∈ l,
      c.cacheMarker = none ↔ itemView c ≠ none := by
    intro l c _
    unfold itemView
    cases hc : c.cacheMarker <;> simp
  rw [← filterMap_itemView, ← filterMap_itemView] at hmasked
  have halign := forall₂_of_holes (hkind content) (hkind content') hmarker hmasked
  have hfull := forall₂_and_of_positions (P := fun c c' => c.textValue = c'.textValue) halign
    (by
      intro n c c' hc hc' _
      have hn := htext n
      rwa [hc, hc'] at hn)
  apply map_eq_iff_forall₂.mpr
  refine hfull.imp ?_
  rintro c c' ⟨⟨hm, hv⟩, ht⟩
  have heq := itemOf_self c
  rw [hm, hv, ht, itemOf_self c'] at heq
  exact (Option.some.inj heq).symm

/-! ## Blocks from their views -/

/-- A block as the role section sees it. -/
def blockView (b : RequestBlock) : Option RequestBlock :=
  (roleViewBlock b).map RequestBlock.declared

/-- What the role view hides of a tool result. -/
def resultDetail (result : RequestToolResultBlock) : List ToolResultContentBlock × Option Bool :=
  (result.content.map declared, result.isError)

/-- A tool result with its hidden detail put back. -/
def withDetail (detail : Option (List ToolResultContentBlock × Option Bool)) :
    RequestBlock → RequestBlock
  | { kind := some (.toolResult r), unknown } =>
    match detail with
    | some d => { kind := some (.toolResult { r with content := d.1, isError := d.2 }), unknown }
    | none => { kind := some (.toolResult r), unknown }
  | b => b

/-- A block is its marker, or its role view with the detail put back. -/
def blockOf (marker : Option Bytes) (view : Option RequestBlock)
    (detail : Option (List ToolResultContentBlock × Option Bool)) : Option RequestBlock :=
  match marker with
  | some marker => some { kind := some (.cacheBreakpoint { markerJson := marker }) }
  | none => view.map (withDetail detail)

lemma blockOf_self (h : (trailingBlock b).isNone = true) :
    blockOf b.cacheMarker (blockView b) (b.toolResult.map resultDetail) = some b.core := by
  obtain ⟨kind, unknown⟩ := b
  cases kind with
  | none => rfl
  | some kind =>
  cases kind with
  | trailingSignature t => cases h
  | _ => rfl

/-- The role view shows which blocks are tool results. -/
lemma isSome_toolResult (b : RequestBlock) :
    b.toolResult.isSome = ((blockView b).bind RequestBlock.toolResult).isSome := by
  obtain ⟨kind, unknown⟩ := b
  cases kind with
  | none => rfl
  | some kind => cases kind <;> rfl

lemma cacheMarker_eq_none_iff (h : (trailingBlock b).isNone = true) :
    b.cacheMarker = none ↔ blockView b ≠ none := by
  obtain ⟨kind, unknown⟩ := b
  cases kind with
  | none => simp [blockView, roleViewBlock, trailingBlock]
  | some kind =>
  cases kind with
  | trailingSignature t => cases h
  | _ => simp [blockView, roleViewBlock, trailingBlock]

/-! ## Messages from their views -/

/-- What equal sections say about two requests. -/
structure SameViews (req req' : ChatRequest) : Prop where
  roleViews : (req.messages.map fun m => (roleViewMessage m).declared) =
    req'.messages.map fun m => (roleViewMessage m).declared
  carriers : cacheCarriers req = cacheCarriers req'
  texts : toolTexts req = toolTexts req'
  masked : (req.toolResults.map fun r => (maskedContent r.content).map declared) =
    req'.toolResults.map fun r => (maskedContent r.content).map declared
  errors : req.toolResults.map RequestToolResultBlock.isError =
    req'.toolResults.map RequestToolResultBlock.isError
  tools : req.tools.map ToolDef.unmarked = req'.tools.map ToolDef.unmarked

section views

variable {req req' : ChatRequest}

lemma SameViews.marker (h : SameViews req req') (i bi : Nat) :
    (req.blockAt i bi).bind RequestBlock.cacheMarker =
      (req'.blockAt i bi).bind RequestBlock.cacheMarker := by
  apply Option.ext
  intro marker
  rw [← mem_cacheCarriers_block, ← mem_cacheCarriers_block, h.carriers]

lemma SameViews.itemMarker (h : SameViews req req') (i bi ci : Nat) :
    (req.itemAt i bi ci).bind ToolResultContentBlock.cacheMarker =
      (req'.itemAt i bi ci).bind ToolResultContentBlock.cacheMarker := by
  apply Option.ext
  intro marker
  rw [← mem_cacheCarriers_nested, ← mem_cacheCarriers_nested, h.carriers]

lemma SameViews.itemText (h : SameViews req req') (i bi ci : Nat) :
    (req.itemAt i bi ci).bind textValue = (req'.itemAt i bi ci).bind textValue := by
  apply Option.ext
  intro text
  have hmem : (⟨i, bi, ci, text⟩ : TextPlace) ∈ toolTexts req ↔
      (⟨i, bi, ci, text⟩ : TextPlace) ∈ toolTexts req' := by rw [h.texts]
  rwa [mem_toolTexts, mem_toolTexts] at hmem

/-- The nested element of a block. -/
def RequestBlock.item (b : RequestBlock) (ci : Nat) : Option ToolResultContentBlock :=
  b.toolResult.bind fun result => result.content[ci]?

/-- Two blocks the place-bound views cannot tell apart. -/
structure SameShown (b b' : RequestBlock) : Prop where
  plain : (trailingBlock b).isNone = true
  plain' : (trailingBlock b').isNone = true
  marker : b.cacheMarker = b'.cacheMarker
  view : blockView b = blockView b'
  itemMarker : ∀ ci, (b.item ci).bind ToolResultContentBlock.cacheMarker =
    (b'.item ci).bind ToolResultContentBlock.cacheMarker
  itemText : ∀ ci, (b.item ci).bind textValue = (b'.item ci).bind textValue

lemma SameShown.isSome_toolResult {b b' : RequestBlock} (h : SameShown b b') :
    b.toolResult.isSome = b'.toolResult.isSome := by
  rw [ToranaEdge.isSome_toolResult b, ToranaEdge.isSome_toolResult b', h.view]

/-- With the masked content and the error flag, nothing of a block is left out. -/
lemma SameShown.core_eq {b b' : RequestBlock} (h : SameShown b b')
    (hmasked : (b.toolResult.map fun r => (maskedContent r.content).map declared) =
      b'.toolResult.map fun r => (maskedContent r.content).map declared)
    (herror : b.toolResult.map RequestToolResultBlock.isError =
      b'.toolResult.map RequestToolResultBlock.isError) : b.core = b'.core := by
  have hdetail : b.toolResult.map resultDetail = b'.toolResult.map resultDetail := by
    have hmarker := h.itemMarker
    have htext := h.itemText
    unfold RequestBlock.item at hmarker htext
    cases hr : b.toolResult with
    | none =>
      cases hr' : b'.toolResult with
      | none => rfl
      | some r' => simp [hr, hr'] at herror
    | some r =>
    cases hr' : b'.toolResult with
    | none => simp [hr, hr'] at herror
    | some r' =>
    rw [hr, hr'] at hmasked herror
    simp only [hr, hr'] at hmarker htext
    simp only [Option.map_some, Option.some.injEq] at hmasked herror
    simp [resultDetail, herror, content_declared_eq hmarker hmasked htext]
  have heq := blockOf_self h.plain
  rw [h.marker, h.view, hdetail, blockOf_self h.plain'] at heq
  exact (Option.some.inj heq).symm

lemma filterMap_blockView (m : Message) :
    m.body.filterMap blockView = (roleViewMessage m).declared.blocks := by
  have hnone : ∀ b, (trailingBlock b).isSome = true → blockView b = none := by
    intro b hb
    simp [blockView, roleViewBlock, hb]
  rw [filterMap_body m hnone]
  show _ = (m.blocks.filterMap roleViewBlock).map RequestBlock.declared
  rw [map_filterMap]
  rfl

lemma getElem?_of_body (h : m.TrailingLast) {n : Nat}
    (hb : m.body[n]? = some b) : m.blocks[n]? = some b := by
  obtain ⟨tail, hblocks, -⟩ := h.blocks_eq
  rw [hblocks]
  exact getElem?_append_left (List.getElem?_eq_some_iff.mp hb).1 ▸ hb

lemma isNone_of_mem_body (h : b ∈ m.body) : (trailingBlock b).isNone = true := (mem_filter.mp h).2

/-- Messages at one place show the same body. -/
lemma SameViews.body (h : SameViews req req') {i : Nat} {m m' : Message}
    (hm : req.messages[i]? = some m) (hm' : req'.messages[i]? = some m') (hlast : m.TrailingLast)
    (hlast' : m'.TrailingLast)
    (hview : (roleViewMessage m).declared = (roleViewMessage m').declared) :
    Forall₂ SameShown m.body m'.body := by
  have hat : ∀ bi, req.blockAt i bi = m.blocks[bi]? := by
    intro bi
    rw [blockAt, hm, Option.bind_some]
  have hat' : ∀ bi, req'.blockAt i bi = m'.blocks[bi]? := by
    intro bi
    rw [blockAt, hm', Option.bind_some]
  have hkind : ∀ l : Message, ∀ b ∈ l.body, b.cacheMarker = none ↔ blockView b ≠ none :=
    fun _ b hb => cacheMarker_eq_none_iff (isNone_of_mem_body hb)
  have hmarker : ∀ n : Nat, m.body[n]?.bind RequestBlock.cacheMarker =
      m'.body[n]?.bind RequestBlock.cacheMarker := by
    intro n
    have hn := h.marker i n
    rwa [hat, hat', hlast.getElem?_bind (fun _ hb => (trailingBlock_frame hb).1),
      hlast'.getElem?_bind (fun _ hb => (trailingBlock_frame hb).1)] at hn
  have hviews : m.body.filterMap blockView = m'.body.filterMap blockView := by
    rw [filterMap_blockView, filterMap_blockView, hview]
  have halign := forall₂_of_holes (hkind m) (hkind m') hmarker hviews
  have hshown := forall₂_and_of_positions (P := SameShown) halign (by
    intro n b b' hb hb' hR
    have hitem : ∀ ci, req.itemAt i n ci = b.item ci := by
      intro ci
      rw [itemAt, hat, getElem?_of_body hlast hb]
      rfl
    have hitem' : ∀ ci, req'.itemAt i n ci = b'.item ci := by
      intro ci
      rw [itemAt, hat', getElem?_of_body hlast' hb']
      rfl
    exact
      { plain := isNone_of_mem_body (mem_of_getElem? hb)
        plain' := isNone_of_mem_body (mem_of_getElem? hb')
        marker := hR.1
        view := hR.2
        itemMarker := fun ci => by rw [← hitem, ← hitem', h.itemMarker]
        itemText := fun ci => by rw [← hitem, ← hitem', h.itemText] })
  exact hshown.imp fun _ _ hbb => hbb.2

lemma toolResults_eq_bodies (req : ChatRequest) :
    req.toolResults = (req.messages.map Message.body).flatten.filterMap RequestBlock.toolResult := by
  rw [toolResults, blocks, filterMap_flatMap, filterMap_flatten, map_map]
  congr 1
  funext m
  exact (filterMap_body m fun _ hb => (trailingBlock_frame hb).2.1).symm

/-- **The bodies agree** in every declared field but the tokens. -/
theorem SameViews.messages_core (h : SameViews req req')
    (hlast : ∀ m ∈ req.messages, m.TrailingLast) (hlast' : ∀ m ∈ req'.messages, m.TrailingLast) :
    req.messages.map Message.core = req'.messages.map Message.core := by
  have hmessages := map_eq_iff_forall₂.mp h.roleViews
  have hbody := forall₂_and_of_positions
    (P := fun m m' => Forall₂ SameShown m.body m'.body) hmessages (by
      intro i m m' hm hm' hview
      exact h.body hm hm' (hlast m (mem_of_getElem? hm)) (hlast' m' (mem_of_getElem? hm'))
        hview)
  have hbodies : Forall₂ (Forall₂ SameShown) (req.messages.map Message.body)
      (req'.messages.map Message.body) := by
    rw [forall₂_map_left_iff, forall₂_map_right_iff]
    exact hbody.imp fun _ _ hmm => hmm.2
  -- the encounter-order sections run through all bodies
  have hmasked := h.masked
  have herrors := h.errors
  rw [toolResults_eq_bodies req, toolResults_eq_bodies req'] at hmasked herrors
  have hfirst := forall₂_forall₂_and_of_filterMap
    (fun _ _ hbb => SameShown.isSome_toolResult hbb) hbodies hmasked
  have hsecond := forall₂_forall₂_and_of_filterMap
    (fun _ _ hbb => SameShown.isSome_toolResult hbb.1) hfirst herrors
  have hcores : Forall₂ (fun l l' : List RequestBlock =>
      l.map RequestBlock.core = l'.map RequestBlock.core) (req.messages.map Message.body)
      (req'.messages.map Message.body) := by
    refine hsecond.imp fun l l' hl => map_eq_iff_forall₂.mpr (hl.imp ?_)
    rintro b b' ⟨⟨hshown, hmask⟩, herror⟩
    exact hshown.core_eq hmask herror
  rw [forall₂_map_left_iff, forall₂_map_right_iff] at hcores
  have hroles : Forall₂ (fun m m' : Message => m.role = m'.role) req.messages req'.messages :=
    hmessages.imp fun m m' hmm => congrArg Message.role hmm
  apply map_eq_iff_forall₂.mpr
  refine (hroles.mp (fun _ _ => And.intro) hcores).imp ?_
  rintro m m' ⟨hrole, hcore⟩
  rw [Message.core, Message.core, hrole, hcore]

/-- **The tools agree**, cache markers included. -/
theorem SameViews.tools_declared (h : SameViews req req') :
    req.tools.map ToolDef.declared = req'.tools.map ToolDef.declared := by
  have htools := map_eq_iff_forall₂.mp h.tools
  have hmarked := forall₂_and_of_positions
    (P := fun t t' => t.cacheControlJson = t'.cacheControlJson) htools (by
      intro i t t' ht ht' _
      have hmem : ∀ marker, CacheCarrier.tool i marker ∈ cacheCarriers req ↔
          CacheCarrier.tool i marker ∈ cacheCarriers req' := by
        intro marker
        rw [h.carriers]
      simp only [mem_cacheCarriers_tool, ht, ht', Option.map_some, Option.some.injEq] at hmem
      by_cases hempty : t.cacheControlJson = []
      · by_contra hne
        have hne' : t'.cacheControlJson ≠ [] := fun hnil => hne (hempty.trans hnil.symm)
        exact hne ((hmem t'.cacheControlJson).mpr ⟨hne', rfl⟩).2
      · exact ((hmem t.cacheControlJson).mp ⟨hempty, rfl⟩).2.symm)
  apply map_eq_iff_forall₂.mpr
  refine hmarked.imp ?_
  rintro ⟨n, d, p, s, c, k, f, ns, u⟩ ⟨n', d', p', s', c', k', f', ns', u'⟩ ⟨hun, hcache⟩
  simp only [ToolDef.unmarked, ToolDef.mk.injEq] at hun
  simp only at hcache
  simp [ToolDef.declared, hun, hcache]

end views

end ToranaEdge
