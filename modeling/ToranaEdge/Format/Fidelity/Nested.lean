import ToranaEdge.Format.Fidelity.Kept

/-! # Nested elements of a tool result

An element that reads as text keeps its text and its cache member; any other
keeps all it has.  The content of a tool result is followed element by element
through the loop that writes it. -/

namespace ToranaEdge.Format.Anthropic

open Engine Attempt List AList

/-! ## One element -/

variable {members : Entries}

/-- The type and the cache member of an unmodelled arm are set on what remains of it. -/
lemma lookup_unknown {names : List String} {kind key : String} :
    ((withoutMembers names members.toAList).insert "type" (.str kind)).lookup key =
      if key = "type" then some (.str kind)
      else if key ∈ names then none else members.dlookup key := by
  by_cases hkey : key = "type"
  · subst hkey
    rw [if_pos rfl, lookup_insert]
  · rw [if_neg hkey, lookup_insert_ne hkey, lookup_withoutMembers, lookup_to_alist]

lemma lookup_textMembers (text key : String) : (textMembers text).lookup key =
      if key = "type" then some (.str "text")
      else if key = "text" then some (.str text) else none := by
  rw [textMembers, lookup_structMembers _ _ (by simp)]
  by_cases htype : key = "type"
  · subst htype
    rfl
  by_cases htext : key = "text"
  · subst htext
    rfl
  have hlookup : lookup key
      [("type", some (Json.str "text")), ("text", some (.str text))] = none := by
    simp [htype, htext]
  rw [hlookup, if_neg htype, if_neg htext]
  rfl

/-- What a nested element is written as, its cache member apart. -/
def sentNested (members : Entries) : Members :=
  match nestedText members.toAList with
  | some text => textMembers text
  | none =>
    (withoutMembers unknownNames members.toAList).insert "type" (.str (nestedKind members.toAList))

/-- A cache member set on what is written. -/
def withCache (marker : Option Json) (out : Members) : Members :=
  match marker with
  | none => out
  | some v => out.insert "cache_control" v

lemma lookup_withCache {marker : Option Json} {out : Members} {key : String}
    (hnone : out.lookup "cache_control" = none) : (withCache marker out).lookup key =
      if key = "cache_control" then marker else out.lookup key := by
  cases marker with
  | none =>
    by_cases hkey : key = "cache_control"
    · rw [hkey]
      exact hnone
    · rw [if_neg hkey]
      rfl
  | some v =>
  by_cases hkey : key = "cache_control"
  · rw [hkey]
    exact lookup_insert _
  · rw [if_neg hkey]
    exact lookup_insert_ne hkey

lemma lookup_cache_sentNested (members : Entries) :
    (sentNested members).lookup "cache_control" = none := by
  unfold sentNested
  split
  · rw [lookup_textMembers, if_neg (by decide), if_neg (by decide)]
  · rw [lookup_unknown, if_neg (by decide), if_pos (by decide)]

lemma nestedType_of_str {t : String}
    (h : members.dlookup "type" = some (.str t)) : nestedType members.toAList = t := by
  have hlookup : members.toAList.lookup "type" = some (.str t) := by
    rw [lookup_to_alist, h]
  simp [nestedType, hlookup]

/-- Where an element reads as text, its type is text or says nothing. -/
lemma nestedType_of_nestedText {members : Members} {text : String}
    (h : nestedText members = some text) : (nestedType members = "text" ∨ nestedType members = "") ∧
      members.lookup "text" = some (.str text) := by
  unfold nestedText at h
  split at h
  case isFalse => cases h
  case isTrue htype =>
    refine ⟨htype, ?_⟩
    split at h
    case h_1 t hlookup =>
      cases h
      exact hlookup
    case h_2 => cases h

variable {codec : WireCodec}

lemma nestedPlain_iff (hnodup : members.NodupKeys) : FlatKept codec (.obj members)
        (withCache (members.dlookup "cache_control") (sentNested members)).json ↔
      NestedPlain members := by
  rw [flatKept_iff hnodup]
  simp only [lookup_withCache (lookup_cache_sentNested members)]
  unfold sentNested NestedPlain
  cases htext : nestedText members.toAList with
  | some text =>
    obtain ⟨htype, hlookup⟩ := nestedType_of_nestedText htext
    rw [lookup_to_alist] at hlookup
    rw [onlyNames_iff hnodup]
    constructor
    · intro h
      constructor
      · intro v hv
        obtain ⟨w, hw, hsame⟩ := h "type" v hv
        cases hw
        exact ⟨"text", sameJson_str_right.mp hsame, by decide⟩
      · intro _ key v hv
        obtain ⟨w, hw, -⟩ := h key v hv
        by_contra hkey
        simp only [systemNames, mem_cons, not_or] at hkey
        simp [hkey, lookup_textMembers] at hw
    · rintro ⟨hplain, honly⟩ key v hv
      have hkey := honly rfl key v hv
      simp only [systemNames, mem_cons, not_mem_nil, or_false] at hkey
      rcases hkey with rfl | rfl | rfl
      · obtain ⟨t, rfl, hne⟩ := hplain v hv
        rw [nestedType_of_str (Option.mem_def.mp hv)] at htype
        obtain rfl : t = "text" := htype.resolve_right hne
        exact ⟨.str "text", by simp [lookup_textMembers], .refl _⟩
      · rw [hlookup] at hv
        cases hv
        exact ⟨.str text, by simp [lookup_textMembers], .refl _⟩
      · exact ⟨v, by simpa using hv, .refl _⟩
  | none =>
    simp only [lookup_unknown]
    constructor
    · intro h
      refine ⟨?_, by simp⟩
      intro v hv
      obtain ⟨w, hw, hsame⟩ := h "type" v hv
      cases hw
      have hv' := sameJson_str_right.mp hsame
      subst hv'
      refine ⟨_, rfl, ?_⟩
      unfold nestedKind
      split
      · decide
      · assumption
    · rintro ⟨hplain, -⟩ key v hv
      by_cases hcache : key = "cache_control"
      · subst hcache
        exact ⟨v, by simpa using hv, .refl _⟩
      by_cases htypeKey : key = "type"
      · subst htypeKey
        obtain ⟨t, rfl, hne⟩ := hplain v hv
        have hkind : nestedKind members.toAList = t := by
          rw [nestedKind, nestedType_of_str (Option.mem_def.mp hv), if_neg hne]
        exact ⟨.str t, by rw [if_neg hcache, if_pos rfl, hkind], .refl _⟩
      refine ⟨v, ?_, .refl _⟩
      rw [if_neg hcache, if_neg htypeKey, if_neg (by simp [unknownNames, hcache, htypeKey])]
      exact hv

variable {out res : List Members} {rest : List ToolResultContentBlock} {i : Nat} {v : Json}
  {contents : List (List ToolResultContentBlock)} {vs : List Json}

/-- The element itself: it is appended as `sentNested` says. -/
lemma nestedLoop_elem {elem : ToolResultContentBlock}
    (hread : nestedElement codec (.obj members) = .ok elem)
    (hloop : nestedLoop codec i out (elem :: rest) = .ok res) :
    nestedLoop codec (i + 1) (out ++ [sentNested members]) rest = .ok res := by
  unfold nestedElement at hread
  unfold sentNested
  cases htext : nestedText members.toAList with
  | some text =>
    simp only [htext] at hread
    cases hread
    rw [nestedLoop, if_pos (by simp [nestedIsText])] at hloop
    exact hloop
  | none =>
  simp only [htext] at hread
  obtain ⟨payload, hpayload, hread⟩ := bind_eq_ok.mp hread
  cases hread
  cases context_eq_ok.mp hpayload
  obtain ⟨sent, hsent, hloop⟩ := bind_eq_ok.mp hloop
  unfold nestedUnknown at hsent
  split at hsent
  · cases hsent
  split at hsent <;> cases hsent
  exact hloop

/-- The breakpoint after it: the cache member is set on the element before. -/
lemma nestedLoop_marker {codec : Codec} {w : Members} {marker : CacheBreakpointBlock}
    {rest : List ToolResultContentBlock} {i : Nat} (hnone : w.lookup "cache_control" = none) :
    nestedLoop codec (i + 1) (out ++ [w]) ({ cacheBreakpoint := some marker } :: rest) =
      nestedLoop codec (i + 2) (out ++ [w.insert "cache_control" marker.marker.members.json])
        rest := by
  rw [nestedLoop, if_neg (by simp [nestedIsText])]
  simp [closeNested, hnone]

/-- One step of the nested loop: an element and the breakpoint after it become one
element, which keeps what it had exactly when it is plain. -/
lemma nestedLoop_element {elems : List ToolResultContentBlock} (hstrict : strictJson v = true)
    (hread : nestedContentToEngine codec v = .ok elems)
    (hloop : nestedLoop codec i out (elems ++ rest) = .ok res) :
    ∃ w j, nestedLoop codec j (out ++ [w]) rest = .ok res ∧
      Written (FlatKept codec) NestedPlain v (some w.json) := by
  obtain ⟨elem, helem, marker, hmarker, hread⟩ := bind₂_eq_ok.mp hread
  cases hread
  cases v with
  | null | bool _ | num _ | str _ | arr _ => cases helem
  | obj members =>
  obtain ⟨hnodup, hvalues⟩ := strictJson_obj.mp hstrict
  have hloop := nestedLoop_elem helem hloop
  have hplain := @nestedPlain_iff members codec hnodup
  have hcache : nestedMarker (.obj members) = members.dlookup "cache_control" := lookup_to_alist _
  rw [hcache] at hmarker
  cases hlookup : members.dlookup "cache_control" with
  | none =>
    rw [hlookup] at hmarker hplain
    cases hmarker
    exact ⟨sentNested members, i + 1, hloop, members, rfl, hplain⟩
  | some c =>
  rw [hlookup] at hmarker hplain
  obtain ⟨parsed, hparse, rfl⟩ := map_eq_ok.mp hmarker
  have hjson := parseRequired_eq_ok (context_eq_ok.mp hparse)
    (hvalues _ (of_mem_dlookup hlookup))
  have hclose := @nestedLoop_marker out codec (sentNested members) ⟨parsed⟩ rest i
    (lookup_cache_sentNested members)
  refine ⟨withCache (some c) (sentNested members), i + 2, ?_, members, rfl, hplain⟩
  rw [withCache, ← hjson, ← hclose]
  exact hloop

/-- The whole nested loop, element by element. -/
lemma nestedLoop_elements (hstrict : ∀ v ∈ vs, strictJson v = true)
    (hread : vs.mapM (nestedContentToEngine codec) = .ok contents)
    (hloop : nestedLoop codec i out contents.flatten = .ok res) :
    ∃ ws : List Members, res = out ++ ws ∧
      Forall₂ (Written (FlatKept codec) NestedPlain) vs ((ws.map Members.json).map some) := by
  replace hread := mapM_eq_ok.mp hread
  induction hread generalizing i out with
  | nil =>
    cases hloop
    exact ⟨[], by simp, .nil⟩
  | cons helems _ ih =>
  rw [forall_mem_cons] at hstrict
  obtain ⟨w, j, hloop, hfirst⟩ := nestedLoop_element hstrict.1 helems hloop
  obtain ⟨ws, rfl, hrest⟩ := ih hstrict.2 hloop
  exact ⟨w :: ws, by simp, .cons hfirst hrest⟩

lemma textArray_textMembers (s : String) : TextArray s (.arr [(textMembers s).json]) := by
  refine ⟨(textMembers s).entries, rfl, ?_, ?_⟩
  · show (textMembers s).lookup "type" = _
    simp [lookup_textMembers]
  · show (textMembers s).lookup "text" = _
    simp [lookup_textMembers]

/-- Every element that is read is there. -/
lemma flatten_isEmpty_of_read (h : (v :: vs).mapM (nestedContentToEngine codec) = .ok contents) :
    contents.flatten.isEmpty = false := by
  have hforall := mapM_eq_ok.mp h
  rw [forall₂_cons_left_iff] at hforall
  obtain ⟨elems, contents, helems, -, rfl⟩ := hforall
  obtain ⟨elem, -, marker, -, helems⟩ := bind₂_eq_ok.mp helems
  cases helems
  rfl

/-- The content of a tool result, from the member it is read from to what is written. -/
lemma resultContent_iff {w : Json} {read : Option Json} {content : List ToolResultContentBlock}
    (hstrict : strictJson v = true) (hdecode : decodeBlockContent codec (some v) = .ok read)
    (hread : resultContent codec read = .ok content)
    (hsent : marshalNestedContent codec content = .ok w) : ContentKept codec (FlatKept codec) v w ↔
      (∃ s, v = .str s) ∨ ∃ elems, v = .arr elems ∧ elems ≠ [] ∧
        ∀ members, .obj members ∈ elems → NestedPlain members := by
  cases v with
  | bool _ | num _ | obj _ => cases hdecode
  | null =>
    cases hdecode
    cases hread
    cases hsent
    apply iff_of_false
    · rintro ((h | ⟨_, _, h, -⟩) | ⟨_, h, -⟩)
      · cases sameJson_null.mp h
      · cases h
      · cases h
    · rintro (⟨_, h⟩ | ⟨_, h, -⟩)
      · cases h
      · cases h
  | str s =>
    cases hdecode
    cases hread
    have hw : w = .arr [(textMembers s).json] := by
      rw [marshalNestedContent, nestedLoop, if_pos (by simp [nestedIsText])] at hsent
      cases hsent
      rfl
    subst hw
    exact iff_of_true (.inr ⟨s, rfl, textArray_textMembers s⟩) (.inl ⟨s, rfl⟩)
  | arr elems =>
    have hdecoded : read = some (.arr elems) := by
      simp only [decodeBlockContent] at hdecode
      split at hdecode <;> cases hdecode
      rfl
    subst hdecoded
    obtain ⟨contents, hcontents, hread⟩ := bind_eq_ok.mp hread
    cases hread
    cases elems with
    | nil =>
      -- no element at all is written as one empty text
      cases hcontents
      cases hsent
      apply iff_of_false
      · rintro ((h | ⟨_, _, hvs, hws, h⟩) | ⟨_, h, -⟩)
        · cases h with
          | arr h => cases h
        · cases hvs
          cases hws
          cases h
        · cases h
      · rintro (⟨_, h⟩ | ⟨_, h, hne, -⟩)
        · cases h
        · cases h
          exact hne rfl
    | cons v vs =>
      rw [flatten_isEmpty_of_read hcontents] at hsent
      obtain ⟨res, hloop, hsent⟩ := bind_eq_ok.mp hsent
      obtain ⟨_, rfl, hwritten⟩ := nestedLoop_elements (strictJson_arr.mp hstrict) hcontents hloop
      have hkept := arrayKept_written_iff flatKept_of_sameJson (strictJson_arr.mp hstrict) hwritten
      rw [filterMap_map_some] at hkept
      cases res with
      | nil => cases hwritten
      | cons w ws =>
      cases hsent
      rw [contentKept_arr_iff]
      refine hkept.trans ?_
      simp

end ToranaEdge.Format.Anthropic
