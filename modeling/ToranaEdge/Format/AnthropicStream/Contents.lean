import ToranaEdge.Format.AnthropicStream.Grouping

/-! # What the blocks of a relayed stream hold

The relayed blocks hold the deltas alone: what a block starts with is lost, but
for a signature that a delta replaces. -/

namespace ToranaEdge.Format.Anthropic

open Client List

variable {c c' : Client} {last : Option LastBlock} {frame : Frame}
variable {before content : List Frame} {bare : List BlockBody}

/-- A block starts empty, but for a signature that a delta replaces. -/
def StartsEmpty (last : Option LastBlock) : Frame → Prop
  | .contentBlockStart _ (.text initial) => initial = ""
  | .contentBlockStart _ (.thinking initial _) => initial = ""
  | .contentBlockStop _ => ∀ l initial signature, last = some l →
      l.opening = .thinking initial signature → signature = "" ∨ ∃ token, .signature token ∈ l.deltas
  | _ => True

/-- The last block still has the signature it started with. -/
def Unsigned (last : Option LastBlock) (signature : String) : Prop :=
  ∃ l initial, last = some l ∧ l.opening = .thinking initial signature ∧ l.stopped = false ∧
    ∀ token, .signature token ∉ l.deltas

/-- The contents are the same, but for that signature. -/
structure Agrees (last : Option LastBlock) (bodies bare : List BlockBody) : Prop where
  unsigned : ∀ signature, Unsigned last signature →
    ∃ pre thinking, bodies = pre ++ [.thinking thinking signature] ∧
      bare = pre ++ [.thinking thinking ""]
  others : (∀ signature, ¬ Unsigned last signature) → bodies = bare

lemma agrees_start (usage : Engine.StreamUsage) :
    Agrees (lastBlock []) (bodies { phase := .content, usage }) [] where
  unsigned := by
    rintro signature ⟨l, initial, hl, -⟩
    cases hl
  others _ := rfl

/-- The content of a block after a delta. -/
def BlockBody.addD (body : BlockBody) (delta : BlockDelta) : BlockBody := (body.add delta).getD body

/-- Two contents that no delta makes equal. -/
def Clash : BlockBody → BlockBody → Prop
  | .text a, .text b => b.length < a.length
  | .thinking a _, .thinking b _ => b.length < a.length
  | _, _ => False

lemma Clash.addD {x y : BlockBody} (h : Clash x y) (delta : BlockDelta) :
    Clash (x.addD delta) (y.addD delta) := by
  match x, y with
  | .text a, .text b =>
    cases delta with
    | text more =>
      show (b ++ more).length < (a ++ more).length
      rw [String.length_append, String.length_append]
      exact Nat.add_lt_add_right h _
    | thinking _ | signature _ | inputJson _ => exact h
  | .thinking a s, .thinking b t =>
    cases delta with
    | text _ => exact h
    | thinking more =>
      show (b ++ more).length < (a ++ more).length
      rw [String.length_append, String.length_append]
      exact Nat.add_lt_add_right h _
    | signature _ | inputJson _ => exact h
  | .text _, .thinking _ _ | .text _, .toolUse _ _ _ | .thinking _ _, .text _
  | .thinking _ _, .toolUse _ _ _ | .toolUse _ _ _, .text _ | .toolUse _ _ _, .thinking _ _
  | .toolUse _ _ _, .toolUse _ _ _ => exact h.elim

lemma Clash.ne {x y : BlockBody} (h : Clash x y) : x ≠ y := by
  rintro rfl
  match x with
  | .text _ | .thinking _ _ => exact Nat.lt_irrefl _ h
  | .toolUse _ _ _ => exact h

/-- Some block has a content that will not become the native one. -/
def Differs (c : Client) (bare : List BlockBody) : Prop :=
  ∃ (n : Nat) (x y : BlockBody), c.bodies[n]? = some x ∧ bare[n]? = some y ∧
    (Clash x y ∨ x ≠ y ∧ c.openBlock n = none)

lemma getElem?_addAt (n m : Nat) (delta : BlockDelta) (bodies : List BlockBody) :
    (addAt n delta bodies)[m]? =
      if n = m then bodies[m]?.map (fun body => body.addD delta) else bodies[m]? := by
  rw [addAt, getElem?_modify]
  split <;> simp [BlockBody.addD]

lemma Differs.step (h : Differs c bare) (hcontent : IsContent frame)
    (htake : c.take frame = some c') : Differs c' (bareAfter bare frame) := by
  obtain ⟨n, x, y, hx, hy, hxy⟩ := h
  have hbodies := bodies_of_take htake
  cases hcontent with
  | ping =>
    cases of_take_ping htake
    exact ⟨n, x, y, hx, hy, hxy⟩
  | start index opening =>
    obtain ⟨-, hopen⟩ := openBlock_start htake
    obtain ⟨-, hindex, -⟩ := of_take_start htake
    have hlt := (List.getElem?_eq_some_iff.mp hx).1
    rw [length_bodies] at hlt
    refine ⟨n, x, y, ?_, Rendered.getElem?_append_of_some hy, ?_⟩
    · rw [hbodies]
      exact Rendered.getElem?_append_of_some hx
    · rw [hopen, if_neg (by omega)]
      exact hxy
  | delta index delta =>
    obtain ⟨body, _, hbody, -, -, hopen⟩ := openBlock_delta htake
    obtain ⟨k, rfl, -⟩ := openBlock_eq_some.mp hbody
    by_cases hn : k = n
    · subst hn
      -- the block is open, so the clash is for good
      rcases hxy with hclash | ⟨-, hclosed⟩
      · refine ⟨k, x.addD delta, y.addD delta, ?_, ?_, .inl (hclash.addD delta)⟩
        · rw [hbodies]
          show (addAt k delta c.bodies)[k]? = _
          rw [getElem?_addAt, if_pos rfl, hx]
          rfl
        · show (addAt k delta bare)[k]? = _
          rw [getElem?_addAt, if_pos rfl, hy]
          rfl
      · rw [hclosed] at hbody
        cases hbody
    · refine ⟨n, x, y, ?_, ?_, ?_⟩
      · rw [hbodies]
        show (addAt k delta c.bodies)[n]? = _
        rw [getElem?_addAt, if_neg hn, hx]
      · show (addAt k delta bare)[n]? = _
        rw [getElem?_addAt, if_neg hn, hy]
      · rw [hopen, if_neg (by omega)]
        exact hxy
  | stop index =>
    obtain ⟨body, -, hopen⟩ := openBlock_stop htake
    refine ⟨n, x, y, ?_, hy, ?_⟩
    · rw [hbodies]
      exact hx
    · rcases hxy with hclash | ⟨hne, hclosed⟩
      · exact .inl hclash
      · refine .inr ⟨hne, ?_⟩
        rw [hopen]
        split
        · rfl
        · exact hclosed

lemma Differs.ne (h : Differs c bare) : bare ≠ c.bodies := by
  rintro rfl
  obtain ⟨n, x, y, hx, hy, hxy⟩ := h
  cases hx.symm.trans hy
  rcases hxy with hclash | ⟨hne, -⟩
  · exact hclash.ne rfl
  · exact hne rfl

lemma addLast_concat (delta : BlockDelta) (pre : List BlockBody) (body : BlockBody) :
    addLast delta (pre ++ [body]) = pre ++ [body.addD delta] := by
  unfold addLast addAt
  rw [modify_eq_set_getElem?]
  simp [BlockBody.addD]

namespace Agrees

/-- When only tool calls are open, the contents are the same. -/
lemma of_start (h : Agrees last c.bodies bare) (hreads : Reads last c)
    (htools : ∀ i body, c.openBlock i = some body → body.kind = .toolUse) : c.bodies = bare := by
  refine h.others fun signature => ?_
  rintro ⟨l, initial, hl, hopening, hnot, -⟩
  have hkind : l.opening.kind ≠ .toolUse := by
    rw [hopening]
    nofun
  rw [hreads.stopped htools hl hkind] at hnot
  cases hnot

/-- The last block still has its signature, or the contents are the same. -/
lemma unsigned_or (h : Agrees last c.bodies bare) :
    (∃ signature pre thinking, Unsigned last signature ∧
      c.bodies = pre ++ [.thinking thinking signature] ∧ bare = pre ++ [.thinking thinking ""]) ∨
    (∀ signature, ¬ Unsigned last signature) ∧ c.bodies = bare := by
  by_cases hun : ∃ signature, Unsigned last signature
  · obtain ⟨signature, hun⟩ := hun
    obtain ⟨pre, thinking, hpre⟩ := h.unsigned signature hun
    exact .inl ⟨signature, pre, thinking, hun, hpre⟩
  · have hnone := not_exists.mp hun
    exact .inr ⟨hnone, h.others hnone⟩

lemma of_unsigned {signature : String} (hun : Unsigned last signature) (pre : List BlockBody)
    (thinking : String) :
    Agrees last (pre ++ [.thinking thinking signature]) (pre ++ [.thinking thinking ""]) where
  unsigned := by
    obtain ⟨l, initial, rfl, hopening, -⟩ := hun
    rintro signature' ⟨l', initial', hl', hopening', -⟩
    cases hl'
    cases hopening.symm.trans hopening'
    exact ⟨pre, thinking, rfl, rfl⟩
  others hnone := (hnone signature hun).elim

lemma of_same (hnone : ∀ signature, ¬ Unsigned last signature) : Agrees last bare bare where
  unsigned signature hun := (hnone signature hun).elim
  others _ := rfl

/-- **One frame**: a block that starts empty keeps the contents the same. -/
theorem step (h : Agrees last c.bodies bare) (hreads : Reads last c) (hcontent : IsContent frame)
    (hnative : takeNative c frame = some c') (hempty : StartsEmpty last frame) :
    Agrees (lastAfter last frame) c'.bodies (bareAfter bare frame) := by
  obtain ⟨horderly, htake⟩ := takeNative_eq_some.mp hnative
  rw [bodies_of_take htake]
  cases hcontent with
  | ping => exact h
  | start index opening =>
    have hsame := h.of_start hreads (openTools_of_orderly horderly)
    show Agrees (some { opening }) (c.bodies ++ [opening.body]) (bare ++ [opening.bare.body])
    rw [hsame]
    cases opening with
    | text initial =>
      cases (show initial = "" from hempty)
      exact of_same (by simp [Unsigned])
    | thinking initial signature =>
      cases (show initial = "" from hempty)
      exact of_unsigned ⟨_, "", rfl, rfl, rfl, by simp⟩ bare ""
    | toolUse _ _ => exact of_same (by simp [Unsigned])
  | delta index delta =>
    obtain ⟨body, _, hopen, hkind, -⟩ := openBlock_delta htake
    show Agrees _ (addAt index.toNat delta c.bodies) (addAt index.toNat delta bare)
    rcases h.unsigned_or with ⟨signature, pre, thinking, hun, hpre, hpre'⟩ | ⟨hnone, hsame⟩
    · obtain ⟨l, initial, hl, hopening, hnot, hdeltas⟩ := hun
      have hlkind : l.opening.kind = .thinking := by
        rw [hopening]
        rfl
      -- the delta is one of the last block
      obtain ⟨hlast, hlbody, -⟩ := hreads.only l hl (by simp [hlkind]) index body hopen
      have hindex : index.toNat = pre.length := by
        have hlength := length_bodies c
        rw [hpre, length_append, length_singleton] at hlength
        omega
      have hadd : ∀ last, addAt index.toNat delta (pre ++ [last]) = pre ++ [last.addD delta] := by
        intro last
        rw [← addLast_concat, addLast, length_append, length_singleton, hindex, Nat.add_sub_cancel]
      rw [hpre, hpre', hadd, hadd, hl]
      have hthinking := hkind.symm.trans (hlbody.trans hlkind)
      cases delta with
      | text _ | inputJson _ => cases hthinking
      | thinking more =>
        have hun : Unsigned (some { l with deltas := l.deltas ++ [.thinking more] }) signature :=
          ⟨_, initial, rfl, hopening, hnot, by simpa using hdeltas⟩
        exact of_unsigned hun pre (thinking ++ more)
      | signature token =>
        refine of_same ?_
        rintro signature' ⟨l', initial', hl', -, -, hdeltas'⟩
        cases hl'
        exact hdeltas' token (by simp)
    · rw [hsame]
      refine of_same ?_
      rintro signature ⟨l', initial, hl', hopening, hnot, hdeltas⟩
      obtain ⟨l, hl, rfl⟩ := Option.map_eq_some_iff.mp hl'
      refine hnone signature ⟨l, initial, hl, hopening, hnot, fun token hmem => ?_⟩
      exact hdeltas token (mem_append_left _ hmem)
  | stop index =>
    have hsame : c.bodies = bare := by
      rcases h.unsigned_or with ⟨signature, pre, thinking, hun, hpre, hpre'⟩ | ⟨-, hsame⟩
      · obtain ⟨l, initial, hl, hopening, -, hdeltas⟩ := hun
        rcases hempty l initial signature hl hopening with rfl | ⟨token, hmem⟩
        · rw [hpre, hpre']
        · exact (hdeltas token hmem).elim
      · exact hsame
    rw [hsame]
    refine of_same ?_
    rintro signature ⟨l', initial, hl', -, hnot, -⟩
    obtain ⟨l, -, rfl⟩ := Option.map_eq_some_iff.mp hl'
    cases hnot

/-- **One frame**: what a block starts with is lost for good. -/
theorem step_differs (h : Agrees last c.bodies bare) (hreads : Reads last c)
    (hnative : takeNative c frame = some c') (hempty : ¬ StartsEmpty last frame) :
    Differs c' (bareAfter bare frame) := by
  obtain ⟨horderly, htake⟩ := takeNative_eq_some.mp hnative
  have hbodies := bodies_of_take htake
  cases frame with
  | messageStart _ _ _ _ | messageDelta _ _ | messageStop | error _ | ping
  | contentBlockDelta _ _ => exact (hempty trivial).elim
  | contentBlockStart index opening =>
    have hsame := h.of_start hreads (openTools_of_orderly horderly)
    refine ⟨bare.length, opening.body, opening.bare.body, ?_, ?_, .inl ?_⟩
    · rw [hbodies, hsame]
      simp [bodiesAfter]
    · simp [bareAfter, Frame.bare, bodiesAfter]
    · cases opening with
      | text initial | thinking initial _ =>
        exact Nat.pos_of_ne_zero fun hzero => hempty (String.length_eq_zero_iff.mp hzero)
      | toolUse _ _ => exact (hempty trivial).elim
  | contentBlockStop index =>
    simp only [StartsEmpty, not_forall, not_or, not_exists] at hempty
    obtain ⟨l, initial, signature, hl, hopening, hsignature, hdeltas⟩ := hempty
    obtain ⟨body, hbody, hopen⟩ := openBlock_stop htake
    have hlkind : l.opening.kind ≠ .toolUse := by
      rw [hopening]
      rintro ⟨⟩
    obtain ⟨hlast, -, hnot⟩ := hreads.only l hl hlkind index body hbody
    obtain ⟨pre, thinking, hpre, hpre'⟩ :=
      h.unsigned signature ⟨l, initial, hl, hopening, hnot, hdeltas⟩
    have hlength : pre.length + 1 = c.blocks.length := by
      rw [← length_bodies, hpre]
      simp
    refine ⟨pre.length, .thinking thinking signature, .thinking thinking "", ?_, ?_, .inr ⟨?_, ?_⟩⟩
    · rw [hbodies]
      show c.bodies[pre.length]? = _
      rw [hpre]
      simp
    · show bare[pre.length]? = _
      rw [hpre']
      simp
    · simpa using hsignature
    · rw [hopen, if_pos (by omega)]

end Agrees

lemma Differs.run (h : Differs c bare) (hrun : ContentRun c content c') :
    Differs c' (content.foldl bareAfter bare) := by
  induction hrun generalizing bare with
  | nil => exact h
  | cons hframe hfirst _ ih => exact ih (h.step hframe (takeNative_eq_some.mp hfirst).2)

/-- **The contents** without what the blocks start with are those of the native
stream exactly when the blocks start empty. -/
theorem bare_eq_iff (h : Agrees (lastBlock before) c.bodies bare)
    (hreads : Reads (lastBlock before) c) (hrun : ContentRun c content c')
    (hstopped : c'.AllStopped) :
    content.foldl bareAfter bare = c'.bodies ↔ AtEachBlock StartsEmpty before content := by
  induction hrun generalizing bare before with
  | nil =>
    refine iff_of_true (h.of_start hreads ?_).symm Splits.atEach_nil
    intro i body hopen
    rw [openBlock_of_allStopped hstopped] at hopen
    cases hopen
  | @cons _ _ _ frame _ hframe hfirst hrest ih =>
  rw [atEachBlock_cons, foldl_cons]
  by_cases hhere : StartsEmpty (lastBlock before) frame
  · have hagrees := h.step hreads hframe hfirst hhere
    have hreads' := hreads.step hfirst hframe
    rw [← lastBlock_concat] at hagrees hreads'
    rw [ih hagrees hreads' hstopped]
    exact ⟨fun hthere => ⟨hhere, hthere⟩, And.right⟩
  · have hdiffers := (h.step_differs hreads hfirst hhere).run hrest
    exact iff_of_false hdiffers.ne (fun hboth => hhere hboth.1)

end ToranaEdge.Format.Anthropic
