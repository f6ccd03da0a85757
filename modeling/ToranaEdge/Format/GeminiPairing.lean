import ToranaEdge.Format.GeminiUnmarshal
import ToranaEdge.Format.Spelling
import ToranaEdge.Lib.Pairing

/-! # Calls and responses without ids

A call without an id is given a new one: the hash of its content with a counter
of that hash.  A response without an id takes that of the last call of its name,
so two calls of one name that are both waiting for a response have both answered
by the second's. -/

namespace ToranaEdge.Format.Gemini

open Engine Pairing Attempt List ToranaEdge.Splits Function

/-! ## Calls and responses of a body and of its messages -/

def WirePart.event (p : WirePart) : Option (Event String Unit) :=
  match p.functionResponse, p.functionCall with
  | some fr, _ => some (.reply fr.name ())
  | none, some fc => some (.call fc.name ())
  | none, none => none

/-- The calls and responses of a body, in the order of the wire. -/
def wireEvents (contents : List GeminiContent) : List (Event String Unit) :=
  (contents.flatMap GeminiContent.parts).filterMap WirePart.event

def blockEvent (b : Block) : Option (Event String String) :=
  match b.toolUse, b.toolResult with
  | some t, _ => some (.call t.name t.id)
  | none, some r => some (.reply r.toolName r.toolCallID)
  | none, none => none

def blockEvents (blocks : List Block) : List (Event String String) := blocks.filterMap blockEvent

/-- The calls and results of the canonical messages, with their ids. -/
def toolEvents (messages : List Message) : List (Event String String) :=
  blockEvents (messages.flatMap Message.blocks)

/-- No call and no response of the part carries an id. -/
def WirePart.NoID (p : WirePart) : Prop :=
  (∀ fc, p.functionCall = some fc → fc.id = "") ∧ ∀ fr, p.functionResponse = some fr → fr.id = ""

/-- An event without its id. -/
def named : Event String String → Event String Unit := Event.map fun _ => ()

/-! ## New ids -/

lemma length_hex (bytes : List UInt8) : (hex bytes).length = 2 * bytes.length := by
  induction bytes with
  | nil => rfl
  | cons b bytes ih =>
  simp only [hex, String.length_ofList, flatMap_cons, length_append, length_cons,
    length_nil] at ih ⊢
  omega

section ids

variable {codec : GeminiCodec} {kind name payload : String}

lemma length_syntheticBase : (syntheticBase codec kind name payload).length = 46 := by
  simp only [syntheticBase, String.length_append, length_hex, length_take, Vector.length_toList]
  rfl

/-- The id of a hash and a counter. -/
def numbered (base : String) (n : Nat) : String := base ++ "_" ++ toString n

lemma toString_inj {m n : Nat} (h : toString m = toString n) : m = n := by
  have hdigits : Nat.toDigits 10 m = Nat.toDigits 10 n := by
    simpa using congrArg String.toList h
  simpa using congrArg (fun digits => Nat.ofDigitChars 10 digits 0) hdigits

lemma numbered_inj {base base' : String} {n n' : Nat} (hlength : base.length = base'.length)
    (h : numbered base n = numbered base' n') : base = base' ∧ n = n' := by
  have hlist : base.toList ++ ('_' :: (toString n).toList) =
      base'.toList ++ ('_' :: (toString n').toList) := by
    simpa [numbered] using congrArg String.toList h
  obtain ⟨hbase, hrest⟩ := append_inj hlist hlength
  refine ⟨String.toList_inj.mp hbase, ?_⟩
  exact toString_inj (String.toList_inj.mp (cons.inj hrest).2)

/-- The id was derived before. -/
def Minted (s : Synthesized) (id : String) : Prop :=
  ∃ base n, base.length = 46 ∧ n ≤ s.syntheticCounts base ∧ id = numbered base n

variable {s : Synthesized}

/-- A new id was not derived before, and the ids derived before stay so. -/
lemma nextSyntheticGeminiID_spec (codec : GeminiCodec) (kind name payload : String)
    (s : Synthesized) : ¬ Minted s (nextSyntheticGeminiID codec kind name payload s).1 ∧
      Minted (nextSyntheticGeminiID codec kind name payload s).2
        (nextSyntheticGeminiID codec kind name payload s).1 ∧
      (nextSyntheticGeminiID codec kind name payload s).2.callIDs = s.callIDs ∧
      ∀ id, Minted s id → Minted (nextSyntheticGeminiID codec kind name payload s).2 id := by
  unfold nextSyntheticGeminiID
  generalize hfresh : syntheticBase codec kind name payload = fresh
  have hlength : fresh.length = 46 := by
    rw [← hfresh]
    exact length_syntheticBase
  refine ⟨?_, ?_, rfl, ?_⟩
  · rintro ⟨base, n, hbase, hle, heq⟩
    obtain ⟨rfl, rfl⟩ := numbered_inj (hlength.trans hbase.symm) heq
    omega
  · refine ⟨fresh, s.syntheticCounts fresh + 1, hlength, ?_, rfl⟩
    show _ ≤ update s.syntheticCounts fresh (s.syntheticCounts fresh + 1) fresh
    rw [update_self]
  · rintro id ⟨base, n, hbase, hle, rfl⟩
    refine ⟨base, n, hbase, ?_, rfl⟩
    show n ≤ update s.syntheticCounts fresh (s.syntheticCounts fresh + 1) base
    by_cases h : base = fresh
    · rw [h, update_self]
      rw [h] at hle
      omega
    · rwa [update_of_ne h]

end ids

/-! ## One part -/

/-- What is remembered of the calls and results that have been projected. -/
structure Tracks (s : Synthesized) (events : List (Event String String)) : Prop where
  callIDs : ∀ name, s.callIDs name = (calls name events).getLast?
  minted : ∀ id ∈ Pairing.callIDs events, Minted s id
  distinct : (Pairing.callIDs events).Nodup
  latest : Splits.AtEach (fun before e => AfterCall before e → Latest before e) [] events

lemma tracks_empty : Tracks {} [] where
  callIDs _ := rfl
  minted := by simp [callIDs]
  distinct := nodup_nil
  latest := atEach_nil

section step

variable {codec : GeminiCodec} {s : Synthesized} {events : List (Event String String)}
variable {i j : Nat}

lemma Tracks.call (h : Tracks s events) {fc : FuncCall} (hid : fc.id = "") :
    Tracks (callID codec i j fc s).2 (events ++ [.call fc.name (callID codec i j fc s).1]) := by
  obtain ⟨hfresh, hminted, hsame, hkept⟩ :=
    nextSyntheticGeminiID_spec codec "call" fc.name (spelled codec i j fc.args) s
  set next := nextSyntheticGeminiID codec "call" fc.name (spelled codec i j fc.args) s
  have hnext : callID codec i j fc s =
      (next.1, { next.2 with callIDs := update next.2.callIDs fc.name (some next.1) }) := by
    rw [callID, functionCallID, if_neg (by simp [hid])]
  rw [hnext]
  have hids : Pairing.callIDs (events ++ [.call fc.name next.1]) =
      Pairing.callIDs events ++ [next.1] := filterMap_append
  refine ⟨?_, ?_, ?_, ?_⟩
  · intro name
    show update next.2.callIDs fc.name (some next.1) name = _
    by_cases hname : name = fc.name
    · subst hname
      simp [calls, Event.callTo]
    · rw [update_of_ne hname, hsame, h.callIDs]
      simp [calls, Event.callTo, Ne.symm hname]
  · intro id hmem
    rw [hids, mem_append, mem_singleton] at hmem
    rcases hmem with hold | rfl
    · exact hkept id (h.minted id hold)
    · exact hminted
  · rw [hids, nodup_append]
    refine ⟨h.distinct, nodup_singleton _, ?_⟩
    intro id hold id' hmem heq
    rw [mem_singleton.mp hmem] at heq
    exact hfresh (heq ▸ h.minted id hold)
  · rw [atEach_append, atEach_cons]
    exact ⟨h.latest, fun _ => trivial, atEach_nil⟩

lemma Tracks.reply_append (h : Tracks s events) {name id : String}
    (hlatest : AfterCall events (.reply name id) → Latest events (.reply name id)) :
    Tracks s (events ++ [.reply name id]) := by
  have hids : Pairing.callIDs (events ++ [.reply name id]) = Pairing.callIDs events := by
    simp [Pairing.callIDs, Event.callID]
  refine ⟨?_, ?_, ?_, ?_⟩
  · intro name'
    rw [h.callIDs]
    simp [calls, Event.callTo]
  · rw [hids]
    exact h.minted
  · rw [hids]
    exact h.distinct
  · rw [atEach_append, atEach_cons]
    exact ⟨h.latest, hlatest, atEach_nil⟩

lemma Tracks.reply (h : Tracks s events) {fr : FuncResp} (hid : fr.id = "") :
    Tracks (responseID codec i j fr s).2
      (events ++ [.reply fr.name (responseID codec i j fr s).1]) := by
  have hcalls := h.callIDs fr.name
  cases hlast : s.callIDs fr.name with
  | some id =>
    have hresponse : responseID codec i j fr s = (id, s) := by
      rw [responseID, if_neg (by simp [hid]), hlast]
    rw [hresponse]
    apply h.reply_append
    intro _
    show (calls fr.name events).getLast? = some id
    rw [← hcalls, hlast]
  | none =>
  -- there is no call of that name, so the response does not come after its call
  obtain ⟨-, -, hsame, hkept⟩ := nextSyntheticGeminiID_spec codec "orphan-response" fr.name
    (spelled codec i j fr.response) s
  have hresponse : responseID codec i j fr s = nextSyntheticGeminiID codec "orphan-response" fr.name
        (spelled codec i j fr.response) s := by
    rw [responseID, if_neg (by simp [hid]), hlast]
  rw [hresponse]
  have hnext : Tracks (nextSyntheticGeminiID codec "orphan-response" fr.name
      (spelled codec i j fr.response) s).2 events :=
    ⟨fun name => by rw [hsame, h.callIDs], fun id hmem => hkept id (h.minted id hmem),
      h.distinct, h.latest⟩
  apply hnext.reply_append
  intro hafter
  rw [hlast] at hcalls
  have hnone : calls fr.name events = [] := getLast?_eq_none_iff.mp hcalls.symm
  have hlt : (replies fr.name events).length < (calls fr.name events).length := hafter
  simp [hnone] at hlt

lemma plainBlock_event {parts : List WirePart} {seenCovered : Bool} {p : WirePart × Nat}
    {block : Block} (hresponse : p.1.functionResponse = none) (hcall : p.1.functionCall = none)
    (h : plainBlock codec parts seenCovered p = .ok block) : blockEvent block = none := by
  obtain ⟨metadata, -, hprojects⟩ := plainBlock_spec (i := 0) hresponse hcall h
  unfold Projects at hprojects
  rw [hresponse, hcall] at hprojects
  cases htext : p.1.text with
  | none =>
    rw [htext] at hprojects
    subst hprojects
    rfl
  | some text =>
  rw [htext] at hprojects
  subst hprojects
  split
  · rfl
  · split <;> rfl

/-- **One part** adds its block, with its event. -/
theorem Tracks.part {parts : List WirePart} {p : WirePart × Nat} {q q' : Projection}
    (h : Tracks q.ids events) (hid : p.1.NoID) (hpart : projectPart codec i parts q p = .ok q') :
    ∃ block, q'.blocks = q.blocks ++ [block] ∧ (blockEvent block).map named = p.1.event ∧
      Tracks q'.ids (events ++ (blockEvent block).toList) := by
  unfold projectPart at hpart
  split at hpart
  next fr hresponse =>
    obtain ⟨tr, htr, hpart⟩ := bind_eq_ok.mp hpart
    obtain ⟨payloads, -, htr⟩ := bind_eq_ok.mp htr
    obtain ⟨metadata, -, hpart⟩ := bind_eq_ok.mp hpart
    cases htr
    cases hpart
    refine ⟨_, rfl, ?_, h.reply (hid.2 fr hresponse)⟩
    simp [WirePart.event, hresponse, blockEvent, named, Event.map]
  next fc hresponse hcall =>
    obtain ⟨args, -, metadata, -, hpart⟩ := bind₂_eq_ok.mp hpart
    cases hpart
    refine ⟨_, rfl, ?_, h.call (hid.1 fc hcall)⟩
    simp [WirePart.event, hresponse, hcall, blockEvent, named, Event.map]
  next hresponse hcall =>
    obtain ⟨block, hblock, hpart⟩ := bind_eq_ok.mp hpart
    cases hpart
    have hevent := plainBlock_event hresponse hcall hblock
    refine ⟨block, rfl, ?_, ?_⟩
    · simp [WirePart.event, hresponse, hcall, hevent]
    · rw [hevent, Option.toList_none, append_nil]
      exact h

/-! ## Whole bodies -/

lemma Tracks.parts {parts : List WirePart} {ps : List (WirePart × Nat)} {q q' : Projection}
    (h : Tracks q.ids events) (hid : ∀ p ∈ ps, p.1.NoID)
    (hparts : ps.foldlM (projectPart codec i parts) q = .ok q') :
    ∃ blocks, q'.blocks = q.blocks ++ blocks ∧
      (blockEvents blocks).map named = (ps.map Prod.fst).filterMap WirePart.event ∧
      Tracks q'.ids (events ++ blockEvents blocks) := by
  induction ps generalizing q events with
  | nil =>
    cases hparts
    exact ⟨[], by simp, rfl, by simpa [blockEvents] using h⟩
  | cons p ps ih =>
  obtain ⟨q₁, hfirst, hrest⟩ := bind_eq_ok.mp hparts
  obtain ⟨hp, hmore⟩ := forall_mem_cons.mp hid
  obtain ⟨block, hblock, hevent, h₁⟩ := h.part hp hfirst
  obtain ⟨blocks, hblocks, hevents, h'⟩ := ih h₁ hmore hrest
  have hcons : blockEvents (block :: blocks) = (blockEvent block).toList ++ blockEvents blocks := by
    cases hb : blockEvent block <;> simp [blockEvents, hb]
  refine ⟨block :: blocks, ?_, ?_, ?_⟩
  · rw [hblocks, hblock, append_assoc]
    rfl
  · rw [hcons, map_append, hevents]
    cases hb : blockEvent block <;> simp [← hevent, hb]
  · rwa [hcons, ← append_assoc]

lemma Tracks.content {c : GeminiContent × Nat} {m : Message × Synthesized} (h : Tracks s events)
    (hid : ∀ p ∈ c.1.parts, p.NoID) (hcontent : geminiContentToMessage codec s c = .ok m) :
    (blockEvents m.1.blocks).map named = c.1.parts.filterMap WirePart.event ∧
      Tracks m.2 (events ++ blockEvents m.1.blocks) := by
  obtain ⟨⟨⟩, -, q, hparts, hcontent⟩ := bind₂_eq_ok.mp hcontent
  cases hcontent
  have hid' : ∀ p ∈ c.1.parts.zipIdx, p.1.NoID := fun p hp => hid p.1 (fst_mem_of_mem_zipIdx hp)
  obtain ⟨blocks, hblocks, hevents, h'⟩ := h.parts hid' hparts
  rw [zipIdx_map_fst] at hevents
  rw [hblocks]
  exact ⟨hevents, h'⟩

lemma toolEvents_append (ms ms' : List Message) :
    toolEvents (ms ++ ms') = toolEvents ms ++ toolEvents ms' := by
  simp [toolEvents, blockEvents]

lemma Tracks.contents {cs : List (GeminiContent × Nat)} {r r' : List Message × Synthesized}
    (h : Tracks r.2 (toolEvents r.1)) (hid : ∀ c ∈ cs, ∀ p ∈ c.1.parts, p.NoID)
    (hcontents : cs.foldlM (projectContent codec) r = .ok r') :
    (toolEvents r'.1).map named = (toolEvents r.1).map named ++ wireEvents (cs.map Prod.fst) ∧
      Tracks r'.2 (toolEvents r'.1) := by
  induction cs generalizing r with
  | nil =>
    cases hcontents
    exact ⟨by simp [wireEvents], h⟩
  | cons c cs ih =>
  obtain ⟨r₁, hfirst, hrest⟩ := bind_eq_ok.mp hcontents
  obtain ⟨hc, hmore⟩ := forall_mem_cons.mp hid
  obtain ⟨m, hmessage, hfirst⟩ := bind_eq_ok.mp hfirst
  obtain ⟨hevents, h₁⟩ := h.content hc hmessage
  cases hfirst
  -- a message without blocks has no events either
  have hsame : toolEvents (if m.1.blocks.isEmpty then r.1 else r.1 ++ [m.1]) =
      toolEvents r.1 ++ blockEvents m.1.blocks := by
    by_cases hempty : m.1.blocks = []
    · simp [hempty, blockEvents]
    · rw [if_neg (by simpa using hempty), toolEvents_append]
      simp [toolEvents]
  obtain ⟨hall, h'⟩ := ih (hsame ▸ h₁) hmore hrest
  refine ⟨?_, h'⟩
  rw [hall]
  rw [hsame, map_append, hevents]
  simp [wireEvents]

lemma toolEvents_system {parts : Option (List WirePart)} {messages : List Message}
    (h : systemMessage parts = .ok messages) : toolEvents messages = [] := by
  obtain ⟨blocks, hblocks, h⟩ := bind_eq_ok.mp h
  have hnone : blocks.filterMap blockEvent = [] := by
    rw [filterMap_eq_nil_iff]
    intro block hmem
    obtain ⟨p, -, hblock⟩ := exists_of_mem_mapM hblocks hmem
    obtain ⟨metadata, -, hblock⟩ := bind_eq_ok.mp hblock
    cases hblock
    rfl
  cases h
  split
  · rfl
  · simpa [toolEvents, blockEvents] using hnone

end step

/-- The request that the body holds, bare or in an envelope. -/
def wireRequest (codec : GeminiCodec) (body : Json) : Except String GeminiRequest :=
  decodeRequest codec.toWireCodec ((wrappedRequest body).getD body)

/-- **Whole bodies.**  The messages have the calls and responses of the wire, the
ids of the calls are distinct, and a response after its call has the id of the
last one. -/
theorem toolEvents_unmarshalBody {codec : GeminiCodec} {body : Json} {req : GeminiRequest}
    {chat : ChatRequest} (hreq : wireRequest codec body = .ok req)
    (hchat : unmarshalBody codec body = .ok chat)
    (hids : ∀ content ∈ req.contents, ∀ p ∈ content.parts, p.NoID) :
    (toolEvents chat.messages).map named = wireEvents req.contents ∧
      ∃ s, Tracks s (toolEvents chat.messages) := by
  unfold unmarshalBody at hchat
  split at hchat
  · cases hchat
  obtain ⟨req', hreq', hchat⟩ := bind_eq_ok.mp hchat
  cases hreq.symm.trans (context_eq_ok.mp hreq')
  obtain ⟨⟨⟩, -, safety, -, ⟨codeAssist, model, extensions⟩, -, hchat⟩ := bind₃_eq_ok.mp hchat
  obtain ⟨system, hsystem, messages, hmessages, tools, -, hchat⟩ := bind₃_eq_ok.mp hchat
  cases hchat
  obtain ⟨⟨messages', s⟩, hcontents, rfl⟩ := map_eq_ok.mp hmessages
  have hids' : ∀ c ∈ req.contents.zipIdx, ∀ p ∈ c.1.parts, p.NoID :=
    fun c hc => hids c.1 (fst_mem_of_mem_zipIdx hc)
  obtain ⟨hevents, htracks⟩ := Tracks.contents tracks_empty hids' hcontents
  rw [zipIdx_map_fst] at hevents
  rw [toolEvents_append, toolEvents_system hsystem]
  exact ⟨hevents, s, htracks⟩

/-- **Pairing.**  In a body without ids whose responses come after their calls, every
response carries the id of its own call, and the ids of the calls are distinct,
exactly when every response comes before the next call of its name. -/
theorem responses_paired_iff {codec : GeminiCodec} {body : Json} {req : GeminiRequest}
    {chat : ChatRequest} (hreq : wireRequest codec body = .ok req)
    (hchat : unmarshalBody codec body = .ok chat)
    (hids : ∀ content ∈ req.contents, ∀ p ∈ content.parts, p.NoID)
    (hafter : AtEach AfterCall [] (wireEvents req.contents)) :
    Paired (toolEvents chat.messages) ∧ (callIDs (toolEvents chat.messages)).Nodup ↔
      AtEach InTurn [] (wireEvents req.contents) := by
  obtain ⟨hevents, s, htracks⟩ := toolEvents_unmarshalBody hreq hchat hids
  rw [← hevents] at hafter ⊢
  have hlatest : AtEach Latest [] (toolEvents chat.messages) := by
    intro before e post heq
    refine htracks.latest before e post heq ?_
    have hmap : (toolEvents chat.messages).map named =
        before.map named ++ named e :: post.map named := by
      rw [heq, map_append, map_cons]
    exact (afterCall_map _ e).mp (hafter _ _ _ hmap)
  rw [and_iff_left htracks.distinct, paired_iff hlatest htracks.distinct]
  exact (atEach_map named fun before e => inTurn_map _ e).symm

/-- A codec with one hash for every text. -/
def oneHash : GeminiCodec :=
  { spellingCodec with
    sha256 := fun _ => Vector.replicate 32 171
    spelling := fun _ _ v => String.ofList (spell v) }

def readCall : Json := .obj [⟨"functionCall", .obj [⟨"name", .str "read"⟩, ⟨"args", .obj []⟩]⟩]

def readResponse : Json :=
  .obj [⟨"functionResponse", .obj [⟨"name", .str "read"⟩, ⟨"response", .obj []⟩]⟩]

def contentsBody (contents : List (String × List Json)) : Json :=
  .obj [⟨"contents", .arr (contents.map fun c =>
    .obj [⟨"role", .str c.1⟩, ⟨"parts", .arr c.2⟩])⟩]

/-- Two calls, each answered before the next. -/
def callsInTurn : Json :=
  contentsBody [("model", [readCall]), ("user", [readResponse]), ("model", [readCall]),
    ("user", [readResponse])]

/-- The first and the second id of a call to read. -/
def readID (n : Nat) : String := numbered "torana_gemini_abababababababababababababababab" n

/-- What the pairing of a body is about: its wire events and whether a part has an
id, and the events of its messages. -/
def pairingFacts (codec : GeminiCodec) (body : Json) :
    Except String (List (Event String Unit) × Bool × List (Event String String)) := do
  let req ← wireRequest codec body
  let chat ← unmarshalBody codec body
  let parts := req.contents.flatMap GeminiContent.parts
  return (wireEvents req.contents,
    parts.all fun p => p.functionCall.all (·.id == "") && p.functionResponse.all (·.id == ""),
    toolEvents chat.messages)

lemma exists_of_pairingFacts {codec : GeminiCodec} {body : Json} {wire : List (Event String Unit)}
    {events : List (Event String String)}
    (h : (pairingFacts codec body).toOption = some (wire, true, events)) :
    ∃ req chat, wireRequest codec body = .ok req ∧ unmarshalBody codec body = .ok chat ∧
      wireEvents req.contents = wire ∧ toolEvents chat.messages = events ∧
      ∀ content ∈ req.contents, ∀ p ∈ content.parts, p.NoID := by
  obtain ⟨req, hreq, h⟩ := bind_eq_ok.mp (toOption_eq_some.mp h)
  obtain ⟨chat, hchat, h⟩ := bind_eq_ok.mp h
  obtain ⟨hwire, hids, hevents⟩ := by simpa using Except.ok.inj h
  refine ⟨req, chat, hreq, hchat, hwire, hevents, ?_⟩
  intro content hcontent p hp
  obtain ⟨hcall, hresponse⟩ := hids content hcontent p hp
  refine ⟨fun fc hfc => ?_, fun fr hfr => ?_⟩
  · simpa [hfc] using hcall
  · simpa [hfr] using hresponse

theorem responses_paired_iff_callsInTurn : ∃ chat,
    unmarshalBody oneHash callsInTurn = .ok chat ∧ Paired (toolEvents chat.messages) ∧
      (callIDs (toolEvents chat.messages)).Nodup := by
  obtain ⟨req, chat, hreq, hchat, hwire, -, hids⟩ :=
    @exists_of_pairingFacts oneHash callsInTurn
      [.call "read" (), .reply "read" (), .call "read" (), .reply "read" ()]
      [.call "read" (readID 1), .reply "read" (readID 1), .call "read" (readID 2),
        .reply "read" (readID 2)] (by decide +kernel)
  have hafter : AtEach AfterCall [] (wireEvents req.contents) := by
    rw [hwire]
    decide
  have hturn : AtEach InTurn [] (wireEvents req.contents) := by
    rw [hwire]
    decide
  exact ⟨chat, hchat, (responses_paired_iff hreq hchat hids hafter).mpr hturn⟩

/-- Two calls made at once, and then their responses. -/
def parallelCalls : Json :=
  contentsBody [("model", [readCall, readCall]), ("user", [readResponse, readResponse])]

/-- **Parallel calls.**  Both responses carry the id of the second call. -/
theorem parallelCalls_mispaired : ∃ req chat,
    wireRequest oneHash parallelCalls = .ok req ∧ unmarshalBody oneHash parallelCalls = .ok chat ∧
      (∀ content ∈ req.contents, ∀ p ∈ content.parts, p.NoID) ∧
      AtEach AfterCall [] (wireEvents req.contents) ∧
      calls "read" (toolEvents chat.messages) = [readID 1, readID 2] ∧
      replies "read" (toolEvents chat.messages) = [readID 2, readID 2] := by
  obtain ⟨req, chat, hreq, hchat, hwire, hevents, hids⟩ :=
    @exists_of_pairingFacts oneHash parallelCalls
      [.call "read" (), .call "read" (), .reply "read" (), .reply "read" ()]
      [.call "read" (readID 1), .call "read" (readID 2), .reply "read" (readID 2),
        .reply "read" (readID 2)] (by decide +kernel)
  refine ⟨req, chat, hreq, hchat, hids, ?_, ?_, ?_⟩
  · rw [hwire]
    decide
  · rw [hevents]
    rfl
  · rw [hevents]
    rfl

end ToranaEdge.Format.Gemini
