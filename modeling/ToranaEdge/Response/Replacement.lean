import ToranaEdge.Lib.Attempt
import ToranaEdge.Signature
import ToranaEdge.Stream.Event

/-! # Replacing a response

`run_after_response` may return a replacement for the response it was shown.
`validateResponseReplacement` judges it against the response accepted so far,
field by field, and `clearStaleSignatures` drops every token the plugin left
over content it changed.  What is accepted becomes the response the next
plugin is judged against.

A protobuf list or arm never holds a nil message here, so the source's nil
checks have no counterpart.  Bytes the schema does not know are kept and are
never compared; they are no fact of the response. -/

namespace ToranaEdge

open Attempt List

/-! ## Responses of the plugin ABI -/

structure ResponseTextBlock where
  text : String
  unknown : Bytes := []
  deriving DecidableEq, Repr

structure ToolCall where
  id : String
  name : String
  argumentsJson : Bytes := []
  signature : String := ""
  unknown : Bytes := []
  deriving DecidableEq, Repr

inductive ResponseBlockKind where
  | text (block : ResponseTextBlock)
  | toolCall (call : ToolCall)
  deriving DecidableEq, Repr

/-- One block of a response; the oneof may be unset. -/
structure ResponseBlock where
  kind : Option ResponseBlockKind
  unknown : Bytes := []
  deriving DecidableEq, Repr

structure ResponseMessage where
  blocks : List ResponseBlock
  unknown : Bytes := []
  deriving DecidableEq, Repr

structure ChatResponse where
  model : String := ""
  provider : String := ""
  completedAtUnixMs : Int64 := 0
  id : String := ""
  message : Option ResponseMessage := none
  finishReason : String := ""
  usage : Option Usage := none
  upstreamStatus : Int32 := 0
  durationMs : Int64 := 0
  providerExtensionsJson : Bytes := []
  toranaMetaJson : Bytes := []
  unknown : Bytes := []
  deriving DecidableEq, Repr

/-- The classifier of token changes, with what a response asks of it besides the
law of `allowed`: a token is stale only if it was left as it was. -/
structure ResponseClassifier extends SignatureClassifier where
  eq_of_stale : ∀ before after changed, classify before after changed = .stale → before = after

instance : Coe ResponseClassifier SignatureClassifier := ⟨ResponseClassifier.toSignatureClassifier⟩

/-! ## The check of one replacement -/

/-- The token tallies of a usage record. -/
def Usage.tallies (u : Usage) : Int32 × Int32 × Int32 × Int32 :=
  (u.inputTokens, u.outputTokens, u.cacheReadTokens, u.cacheWriteTokens)

def usageEqual (current replacement : Option Usage) : Bool :=
  match current, replacement with
  | none, none => true
  | some u, some u' => u.tallies == u'.tallies
  | _, _ => false

/-- Whether the content a call's token covers changed. -/
def nameOrArgsChanged (cur rep : ToolCall) : Bool :=
  rep.name != cur.name || rep.argumentsJson != cur.argumentsJson

variable (cls : SignatureClassifier)

/-- A tool call keeps its id; its token is judged with its content. -/
def validateToolCall (i : Nat) (cur rep : ToolCall) :
    Except String Unit :=
  if rep.id != cur.id then .error s!"tool call at block {i} changed host-owned id"
  else
    let mutation := cls.classify cur.signature rep.signature (nameOrArgsChanged cur rep)
    if !mutation.allowed && mutation != .stale then
      .error s!"tool call at block {i} signature {mutation}"
    else .ok ()

def validateResponseBlock (i : Nat) (cur rep : ResponseBlock) :
    Except String Unit :=
  match cur.kind, rep.kind with
  | some (.text _), some (.text _) => .ok ()
  | some (.toolCall c), some (.toolCall r) => validateToolCall cls i c r
  | some _, _ => .error s!"response block {i} changed arm"
  | none, _ => .error s!"response block {i} has unknown arm <nil>"

/-- The loop over the blocks; both lists have one length. -/
def validateResponseBlocks :
    Nat → List ResponseBlock → List ResponseBlock → Except String Unit
  | i, cur :: curs, rep :: reps => do
    validateResponseBlock cls i cur rep
    validateResponseBlocks (i + 1) curs reps
  | _, _, _ => .ok ()

variable (current replacement : ChatResponse)

/-- The host-owned fields that are compared: whether each changed, and its name
in the error. -/
def hostOwnedFields : List (Bool × String) :=
  [ (replacement.model != current.model, "model"), (replacement.id != current.id, "id"),
    (replacement.finishReason != current.finishReason, "finish_reason"),
    (!usageEqual current.usage replacement.usage, "usage"),
    (replacement.upstreamStatus != current.upstreamStatus, "upstream_status"),
    (replacement.durationMs != current.durationMs, "duration_ms"),
    (replacement.providerExtensionsJson != current.providerExtensionsJson,
      "provider_extensions_json"),
    (replacement.toranaMetaJson != current.toranaMetaJson, "torana_meta_json") ]

def validateHostOwned : Except String Unit :=
  match (hostOwnedFields current replacement).find? Prod.fst with
  | some (_, name) => .error s!"changed host-owned field {name}"
  | none => .ok ()

/-- The checks relative to the message; without one there is nothing to compare. -/
def validateResponseMessage :
    Option ResponseMessage → Option ResponseMessage → Except String Unit
  | some cur, some rep =>
    if rep.blocks.length ≠ cur.blocks.length then .error "changed response-block cardinality"
    else validateResponseBlocks cls 0 cur.blocks rep.blocks
  | _, _ => .ok ()

def validateResponseReplacement :
    Except String Unit :=
  if replacement.message.isNone && current.message.isSome then
    .error "response replacement dropped the assistant message"
  else if replacement.message.isSome && current.message.isNone then
    .error "invented an assistant message"
  else do
    validateHostOwned current replacement
    validateResponseMessage cls current.message replacement.message

/-! ## Clearing what the plugin left stale -/

def clearStaleCall (cur rep : ToolCall) : ToolCall :=
  if rep.signature != "" && rep.signature == cur.signature && nameOrArgsChanged cur rep then
    { rep with signature := "" }
  else rep

def clearStaleBlock (cur rep : ResponseBlock) : ResponseBlock :=
  match cur.kind, rep.kind with
  | some (.toolCall c), some (.toolCall r) =>
    { rep with kind := some (.toolCall (clearStaleCall c r)) }
  | _, _ => rep

/-- Blocks past the end of the accepted message stay as they are. -/
def clearStaleBlocks : List ResponseBlock → List ResponseBlock → List ResponseBlock
  | cur :: curs, rep :: reps => clearStaleBlock cur rep :: clearStaleBlocks curs reps
  | _, reps => reps

/-- `clearStaleSignatures`, as the replacement it leaves. -/
def clearStaleSignatures : ChatResponse :=
  match current.message, replacement.message with
  | some cur, some rep =>
    { replacement with
      message := some { rep with blocks := clearStaleBlocks cur.blocks rep.blocks } }
  | _, _ => replacement

/-- One accepted replacement: what the next plugin is shown. -/
def acceptReplacement :
    Except String ChatResponse :=
  (validateResponseReplacement cls current replacement).map fun _ =>
    clearStaleSignatures current replacement

/-- A chain of replacements, each accepted against what the last one left. -/
def acceptReplacements
    (replacements : List ChatResponse) : Except String ChatResponse :=
  replacements.foldlM (acceptReplacement cls) current

/-! ## What a replacement keeps -/

/-- A call with the id it had, whose token, if it has one, is the one it had over
the content it had. -/
structure CallKept (before after : ToolCall) : Prop where
  id : after.id = before.id
  token : after.signature ≠ "" → after.signature = before.signature ∧ after.name = before.name ∧
    after.argumentsJson = before.argumentsJson

/-- A block with the arm it had; the text is the plugins' to write. -/
def BlockKept (before after : ResponseBlock) : Prop :=
  match before.kind, after.kind with
  | none, none => True
  | some (.text _), some (.text _) => True
  | some (.toolCall c), some (.toolCall c') => CallKept c c'
  | _, _ => False

/-- The message is there or not as it was, with as many blocks, each kept. -/
def MessageKept (before after : Option ResponseMessage) : Prop :=
  match before, after with
  | none, none => True
  | some m, some m' => Forall₂ BlockKept m.blocks m'.blocks
  | _, _ => False

/-- What the check of a replacement keeps: the facts it compares. -/
structure ComparedKept (before after : ChatResponse) : Prop where
  model : after.model = before.model
  id : after.id = before.id
  finishReason : after.finishReason = before.finishReason
  usage : after.usage.map Usage.tallies = before.usage.map Usage.tallies
  upstreamStatus : after.upstreamStatus = before.upstreamStatus
  durationMs : after.durationMs = before.durationMs
  providerExtensions : after.providerExtensionsJson = before.providerExtensionsJson
  toranaMeta : after.toranaMetaJson = before.toranaMetaJson
  message : MessageKept before.message after.message

/-- **The response frame**: every fact but the texts and the names and arguments
of tool calls is as it was, and every token stands over what it stood over. -/
structure ResponseKept (before after : ChatResponse) : Prop extends ComparedKept before after where
  provider : after.provider = before.provider
  completedAt : after.completedAtUnixMs = before.completedAtUnixMs

lemma CallKept.refl (c : ToolCall) : CallKept c c := ⟨rfl, fun _ => ⟨rfl, rfl, rfl⟩⟩

/-- Tokens are kept across two replacements: one that is there in the end was
there in between, over the same content. -/
lemma CallKept.trans {c c' c'' : ToolCall} (h : CallKept c c') (h' : CallKept c' c'') :
    CallKept c c'' := by
  refine ⟨h'.id.trans h.id, fun htoken => ?_⟩
  obtain ⟨hsig', hname', hargs'⟩ := h'.token htoken
  obtain ⟨hsig, hname, hargs⟩ := h.token (hsig' ▸ htoken)
  exact ⟨hsig'.trans hsig, hname'.trans hname, hargs'.trans hargs⟩

lemma BlockKept.refl (b : ResponseBlock) : BlockKept b b := by
  obtain ⟨_ | kind, unknown⟩ := b
  · trivial
  · cases kind with
    | text block => trivial
    | toolCall call => exact CallKept.refl call

lemma BlockKept.trans (b b' b'' : ResponseBlock) (h : BlockKept b b') (h' : BlockKept b' b'') :
    BlockKept b b'' := by
  obtain ⟨kind, unknown⟩ := b
  obtain ⟨kind', unknown'⟩ := b'
  obtain ⟨kind'', unknown''⟩ := b''
  -- the three arms are one arm, or one of the two facts is absurd
  rcases kind with _ | _ | c <;> rcases kind' with _ | _ | c' <;> rcases kind'' with _ | _ | c'' <;>
    first | trivial | exact h.elim | exact h'.elim | exact CallKept.trans h h'

lemma MessageKept.refl (m : Option ResponseMessage) : MessageKept m m := by
  cases m with
  | none => trivial
  | some m => exact forall₂_same.mpr fun b _ => BlockKept.refl b

lemma MessageKept.trans {m m' m'' : Option ResponseMessage} (h : MessageKept m m')
    (h' : MessageKept m' m'') : MessageKept m m'' := by
  rcases m with _ | m <;> rcases m' with _ | m' <;> rcases m'' with _ | m'' <;> first
    | trivial
    | exact h.elim
    | exact h'.elim
    | exact Align.forall₂_trans BlockKept.trans h h'

lemma ComparedKept.refl (r : ChatResponse) : ComparedKept r r :=
  ⟨rfl, rfl, rfl, rfl, rfl, rfl, rfl, rfl, MessageKept.refl r.message⟩

lemma ComparedKept.trans {r r' r'' : ChatResponse} (h : ComparedKept r r')
    (h' : ComparedKept r' r'') : ComparedKept r r'' where
  model := h'.model.trans h.model
  id := h'.id.trans h.id
  finishReason := h'.finishReason.trans h.finishReason
  usage := h'.usage.trans h.usage
  upstreamStatus := h'.upstreamStatus.trans h.upstreamStatus
  durationMs := h'.durationMs.trans h.durationMs
  providerExtensions := h'.providerExtensions.trans h.providerExtensions
  toranaMeta := h'.toranaMeta.trans h.toranaMeta
  message := h.message.trans h'.message

/-! ## One step -/

variable {cls : ResponseClassifier} {i : Nat} {current : ChatResponse}
  {replacements : List ChatResponse}

/-- A call that passes and is cleared of a stale token is kept. -/
lemma callKept_of_validateToolCall {cur rep : ToolCall}
    (h : validateToolCall cls i cur rep = .ok ()) : CallKept cur (clearStaleCall cur rep) := by
  obtain ⟨hid, h⟩ := guard_eq_ok.mp h
  have hid : rep.id = cur.id := by simpa using hid
  obtain ⟨hclass, h⟩ := guard_eq_ok.mp h
  rw [Bool.and_eq_true, not_and_or] at hclass
  -- whatever is left of a token was there before
  have hsame : rep.signature ≠ "" → rep.signature = cur.signature := by
    intro htoken
    rcases hclass with hallowed | hstale
    · have hallowed : (cls.classify cur.signature rep.signature
          (nameOrArgsChanged cur rep)).allowed = true := by simpa using hallowed
      rcases (cls.allowed_iff _ _ _).mp hallowed with ⟨heq, -⟩ | ⟨-, hempty⟩ | ⟨-, hempty, -⟩
      · exact heq.symm
      · exact absurd hempty htoken
      · exact absurd hempty htoken
    · exact (cls.eq_of_stale _ _ _ (by simpa using hstale)).symm
  unfold clearStaleCall
  split
  · exact ⟨hid, fun htoken => absurd rfl htoken⟩
  next hfresh =>
  refine ⟨hid, fun htoken => ?_⟩
  have hunchanged : nameOrArgsChanged cur rep = false := by
    simpa [htoken, ← hsame htoken] using hfresh
  simp only [nameOrArgsChanged, Bool.or_eq_false_iff, bne_eq_false_iff_eq] at hunchanged
  exact ⟨hsame htoken, hunchanged⟩

lemma blockKept_of_validateResponseBlock {cur rep : ResponseBlock}
    (h : validateResponseBlock cls i cur rep = .ok ()) :
    BlockKept cur (clearStaleBlock cur rep) := by
  obtain ⟨kind, unknown⟩ := cur
  obtain ⟨kind', unknown'⟩ := rep
  rcases kind with _ | _ | c <;> rcases kind' with _ | _ | c' <;>
    first | trivial | exact callKept_of_validateToolCall h

/-- The loop keeps every block. -/
lemma forall₂_of_validateResponseBlocks {curs reps : List ResponseBlock}
    (hlen : reps.length = curs.length) (h : validateResponseBlocks cls i curs reps = .ok ()) :
    Forall₂ BlockKept curs (clearStaleBlocks curs reps) := by
  induction curs generalizing i reps with
  | nil =>
    rw [eq_nil_of_length_eq_zero hlen]
    exact .nil
  | cons cur curs ih =>
  cases reps with
  | nil => simp at hlen
  | cons rep reps =>
    obtain ⟨_, hblock, hrest⟩ := bind_eq_ok.mp h
    exact .cons (blockKept_of_validateResponseBlock hblock) (ih (by simpa using hlen) hrest)

lemma tallies_of_usageEqual {u u' : Option Usage} (h : usageEqual u u' = true) :
    u'.map Usage.tallies = u.map Usage.tallies := by
  rcases u with _ | u <;> rcases u' with _ | u'
  · rfl
  · cases h
  · cases h
  · have heq : u.tallies = u'.tallies := by simpa [usageEqual] using h
    simp [heq]

lemma messageKept_of_validateResponseMessage {cur rep : ResponseMessage}
    (h : validateResponseMessage cls (some cur) (some rep) = .ok ()) :
    Forall₂ BlockKept cur.blocks (clearStaleBlocks cur.blocks rep.blocks) := by
  change (if rep.blocks.length ≠ cur.blocks.length then _ else _) = _ at h
  split at h
  · cases h
  next hlen => exact forall₂_of_validateResponseBlocks (not_not.mp hlen) h

/-- The fields that are compared did not change. -/
lemma fields_of_validateHostOwned {replacement : ChatResponse}
    (h : validateHostOwned current replacement = .ok ()) :
    ∀ f ∈ hostOwnedFields current replacement, f.1 = false := by
  unfold validateHostOwned at h
  split at h
  · cases h
  next hnone =>
  intro f hf
  simpa using find?_eq_none.mp hnone f hf

/-- **One accepted replacement** keeps whatever the check compares; the provider
and the completion time are the replacement's. -/
theorem comparedKept_of_acceptReplacement {replacement next : ChatResponse}
    (h : acceptReplacement cls current replacement = .ok next) :
    ComparedKept current next ∧ next.provider = replacement.provider ∧
      next.completedAtUnixMs = replacement.completedAtUnixMs := by
  obtain ⟨_, hvalid, rfl⟩ := map_eq_ok.mp h
  obtain ⟨hdropped, hvalid⟩ := guard_eq_ok.mp hvalid
  obtain ⟨hinvented, hvalid⟩ := guard_eq_ok.mp hvalid
  obtain ⟨_, howned, hmessage⟩ := bind_eq_ok.mp hvalid
  have hfields := fields_of_validateHostOwned howned
  simp only [hostOwnedFields, mem_cons, not_mem_nil, or_false, forall_eq_or_imp,
    forall_eq, bne_eq_false_iff_eq, Bool.not_eq_false'] at hfields
  obtain ⟨hmodel, hid, hfinish, husage, hstatus, hduration, hext, hmeta⟩ := hfields
  have husage := tallies_of_usageEqual husage
  unfold clearStaleSignatures
  cases hcur : current.message with
  | none =>
    cases hrep : replacement.message with
    | none =>
      exact ⟨⟨hmodel, hid, hfinish, husage, hstatus, hduration, hext, hmeta,
        by rw [hcur, hrep]; trivial⟩, rfl, rfl⟩
    | some rep => simp [hcur, hrep] at hinvented
  | some cur =>
  cases hrep : replacement.message with
  | none => simp [hcur, hrep] at hdropped
  | some rep =>
  rw [hcur, hrep] at hmessage
  exact ⟨⟨hmodel, hid, hfinish, husage, hstatus, hduration, hext, hmeta,
    by rw [hcur]; exact messageKept_of_validateResponseMessage hmessage⟩, rfl, rfl⟩

/-! ## Chains of replacements -/

/-- **A chain of accepted replacements** keeps whatever the check compares, by
induction over the replacements. -/
theorem comparedKept_of_acceptReplacements {final : ChatResponse}
    (h : acceptReplacements cls current replacements = .ok final) : ComparedKept current final := by
  induction replacements generalizing current with
  | nil =>
    cases h
    exact ComparedKept.refl _
  | cons replacement replacements ih =>
    obtain ⟨next, hnext, hrest⟩ := bind_eq_ok.mp h
    exact (comparedKept_of_acceptReplacement hnext).1.trans (ih hrest)

/-- What is not compared is what the last replacement says. -/
lemma last_of_acceptReplacements {final : ChatResponse}
    (h : acceptReplacements cls current replacements = .ok final) :
    final.provider = (replacements.getLast?.getD current).provider ∧
      final.completedAtUnixMs = (replacements.getLast?.getD current).completedAtUnixMs := by
  rcases eq_nil_or_concat replacements with rfl | ⟨earlier, last, rfl⟩
  · cases h
    exact ⟨rfl, rfl⟩
  rw [concat_eq_append, acceptReplacements, foldlM_append] at h
  obtain ⟨between, -, next, hnext, hend⟩ := bind₂_eq_ok.mp h
  cases hend
  rw [concat_eq_append, getLast?_concat]
  exact (comparedKept_of_acceptReplacement hnext).2

/-- **The response frame holds exactly up to two fields.**  After any chain of
accepted replacements every fact but the texts and the calls' names and
arguments is as it was in the original response, and every token stands over
the content it stood over, exactly if the last replacement, where there is
one, names the original provider and completion time. -/
theorem acceptReplacements_kept_iff (cls : ResponseClassifier) (current final : ChatResponse)
    (replacements : List ChatResponse)
    (h : acceptReplacements cls.toSignatureClassifier current replacements = .ok final) :
    ResponseKept current final ↔ ∀ last ∈ replacements.getLast?, last.provider = current.provider ∧
        last.completedAtUnixMs = current.completedAtUnixMs := by
  obtain ⟨hprovider, hcompleted⟩ := last_of_acceptReplacements h
  constructor
  · intro hkept last hlast
    rw [Option.mem_def.mp hlast] at hprovider hcompleted
    exact ⟨hprovider.symm.trans hkept.provider, hcompleted.symm.trans hkept.completedAt⟩
  · intro hlast
    suffices hsame : final.provider = current.provider ∧
        final.completedAtUnixMs = current.completedAtUnixMs from
      ⟨comparedKept_of_acceptReplacements h, hsame.1, hsame.2⟩
    rw [hprovider, hcompleted]
    cases hend : replacements.getLast? with
    | none => exact ⟨rfl, rfl⟩
    | some last => exact hlast last hend

/-- The classification by cases leaves a token stale only in place. -/
def standardResponseClassifier : ResponseClassifier where
  toSignatureClassifier := standardClassifier
  eq_of_stale := by
    intro before after changed h
    change classifySignatureMutation before after changed = .stale at h
    unfold classifySignatureMutation at h
    by_contra hne
    rw [if_neg hne] at h
    split at h
    · split at h <;> cases h
    · split at h <;> cases h

/-- A response with one signed tool call. -/
def calledResponse (provider name signature : String) : ChatResponse :=
  { model := "m", provider := provider, id := "r1"
    message := some { blocks := [{ kind := some (.toolCall
      { id := "call_1", name, signature }) }] } }

/-- The first plugin renames the call and leaves the token, which is cleared; the
second passes the renamed call on. -/
theorem acceptReplacements_kept_iff_renamed :
    ResponseKept (calledResponse "anthropic" "read" "sig") (calledResponse "anthropic" "grep" "") ↔
      ∀ last ∈ getLast? [calledResponse "anthropic" "grep" "sig",
          calledResponse "anthropic" "grep" ""],
        last.provider = (calledResponse "anthropic" "read" "sig").provider ∧
          last.completedAtUnixMs = (calledResponse "anthropic" "read" "sig").completedAtUnixMs :=
  acceptReplacements_kept_iff standardResponseClassifier _ _ _ (by decide)

/-- A replacement that names another provider is accepted. -/
theorem acceptReplacements_provider_changed :
    acceptReplacements standardClassifier (calledResponse "anthropic" "read" "sig")
        [calledResponse "openai" "read" "sig"] = .ok (calledResponse "openai" "read" "sig") ∧
      ¬ResponseKept (calledResponse "anthropic" "read" "sig")
        (calledResponse "openai" "read" "sig") := by
  refine ⟨by decide, fun hkept => ?_⟩
  have hprovider : "openai" = "anthropic" := hkept.provider
  exact absurd hprovider (by decide)

end ToranaEdge
