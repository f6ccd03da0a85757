import ToranaEdge.Request.Ungranted

/-! # Host facts no grant opens

Whatever a plugin may write, two things of its replacement belong to the
host: protobuf bytes the schema does not know, and the namespace paths of
the tools.  Both checks are shorter than what they are for.  The unknown
bytes of the output format are never looked at, and the paths are compared
as a sequence, without the tools that carry them.  Each section says exactly
when the check is enough. -/

namespace ToranaEdge

open List

/-! ## Unknown protobuf bytes -/

/-- The unknown bytes of a nested element's arm. -/
def ToolResultContentKind.unknownBytes : ToolResultContentKind → Bytes
  | .text b => b.unknown
  | .unknown b => b.unknown
  | .cacheBreakpoint b => b.unknown

/-- The unknown bytes of a block's arm itself. -/
def RequestBlockKind.unknownBytes : RequestBlockKind → Bytes
  | .text b => b.unknown
  | .thinking b => b.unknown
  | .redactedThinking b => b.unknown
  | .toolUse b => b.unknown
  | .toolResult b => b.unknown
  | .cacheBreakpoint b => b.unknown
  | .unknown b => b.unknown
  | .trailingSignature b => b.unknown
  | .refusal b => b.unknown

/-- The elements nested in a block's arm: those of a tool result. -/
def RequestBlockKind.nested : RequestBlockKind → List ToolResultContentBlock
  | .toolResult b => b.content
  | _ => []

/-- Neither the element nor its arm holds unknown bytes. -/
def ToolResultContentBlock.NoUnknown (c : ToolResultContentBlock) : Prop :=
  c.unknown = [] ∧ ∀ kind ∈ c.kind, kind.unknownBytes = []

/-- Neither the block, nor its arm, nor anything nested in it. -/
def RequestBlock.NoUnknown (b : RequestBlock) : Prop :=
  b.unknown = [] ∧
    ∀ kind ∈ b.kind, kind.unknownBytes = [] ∧ ∀ c ∈ kind.nested, c.NoUnknown

def Message.NoUnknown (m : Message) : Prop :=
  m.unknown = [] ∧ ∀ b ∈ m.blocks, b.NoUnknown

/-- **No unknown bytes anywhere** in the message tree of a request. -/
structure ChatRequest.NoUnknown (req : ChatRequest) : Prop where
  request : req.unknown = []
  messages : ∀ m ∈ req.messages, m.NoUnknown
  tools : ∀ t ∈ req.tools, t.unknown = []
  outputFormat : ∀ f ∈ req.outputFormat, f.unknown = []

/-- No slot of a list holds a byte. -/
def SlotsEmpty (slots : List (String × Bytes)) : Prop := ∀ slot ∈ slots, slot.2 = []

lemma slotsEmpty_cons {path : String} {bytes : Bytes} {slots : List (String × Bytes)} :
    SlotsEmpty ((path, bytes) :: slots) ↔ bytes = [] ∧ SlotsEmpty slots := by
  simp [SlotsEmpty]

/-- Slots collected over the elements of a list, each with its position. -/
lemma slotsEmpty_flatMap {α : Type} {P : α → Prop} {xs : List α}
    {slots : α × Nat → List (String × Bytes)} (h : ∀ x i, SlotsEmpty (slots (x, i)) ↔ P x) :
    SlotsEmpty (xs.zipIdx.flatMap slots) ↔ ∀ x ∈ xs, P x := by
  constructor
  · intro hempty x hx
    obtain ⟨i, hi⟩ := getElem?_of_mem hx
    have hmem : (x, i) ∈ xs.zipIdx := mem_zipIdx_iff_getElem?.mpr hi
    exact (h x i).mp fun slot hslot => hempty slot (mem_flatMap.mpr ⟨_, hmem, hslot⟩)
  · intro hP slot hslot
    obtain ⟨⟨x, i⟩, hx, hslot⟩ := mem_flatMap.mp hslot
    have hmem : x ∈ xs := mem_of_getElem? (mem_zipIdx_iff_getElem?.mp hx)
    exact (h x i).mpr (hP x hmem) slot hslot

lemma ToolResultContentBlock.slotsEmpty_iff (path : String) (c : ToolResultContentBlock) :
    SlotsEmpty (c.unknownSlots path) ↔ c.NoUnknown := by
  obtain ⟨kind, unknown⟩ := c
  rcases kind with _ | kind
  · simp [unknownSlots, NoUnknown, SlotsEmpty]
  · -- whichever arm is set, it adds one slot of its own
    cases kind <;> simp [unknownSlots, NoUnknown, SlotsEmpty, ToolResultContentKind.unknownBytes]

lemma RequestBlockKind.slotsEmpty_iff (path : String) (kind : RequestBlockKind) :
    SlotsEmpty (kind.unknownSlots path) ↔
      kind.unknownBytes = [] ∧ ∀ c ∈ kind.nested, c.NoUnknown := by
  rcases kind with b | b | b | b | b | b | b | b | b
  case toolResult =>
    show SlotsEmpty (_ :: _) ↔ b.unknown = [] ∧ ∀ c ∈ b.content, c.NoUnknown
    rw [slotsEmpty_cons]
    exact and_congr_right fun _ =>
      slotsEmpty_flatMap fun c i => ToolResultContentBlock.slotsEmpty_iff _ c
  -- every other arm is one slot with nothing below it
  all_goals simp [unknownSlots, unknownBytes, nested, SlotsEmpty]

lemma Message.slotsEmpty_iff (path : String) (m : Message) :
    SlotsEmpty (m.unknownSlots path) ↔ m.NoUnknown := by
  rw [unknownSlots, slotsEmpty_cons]
  refine and_congr_right fun _ => slotsEmpty_flatMap fun b i => ?_
  rw [slotsEmpty_cons]
  refine and_congr_right fun _ => ?_
  obtain ⟨kind, unknown⟩ := b
  rcases kind with _ | kind
  · simp [SlotsEmpty]
  · simp [RequestBlockKind.slotsEmpty_iff]

/-- What `verifyUnknownFields` looks at: everything but the output format. -/
lemma verifyUnknownFields_ok_iff {out : ChatRequest} : verifyUnknownFields out = .ok () ↔
      out.unknown = [] ∧ (∀ m ∈ out.messages, m.NoUnknown) ∧ ∀ t ∈ out.tools, t.unknown = [] := by
  have hslots : verifyUnknownFields out = .ok () ↔ SlotsEmpty out.unknownSlots := by
    unfold verifyUnknownFields
    cases hfind : out.unknownSlots.find? fun slot => slot.2 != [] with
    | none =>
      have hnone := find?_eq_none.mp hfind
      simpa [SlotsEmpty] using hnone
    | some slot =>
    have hslot : slot.2 ≠ [] := by simpa using find?_some hfind
    constructor
    · intro h
      cases h
    · intro h
      exact absurd (h slot (mem_of_find?_eq_some hfind)) hslot
  rw [hslots, ChatRequest.unknownSlots]
  have hmessages : SlotsEmpty
      (out.messages.zipIdx.flatMap fun m => m.1.unknownSlots s!"messages[{m.2}]") ↔
      ∀ m ∈ out.messages, m.NoUnknown := slotsEmpty_flatMap fun m i => Message.slotsEmpty_iff _ m
  have htools : SlotsEmpty (out.tools.zipIdx.map fun t => (s!"tools[{t.2}]", t.1.unknown)) ↔
      ∀ t ∈ out.tools, t.unknown = [] := by
    rw [map_eq_flatMap]
    exact slotsEmpty_flatMap fun t i => by simp [SlotsEmpty]
  rw [← hmessages, ← htools]
  simp [SlotsEmpty, or_imp, forall_and]

/-- **Unknown bytes pass in the output format only.**  A replacement that passes
the unconditional checks carries no unknown bytes exactly if its output
format, where it has one, carries none. -/
theorem verifyUnconditionalInvariants_noUnknown_iff (ext : Externals) (accepted out : ChatRequest)
    (h : verifyUnconditionalInvariants ext accepted out = .ok ()) :
    out.NoUnknown ↔ ∀ f ∈ out.outputFormat, f.unknown = [] := by
  obtain ⟨_, hunknown, -⟩ := Attempt.bind_eq_ok.mp h
  obtain ⟨hrequest, hmessages, htools⟩ := verifyUnknownFields_ok_iff.mp hunknown
  constructor
  · intro hno
    exact hno.outputFormat
  · intro hformat
    exact ⟨hrequest, hmessages, htools, hformat⟩

/-- A request with one user text and an output format. -/
def formatted (unknown : Bytes) : ChatRequest :=
  { model := "m"
    messages := [{ role := "user", blocks := [{ kind := some (.text { text := "hi" }) }] }]
    outputFormat := some { mode := 1, name := "f", unknown } }

theorem verifyUnconditionalInvariants_noUnknown_iff_formatted :
    (formatted []).NoUnknown ↔ ∀ f ∈ (formatted []).outputFormat, f.unknown = [] :=
  verifyUnconditionalInvariants_noUnknown_iff sampleExternals (formatted []) (formatted [])
    (by decide +kernel)

/-- The plugin adds an unknown field to the output format: it passes. -/
theorem verifyUnconditionalInvariants_formatUnknown :
    verifyUnconditionalInvariants sampleExternals (formatted []) (formatted [0x78, 0x01]) = .ok () ∧
      ¬(formatted [0x78, 0x01]).NoUnknown := by
  refine ⟨by decide +kernel, fun hno => ?_⟩
  have hbytes : ([0x78, 0x01] : Bytes) = [] := hno.outputFormat _ rfl
  cases hbytes

/-! ## Tool namespaces -/

/-- The tools that carry a namespace path, in order. -/
def namespacedTools (tools : List ToolDef) : List ToolDef :=
  tools.filter fun t => t.namespacePath != []

/-- Every name both requests use stands for one namespace path. -/
def SameNamespaces (accepted out : ChatRequest) : Prop :=
  ∀ t ∈ accepted.tools, ∀ t' ∈ out.tools, t.name = t'.name → t.namespacePath = t'.namespacePath

/-- A name that is namespaced on one side is not a plain tool's on the other. -/
def NamespacedStays (before after : List ToolDef) : Prop :=
  ∀ t ∈ namespacedTools before, ∀ t' ∈ after, t.name = t'.name → t' ∈ namespacedTools after

/-- A namespaced name that moves among the namespaced tools moves between places
whose tools had one path. -/
def MovesWithinPath (before after : List ToolDef) : Prop :=
  ∀ (i j : Nat) (t u t' : ToolDef), (namespacedTools before)[i]? = some t →
    (namespacedTools before)[j]? = some u → (namespacedTools after)[j]? = some t' →
      t.name = t'.name → t.namespacePath = u.namespacePath

lemma mem_namespacedTools {tools : List ToolDef} {t : ToolDef} :
    t ∈ namespacedTools tools ↔ t ∈ tools ∧ t.namespacePath ≠ [] := by
  simp [namespacedTools]

variable {after before : List ToolDef}

lemma sameNamespacedToolTopology_eq (h : sameNamespacedToolTopology before after = true) :
    (namespacedTools before).map ToolDef.namespacePath =
      (namespacedTools after).map ToolDef.namespacePath := by
  have heq := eq_of_beq h
  rw [filter_map, filter_map] at heq
  exact heq

lemma sameNamespacedToolTopology_of_invariants {ext : Externals} {accepted out : ChatRequest}
    (h : verifyUnconditionalInvariants ext accepted out = .ok ()) :
    sameNamespacedToolTopology accepted.tools out.tools = true := by
  obtain ⟨_, -, h⟩ := Attempt.bind_eq_ok.mp h
  split at h
  · cases h
  split at h
  · cases h
  · next htopology => simpa using htopology

/-- At one place of the two sequences stands one path. -/
lemma namespacePath_eq_of_topology {i : Nat} {t t' : ToolDef}
    (h : sameNamespacedToolTopology before after = true)
    (ht : (namespacedTools before)[i]? = some t) (ht' : (namespacedTools after)[i]? = some t') :
    t.namespacePath = t'.namespacePath := by
  have hpaths := congrArg (·[i]?) (sameNamespacedToolTopology_eq h)
  simp only [getElem?_map, ht, ht', Option.map_some, Option.some.injEq] at hpaths
  exact hpaths

/-- The two sequences have one length. -/
lemma exists_namespaced_before {i : Nat} {t' : ToolDef}
    (h : sameNamespacedToolTopology before after = true)
    (ht' : (namespacedTools after)[i]? = some t') : ∃ t, (namespacedTools before)[i]? = some t := by
  have hpaths := congrArg (·[i]?) (sameNamespacedToolTopology_eq h)
  simp only [getElem?_map, ht'] at hpaths
  obtain ⟨t, ht, -⟩ := Option.map_eq_some_iff.mp hpaths
  exact ⟨t, ht⟩

/-- **Names keep their namespaces exactly if they keep their places.**  Under the
unconditional checks every name both requests use has one namespace path
exactly if no name is namespaced in one request and plain in the other, and
a namespaced name changes places only between tools of one path. -/
theorem verifyUnconditionalInvariants_sameNamespaces_iff (ext : Externals)
    (accepted out : ChatRequest) (h : verifyUnconditionalInvariants ext accepted out = .ok ()) :
    SameNamespaces accepted out ↔
      NamespacedStays accepted.tools out.tools ∧ NamespacedStays out.tools accepted.tools ∧
        MovesWithinPath accepted.tools out.tools := by
  have htopology := sameNamespacedToolTopology_of_invariants h
  constructor
  · intro hsame
    refine ⟨?_, ?_, ?_⟩
    · intro t ht t' ht' hname
      obtain ⟨ht, hpath⟩ := mem_namespacedTools.mp ht
      exact mem_namespacedTools.mpr ⟨ht', hsame t ht t' ht' hname ▸ hpath⟩
    · intro t' ht' t ht hname
      obtain ⟨ht', hpath⟩ := mem_namespacedTools.mp ht'
      exact mem_namespacedTools.mpr ⟨ht, (hsame t ht t' ht' hname.symm).symm ▸ hpath⟩
    · intro i j t u t' hi hj hj' hname
      have ht := (mem_namespacedTools.mp (mem_of_getElem? hi)).1
      have ht' := (mem_namespacedTools.mp (mem_of_getElem? hj')).1
      calc t.namespacePath = t'.namespacePath := hsame t ht t' ht' hname
        _ = u.namespacePath := (namespacePath_eq_of_topology htopology hj hj').symm
  · rintro ⟨hstays, hback, hmoves⟩ t ht t' ht' hname
    by_cases hpath : t.namespacePath = []
    · -- a plain tool: were the other namespaced, its name would be plain here
      by_contra hne
      have hnamespaced : t' ∈ namespacedTools out.tools :=
        mem_namespacedTools.mpr ⟨ht', fun hnil => hne (hpath.trans hnil.symm)⟩
      exact (mem_namespacedTools.mp (hback t' hnamespaced t ht hname.symm)).2 hpath
    have hmem : t ∈ namespacedTools accepted.tools := mem_namespacedTools.mpr ⟨ht, hpath⟩
    obtain ⟨i, hi⟩ := getElem?_of_mem hmem
    obtain ⟨j, hj'⟩ := getElem?_of_mem (hstays t hmem t' ht' hname)
    obtain ⟨u, hj⟩ := exists_namespaced_before htopology hj'
    calc t.namespacePath = u.namespacePath := hmoves i j t u t' hi hj hj' hname
      _ = t'.namespacePath := namespacePath_eq_of_topology htopology hj hj'

/-- Two tools, the first of them in the namespace `x`. -/
def twoTools (first second : String) : ChatRequest :=
  { model := "m", tools := [{ name := first, namespacePath := ["x"] }, { name := second }] }

theorem verifyUnconditionalInvariants_sameNamespaces_iff_twoTools :
    SameNamespaces (twoTools "a" "b") (twoTools "a" "c") ↔
      NamespacedStays (twoTools "a" "b").tools (twoTools "a" "c").tools ∧
        NamespacedStays (twoTools "a" "c").tools (twoTools "a" "b").tools ∧
          MovesWithinPath (twoTools "a" "b").tools (twoTools "a" "c").tools :=
  verifyUnconditionalInvariants_sameNamespaces_iff sampleExternals _ _ (by decide +kernel)

/-- The path moves from one tool to the other, and the check passes. -/
theorem verifyUnconditionalInvariants_namespaceMoved :
    ((twoTools "a" "b").tools.map ToolDef.name).Nodup ∧
      ((twoTools "b" "a").tools.map ToolDef.name).Nodup ∧
      verifyUnconditionalInvariants sampleExternals (twoTools "a" "b") (twoTools "b" "a") = .ok () ∧
      ¬SameNamespaces (twoTools "a" "b") (twoTools "b" "a") := by
  refine ⟨by decide, by decide, by decide +kernel, fun hsame => ?_⟩
  have hpath : ["x"] = [] := hsame { name := "a", namespacePath := ["x"] } (mem_cons_self ..)
    { name := "a" } (mem_cons_of_mem _ (mem_cons_self ..)) rfl
  cases hpath

end ToranaEdge
