import ToranaEdge.Pipeline.Host
import Mathlib.Data.List.Induction

/-! # The verdicts of plugins that trap

Plugins take turns on a request and record verdicts; what a plugin recorded before a
trap is discarded, its block excepted.  The verdicts that stay are compared with those
of the same turns in which the discarded calls were never made.  A response keeps its
first verdict, and nothing is lost; a route or an identity has one place for the last
verdict, and discarding it does not bring back the one it replaced. -/

namespace ToranaEdge

open List

/-- One plugin's turn: its verdict calls, and whether it traps after them. -/
structure PluginTurn where
  plugin : String
  calls : List VerdictCall
  traps : Bool

/-- The turn without what its trap discards. -/
def PluginTurn.kept (t : PluginTurn) : PluginTurn :=
  if t.traps then { t with calls := t.calls.filter VerdictCall.isBlock } else t

namespace VerdictCall

/-! What a call records, each under the name of the plugin. -/

variable (plugin : String)

def blockOf : VerdictCall → Option BlockVerdict
  | .block status code message => some ⟨plugin, status, code, message⟩
  | _ => none

def respondOf : VerdictCall → Option RespondVerdict
  | .respond response => some ⟨plugin, response⟩
  | _ => none

def routeOf : VerdictCall → Option RouteVerdict
  | .route provider model effort => some ⟨plugin, provider, model, effort⟩
  | _ => none

def identityOf : VerdictCall → Option IdentityVerdict
  | .identity id => some ⟨plugin, id⟩
  | _ => none

end VerdictCall

variable {calls : List VerdictCall} {p : String}

namespace RequestVerdicts

open VerdictCall

/-- A turn, and `DiscardTrappedVerdicts` after a trap. -/
def turn (v : RequestVerdicts) (t : PluginTurn) : RequestVerdicts :=
  if t.traps then (recordAll t.plugin v t.calls).discardFrom t.plugin
  else recordAll t.plugin v t.calls

def turns (ts : List PluginTurn) : RequestVerdicts := ts.foldl turn {}

lemma turns_concat (ts : List PluginTurn) (t : PluginTurn) :
    turns (ts ++ [t]) = (turns ts).turn t := by
  simp [turns]

variable {β : Type}

/-- The plugin makes a call that records a verdict of this kind. -/
def Sets (pick : String → VerdictCall → Option β) (t : PluginTurn) : Prop :=
  ∃ c ∈ t.calls, (pick t.plugin c).isSome

instance {β : Type} (pick : String → VerdictCall → Option β) : DecidablePred (Sets pick) :=
  fun _ => inferInstanceAs (Decidable (∃ _ ∈ _, _))

/-- If the last plugin to set a verdict of this kind traps, all that set one trap. -/
def LastStands (pick : String → VerdictCall → Option β) (ts : List PluginTurn) : Prop :=
  ∀ r ∈ (ts.filter (Sets pick)).getLast?, r.traps = true → ∀ t ∈ ts, Sets pick t → t.traps = true

lemma lastStands_concat {pick : String → VerdictCall → Option β} {ts : List PluginTurn}
    {t : PluginTurn} : LastStands pick (ts ++ [t]) ↔ if Sets pick t then
      t.traps = true → ∀ t ∈ ts, Sets pick t → t.traps = true else LastStands pick ts := by
  by_cases hset : Sets pick t <;> simp [LastStands, hset, or_imp, forall_and]

/-! ## One verdict of the four -/

/-- Of two verdicts the first or the last stands. -/
def wins (last : Bool) (s b : Option β) : Option β := if last then b.or s else s.or b

/-- A place for a verdict, the calls that record one, and what a trap discards. -/
structure Slot (β : Type) where
  last : Bool
  get : RequestVerdicts → Option β
  owner : β → String
  pick : String → VerdictCall → Option β
  empty : get {} = none := by rfl
  record : ∀ p v c, get (record p v c) = wins last (get v) (pick p c) := by
    intro p v c
    cases c with
    | block _ _ _ | respond _ => simp only [RequestVerdicts.record]; split <;> rfl
    | route _ _ _ | identity _ => rfl
  discard : ∀ v p, get (v.discardFrom p) = (get v).filter fun b => owner b != p := by intros; rfl
  owned : ∀ {p c b}, pick p c = some b → owner b = p := by
    intro p c b h
    cases c <;> cases h
    rfl
  nonblock : ∀ {p c}, c.isBlock = true → pick p c = none := by
    intro p c h
    cases c <;> first | rfl | cases h

section slot

variable {β : Type} {S : Slot β} {v : RequestVerdicts} {t : PluginTurn} {ts : List PluginTurn}

lemma Slot.get_recordAll :
    S.get (recordAll p v calls) = calls.foldl (fun s c => wins S.last s (S.pick p c)) (S.get v) := by
  induction calls generalizing v with
  | nil => rfl
  | cons c calls ih =>
    rw [foldl_cons, ← S.record, ← ih]
    rfl

/-- What a plugin does not own was there before its calls. -/
lemma Slot.mem_of_recordAll {b : β}
    (hb : b ∈ S.get (recordAll p v calls)) : b ∈ S.get v ∨ S.owner b = p := by
  induction calls generalizing v with
  | nil => exact .inl hb
  | cons c calls ih =>
  rcases ih hb with hb | hb
  · rw [S.record] at hb
    have hwins : b ∈ S.get v ∨ b ∈ S.pick p c := by
      unfold wins at hb
      split at hb
      · exact (Option.or_eq_some_iff.mp hb).elim .inr fun h => .inl h.2
      · exact (Option.or_eq_some_iff.mp hb).imp id fun h => h.2
    exact hwins.imp id S.owned
  · exact .inr hb

/-- Every verdict is owned by a plugin that had its turn. -/
lemma Slot.owner_mem {b : β} (hb : b ∈ S.get (turns ts)) : S.owner b ∈ ts.map PluginTurn.plugin := by
  induction ts using reverseRecOn with
  | nil =>
    rw [turns, foldl_nil, S.empty] at hb
    cases hb
  | append_singleton ts t ih =>
  have hcalls : b ∈ S.get (recordAll t.plugin (turns ts) t.calls) := by
    rw [turns_concat, turn] at hb
    split at hb
    · rw [S.discard] at hb
      exact (Option.mem_filter_iff.mp hb).1
    · exact hb
  rw [map_append, mem_append]
  exact (S.mem_of_recordAll hcalls).imp ih fun heq => by simp [heq]

lemma Slot.filter_owner {s : Option β} (hs : ∀ b ∈ s, S.owner b ≠ p) :
    (s.filter fun b => S.owner b != p) = s := by
  cases s with
  | none => rfl
  | some b => simp [hs b rfl]

/-- A turn without what its trap discards. -/
lemma Slot.get_turn_kept (hs : ∀ b ∈ S.get v, S.owner b ≠ t.plugin) :
    S.get (v.turn t.kept) = if t.traps then S.get v else S.get (v.turn t) := by
  unfold PluginTurn.kept
  split
  next htraps =>
    have hsame : S.get (recordAll t.plugin v (t.calls.filter isBlock)) = S.get v := by
      rw [S.get_recordAll, foldl_ext _ (fun s _ => s), foldl_fixed]
      intro s c hc
      simp [S.nonblock (of_mem_filter hc), wins]
    rw [turn, if_pos htraps, S.discard]
    simp only [hsame]
    exact S.filter_owner hs
  · rfl

/-- A plugin that has its turn owns nothing yet, with or without what traps discard. -/
lemma Slot.others (h : ((ts ++ [t]).map PluginTurn.plugin).Nodup) :
    (ts.map PluginTurn.plugin).Nodup ∧ (∀ b ∈ S.get (turns ts), S.owner b ≠ t.plugin) ∧
      ∀ b ∈ S.get (turns (ts.map PluginTurn.kept)), S.owner b ≠ t.plugin := by
  rw [map_append, nodup_append] at h
  obtain ⟨hbefore, -, hnew⟩ := h
  have hnames : (ts.map PluginTurn.kept).map PluginTurn.plugin = ts.map PluginTurn.plugin := by
    rw [map_map]
    refine map_congr_left fun t _ => ?_
    simp only [Function.comp_apply, PluginTurn.kept]
    split <;> rfl
  exact ⟨hbefore, fun b hb => hnew _ (S.owner_mem hb) _ (mem_singleton_self _),
    fun b hb => hnew _ (hnames ▸ S.owner_mem hb) _ (mem_singleton_self _)⟩

lemma Slot.get_turn_trapped (htraps : t.traps = true) : S.get (v.turn t) =
      (S.get (recordAll t.plugin v t.calls)).filter fun b => S.owner b != t.plugin := by
  rw [turn, if_pos htraps, S.discard]

lemma Slot.get_turn_completed (htraps : ¬ t.traps = true) :
    S.get (v.turn t) = t.calls.foldl (fun s c => wins S.last s (S.pick t.plugin c)) (S.get v) := by
  rw [turn, if_neg htraps, S.get_recordAll]

lemma foldl_last {pick : String → VerdictCall → Option β}
    {s : Option β} : calls.foldl (fun s c => wins true s (pick p c)) s =
      (calls.reverse.findSome? (pick p)).or s := by
  induction calls generalizing s with
  | nil => rfl
  | cons c calls ih =>
    rw [foldl_cons, ih, wins, if_pos rfl, ← Option.or_assoc, reverse_cons, findSome?_append,
      findSome?_singleton]

variable (hdistinct : (ts.map PluginTurn.plugin).Nodup)
include hdistinct

/-- Where the first verdict stands, what a trap discards leaves no trace. -/
lemma Slot.get_turns_first (hfirst : S.last = false) :
    S.get (turns ts) = S.get (turns (ts.map PluginTurn.kept)) := by
  induction ts using reverseRecOn with
  | nil => rfl
  | append_singleton ts t ih =>
  obtain ⟨hbefore, hothers, hothers'⟩ := S.others hdistinct
  rw [turns_concat, map_append, map_singleton, turns_concat, S.get_turn_kept hothers', ← ih hbefore]
  by_cases htraps : t.traps = true
  · rw [if_pos htraps, S.get_turn_trapped htraps]
    cases hv : S.get (turns ts) with
    | none =>
      rw [Option.filter_eq_none_iff]
      intro b hb
      rcases S.mem_of_recordAll hb with hb | hb
      · rw [hv] at hb
        cases hb
      · simp [hb]
    | some b =>
      rw [S.get_recordAll, hfirst, hv, foldl_fixed' fun _ => rfl]
      exact S.filter_owner (hv ▸ hothers)
  · rw [if_neg htraps, S.get_turn_completed htraps, S.get_turn_completed htraps, ih hbefore]

/-- Where the last verdict stands, it leaves none exactly when the last plugin to set one
completes, or no plugin that sets one does. -/
lemma Slot.get_turns_last (hlast : S.last = true) :
    (S.get (turns ts) = S.get (turns (ts.map PluginTurn.kept)) ↔ LastStands S.pick ts) ∧
      (S.get (turns (ts.map PluginTurn.kept)) = none ↔ ∀ t ∈ ts, Sets S.pick t → t.traps = true) := by
  induction ts using reverseRecOn with
  | nil => simp [turns, S.empty, LastStands]
  | append_singleton ts t ih =>
  obtain ⟨hbefore, hothers, hothers'⟩ := S.others hdistinct
  obtain ⟨hsame, hnone⟩ := ih hbefore
  have hcalls : ∀ v, S.get (recordAll t.plugin v t.calls) =
      (t.calls.reverse.findSome? (S.pick t.plugin)).or (S.get v) := by
    intro v
    rw [S.get_recordAll, hlast, foldl_last]
  rw [turns_concat, map_append, map_singleton, turns_concat, S.get_turn_kept hothers',
    lastStands_concat, forall_mem_append]
  by_cases hset : Sets S.pick t
  · obtain ⟨b, hb⟩ : ∃ b, t.calls.reverse.findSome? (S.pick t.plugin) = some b := by
      rw [← Option.isSome_iff_exists]
      simpa [Sets] using hset
    obtain ⟨c, -, hc⟩ := exists_of_findSome?_eq_some hb
    by_cases htraps : t.traps = true
    · rw [S.get_turn_trapped htraps, hcalls, hb]
      rw [Option.some_or, Option.filter_some, if_neg (by simp [S.owned hc]), if_pos hset, eq_comm]
      simp [htraps, hnone]
    · simp [turn, htraps, hcalls, hb, hset]
  have hempty : t.calls.reverse.findSome? (S.pick t.plugin) = none := by
    simpa [Sets] using hset
  by_cases htraps : t.traps = true
  · rw [if_pos htraps, S.get_turn_trapped htraps, hcalls, hempty]
    simp [S.filter_owner hothers, hset, hsame, hnone]
  · simp [turn, htraps, hcalls, hempty, hset, hsame, hnone]

end slot

/-! ## The verdicts of a request -/

def respondSlot : Slot RespondVerdict where
  last := false
  get := respond
  owner := RespondVerdict.plugin
  pick := respondOf
  record p v c := by
    cases c with
    | respond r => cases hv : v.respond <;> simp [record, respondOf, wins, hv]
    | block s c m => simp only [record, respondOf, wins, Option.or_none]; split <;> rfl
    | route a b e | identity i => simp [record, respondOf, wins]

def routeSlot : Slot RouteVerdict where
  last := true
  get := route
  owner := RouteVerdict.plugin
  pick := routeOf

def identitySlot : Slot IdentityVerdict where
  last := true
  get := identity
  owner := IdentityVerdict.plugin
  pick := identityOf

lemma block_recordAll {v : RequestVerdicts} :
    (recordAll p v calls).block = v.block.or (calls.findSome? (blockOf p)) := by
  induction calls generalizing v with
  | nil => exact Option.or_none.symm
  | cons c calls ih =>
  have hrecord : (record p v c).block = v.block.or (blockOf p c) := by
    cases c with
    | block s c m => cases hv : v.block <;> simp [record, blockOf, hv]
    | respond r => simp only [record, blockOf, Option.or_none]; split <;> rfl
    | route a b e | identity i => simp [record, blockOf]
  show (recordAll p (record p v c) calls).block = _
  rw [ih, hrecord, Option.or_assoc, findSome?_cons]
  cases blockOf p c <;> rfl

/-- The first block of all stands, whatever traps. -/
lemma block_turns (ts : List PluginTurn) :
    (turns ts).block = ts.findSome? fun t => t.calls.findSome? (blockOf t.plugin) := by
  induction ts using reverseRecOn with
  | nil => rfl
  | append_singleton ts t ih =>
  have hturn : ((turns ts).turn t).block = (recordAll t.plugin (turns ts) t.calls).block := by
    unfold turn
    split <;> rfl
  rw [turns_concat, hturn, block_recordAll, ih, findSome?_append, findSome?_singleton]

/-- A trapped plugin leaves no trace but a block: the other verdicts are those of the turns
without what is discarded, and the block is the first one. -/
structure Untraced (ts : List PluginTurn) : Prop where
  respond : (turns ts).respond = (turns (ts.map PluginTurn.kept)).respond
  route : (turns ts).route = (turns (ts.map PluginTurn.kept)).route
  identity : (turns ts).identity = (turns (ts.map PluginTurn.kept)).identity
  block : (turns ts).block = ts.findSome? fun t => t.calls.findSome? (blockOf t.plugin)

/-- **Trapped plugins** leave no trace exactly when, for routes and for identities, the
last plugin to set one completes or no plugin that sets one does. -/
theorem untraced_iff {ts : List PluginTurn} (hdistinct : (ts.map PluginTurn.plugin).Nodup) :
    Untraced ts ↔ LastStands routeOf ts ∧ LastStands identityOf ts := by
  have hroute := (@Slot.get_turns_last _ routeSlot ts hdistinct rfl).1
  have hidentity := (@Slot.get_turns_last _ identitySlot ts hdistinct rfl).1
  constructor
  · intro h
    exact ⟨hroute.mp h.route, hidentity.mp h.identity⟩
  · rintro ⟨hr, hi⟩
    exact ⟨@Slot.get_turns_first _ respondSlot ts hdistinct rfl, hroute.mpr hr, hidentity.mpr hi,
      block_turns ts⟩

/-- A plugin sets a route, and one after it does so and traps. -/
def reroutes : List PluginTurn :=
  [⟨"a", [.route "openai" "" 0], false⟩, ⟨"b", [.route "" "mini" 0], true⟩]

theorem untraced_iff_reroutes :
    Untraced reroutes ↔ LastStands routeOf reroutes ∧ LastStands identityOf reroutes :=
  untraced_iff (by decide)

/-- The route of the plugin that completed is gone. -/
theorem reroutes_lost : (turns reroutes).route = none ∧
      (turns (reroutes.map PluginTurn.kept)).route = some ⟨"a", "openai", "", 0⟩ := by
  decide

end RequestVerdicts

end ToranaEdge
