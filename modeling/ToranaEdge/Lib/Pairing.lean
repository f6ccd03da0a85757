import ToranaEdge.Lib.Splits

/-! # Calls and their replies

Calls and replies are made under a key, and carry an identity.  A reply that is
given the identity of the last call under its key is given that of its own call
exactly when the calls under a key are answered one by one. -/

namespace ToranaEdge.Pairing

open List

inductive Event (κ ι : Type*) where
  | call (key : κ) (id : ι)
  | reply (key : κ) (id : ι)
  deriving DecidableEq, Repr

variable {κ ι ν : Type*}

namespace Event

def map (f : ι → ν) : Event κ ι → Event κ ν
  | .call key id => .call key (f id)
  | .reply key id => .reply key (f id)

lemma length_filterMap_map {pick : Event κ ι → Option ι} {pick' : Event κ ν → Option ν} {f : ι → ν}
    (h : ∀ e, pick' (e.map f) = (pick e).map f) (events : List (Event κ ι)) :
    ((events.map (map f)).filterMap pick').length = (events.filterMap pick).length := by
  have hfun : pick' ∘ map f = fun e => (pick e).map f := funext h
  rw [filterMap_map, hfun, ← map_filterMap, length_map]

variable [DecidableEq κ]

def callTo (key : κ) : Event κ ι → Option ι
  | .call k id => if k = key then some id else none
  | .reply _ _ => none

def replyTo (key : κ) : Event κ ι → Option ι
  | .call _ _ => none
  | .reply k id => if k = key then some id else none

/-- The identity of a call, under any key. -/
def callID : Event κ ι → Option ι
  | .call _ id => some id
  | .reply _ _ => none

lemma callTo_map (key : κ) (f : ι → ν) (e : Event κ ι) :
    (e.map f).callTo key = (e.callTo key).map f := by
  cases e with
  | call k id | reply k id => simp [map, callTo]

lemma replyTo_map (key : κ) (f : ι → ν) (e : Event κ ι) :
    (e.map f).replyTo key = (e.replyTo key).map f := by
  cases e with
  | call k id | reply k id => simp [map, replyTo]

end Event

variable [DecidableEq κ]

/-- The calls under a key, in order. -/
def calls (key : κ) (events : List (Event κ ι)) : List ι := events.filterMap (Event.callTo key)

/-- The replies under a key, in order. -/
def replies (key : κ) (events : List (Event κ ι)) : List ι := events.filterMap (Event.replyTo key)

/-- The calls under every key. -/
def callIDs (events : List (Event κ ι)) : List ι := events.filterMap Event.callID

variable {key : κ} {id : ι} {events pre post : List (Event κ ι)}

lemma calls_append : calls key (pre ++ post) = calls key pre ++ calls key post := filterMap_append

variable (f : ι → ν)

lemma length_calls_map : (calls key (events.map (Event.map f))).length =
    (calls key events).length := Event.length_filterMap_map (Event.callTo_map key f) events

lemma length_replies_map : (replies key (events.map (Event.map f))).length =
    (replies key events).length := Event.length_filterMap_map (Event.replyTo_map key f) events

/-- The calls under one key are among the calls. -/
lemma calls_sublist (key : κ) (events : List (Event κ ι)) :
    (calls key events).Sublist (callIDs events) := by
  induction events with
  | nil => exact Sublist.refl _
  | cons e events ih =>
  cases e with
  | call k id =>
    by_cases h : k = key
    · simp only [calls, filterMap_cons, Event.callTo, h]
      exact ih.cons_cons id
    · simp only [calls, filterMap_cons, Event.callTo, h]
      exact ih.cons id
  | reply k id => exact ih

/-- The `k`-th reply under a key carries the identity of the `k`-th call. -/
def Paired (events : List (Event κ ι)) : Prop :=
  ∀ key (k : Nat) id, (replies key events)[k]? = some id → (calls key events)[k]? = some id

variable (before : List (Event κ ι))

/-- A reply comes after its call: there are more calls than replies. -/
def AfterCall : Event κ ι → Prop
  | .call _ _ => True
  | .reply key _ => (replies key before).length < (calls key before).length

/-- A reply comes while its call is the only one without a reply. -/
def InTurn : Event κ ι → Prop
  | .call _ _ => True
  | .reply key _ => (calls key before).length = (replies key before).length + 1

/-- A reply carries the identity of the last call under its key. -/
def Latest : Event κ ι → Prop
  | .call _ _ => True
  | .reply key id => (calls key before).getLast? = some id

instance (before : List (Event κ ι)) (e : Event κ ι) : Decidable (InTurn before e) := by
  cases e <;> unfold InTurn <;> infer_instance

instance (before : List (Event κ ι)) (e : Event κ ι) : Decidable (AfterCall before e) := by
  cases e <;> unfold AfterCall <;> infer_instance

lemma afterCall_map (e : Event κ ι) :
    AfterCall (events.map (Event.map f)) (e.map f) ↔ AfterCall events e := by
  cases e with
  | call k id | reply k id => simp [Event.map, AfterCall, length_replies_map, length_calls_map]

lemma inTurn_map (e : Event κ ι) :
    InTurn (events.map (Event.map f)) (e.map f) ↔ InTurn events e := by
  cases e with
  | call k id | reply k id => simp [Event.map, InTurn, length_replies_map, length_calls_map]

/-- A reply is made somewhere, after the replies before it. -/
lemma exists_reply {k : Nat} (h : (replies key events)[k]? = some id) :
    ∃ pre post, events = pre ++ .reply key id :: post ∧ (replies key pre).length = k := by
  induction events generalizing k with
  | nil => simp [replies] at h
  | cons e events ih =>
  by_cases hreply : e.replyTo key = none
  · have hrest : (replies key events)[k]? = some id := by
      rwa [replies, filterMap_cons_none hreply] at h
    obtain ⟨pre, post, rfl, hlength⟩ := ih hrest
    refine ⟨e :: pre, post, rfl, ?_⟩
    rwa [replies, filterMap_cons_none hreply]
  obtain ⟨first, hfirst⟩ := Option.ne_none_iff_exists'.mp hreply
  rw [replies, filterMap_cons_some hfirst] at h
  cases k with
  | zero =>
    cases h
    refine ⟨[], events, ?_, rfl⟩
    cases e with
    | call k' id' => cases hfirst
    | reply k' id' =>
    obtain ⟨rfl, hid⟩ := Option.ite_none_right_eq_some.mp hfirst
    cases hid
    rfl
  | succ k =>
  obtain ⟨pre, post, rfl, hlength⟩ := ih h
  refine ⟨e :: pre, post, rfl, ?_⟩
  rw [replies, filterMap_cons_some hfirst]
  exact congrArg (· + 1) hlength

/-- **Pairing with the last call** is pairing with the own call exactly when every
reply comes in turn. -/
theorem paired_iff (hlatest : Splits.AtEach Latest [] events) (hdistinct : (callIDs events).Nodup) :
    Paired events ↔ Splits.AtEach InTurn [] events := by
  constructor
  · intro hpaired before e post heq
    cases e with
    | call k id => trivial
    | reply key id =>
    have hlast : (calls key before).getLast? = some id := hlatest before (.reply key id) post heq
    have hpos : 0 < (calls key before).length := by
      rw [length_pos_iff]
      intro hnil
      rw [hnil] at hlast
      cases hlast
    rw [getLast?_eq_getElem?] at hlast
    -- the reply is the next one under its key, and its identity that of the last call
    have hreply : (replies key events)[(replies key before).length]? = some id := by
      rw [heq]
      simp [replies, Event.replyTo]
    have hcall : (calls key events)[(calls key before).length - 1]? = some id := by
      rw [heq, calls_append, getElem?_append_left (by omega)]
      exact hlast
    have hown := hpaired key _ id hreply
    have hindex := (getElem?_inj (List.getElem?_eq_some_iff.mp hown).1
      (hdistinct.sublist (calls_sublist key events))).mp (hown.trans hcall.symm)
    show (calls key before).length = (replies key before).length + 1
    omega
  · intro hturn key k id hreply
    obtain ⟨before, post, heq, hlength⟩ := exists_reply hreply
    have hcount : (calls key before).length = (replies key before).length + 1 :=
      hturn before (.reply key id) post heq
    have hlast : (calls key before).getLast? = some id := hlatest before (.reply key id) post heq
    rw [getLast?_eq_getElem?, hcount, hlength] at hlast
    rw [heq, calls_append, getElem?_append_left (by omega)]
    exact hlast

end ToranaEdge.Pairing
