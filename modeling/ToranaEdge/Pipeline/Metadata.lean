import ToranaEdge.Lib.Attempt
import ToranaEdge.Lib.Splits
import ToranaEdge.PluginState.Records

/-! # Request metadata and its budgets

Plugins keep values under keys for the duration of a request.  Each value and the
request as a whole have a budget.  A write is checked against the lengths stored so
far and the change of the value; the length of a key that is new is not part of that
change, though it is stored. -/

namespace ToranaEdge.Metadata

open ToranaEdge.Splits PluginState Option

/-! ## The calls -/

def maxMetaValueBytes : Nat := 4 * 2 ^ 20

def maxMetaRequestBytes : Nat := 16 * 2 ^ 20

/-- `r.meta[reqID]`.  A request without a bucket reads as one with nothing in it, and
nothing here tells the two apart. -/
abbrev Bucket : Type := OrdMap Bytes Bytes

variable (bucket : Bucket)

/-- The lengths of all keys and values. -/
def Bucket.total : Nat := bucket.weight fun key value => key.length + value.length

/-- `checkMetaBudget`: the length of the value after the write, and the change of the
total as the caller gives it. -/
def checkMetaBudget (finalLen : Nat) (delta : Int) : Except String Unit :=
  if finalLen > maxMetaValueBytes then
    .error (s!"metadata key would reach {finalLen} bytes, over the {maxMetaValueBytes} " ++
      "byte per-key limit")
  else if delta + bucket.total > maxMetaRequestBytes then
    .error (s!"request metadata would reach {delta + bucket.total} bytes, over the " ++
      s!"{maxMetaRequestBytes} byte limit")
  else .ok ()

/-- `metaAppend`: the bucket after it, the buffer and whether it is there, and the error.
An empty fragment reads; an appended one is only acknowledged. -/
def metaAppend (key fragment : Bytes) : Bucket × Bytes × Bool × Option String :=
  let existing := (bucket.find? key).getD []
  if fragment = [] then (bucket, existing, (bucket.find? key).isSome, none)
  else
    match checkMetaBudget bucket (existing.length + fragment.length) fragment.length with
    | .error err => (bucket, existing, (bucket.find? key).isSome, some err)
    | .ok () => (bucket.insert key (existing ++ fragment), [], true, none)

def metaSetBounded (key value : Bytes) : Bucket × Option String :=
  match checkMetaBudget bucket value.length
      ((value.length : Int) - ((bucket.find? key).getD []).length) with
  | .error err => (bucket, some err)
  | .ok () => (bucket.insert key value, none)

inductive Call where
  | append (key fragment : Bytes)
  | set (key value : Bytes)

/-- The bucket after a call, and the error. -/
def Call.on : Call → Bucket × Option String
  | .append key fragment =>
    ((metaAppend bucket key fragment).1, (metaAppend bucket key fragment).2.2.2)
  | .set key value => metaSetBounded bucket key value

def step (c : Call) : Bucket := (c.on bucket).1

/-! ## One call -/

/-- The key and the value a call wants stored; an empty fragment stores nothing. -/
def Call.write : Call → Option (Bytes × Bytes)
  | .append key fragment =>
    if fragment = [] then none else some (key, (bucket.find? key).getD [] ++ fragment)
  | .set key value => some (key, value)

/-- The check of a write, for both calls: the value replaces the one of its key. -/
def Fits (key value : Bytes) : Prop :=
  value.length ≤ maxMetaValueBytes ∧
    bucket.total + value.length ≤ maxMetaRequestBytes + ((bucket.find? key).getD []).length

instance (bucket : Bucket) (key value : Bytes) : Decidable (Fits bucket key value) :=
  inferInstanceAs (Decidable (_ ∧ _))

/-- The write passes its check, and the length of its key, which is new, is more than the
budget has left. -/
def Overshoots (c : Call) : Prop :=
  (c.write bucket).any fun w => bucket.find? w.1 = none ∧ Fits bucket w.1 w.2 ∧
    maxMetaRequestBytes < bucket.total + w.1.length + w.2.length

variable {bucket : Bucket}

lemma checkMetaBudget_eq_ok {key value : Bytes} {n : Nat} {delta : Int} (hn : n = value.length)
    (hdelta : delta = value.length - ((bucket.find? key).getD []).length) :
    checkMetaBudget bucket n delta = .ok () ↔ Fits bucket key value := by
  rw [checkMetaBudget, Attempt.guard_eq_ok, Attempt.guard_eq_ok, Fits]
  simp only [and_true]
  omega

/-- A call stores its write, or fails and stores nothing. -/
lemma on_cases (bucket : Bucket) (c : Call) :
    (c.on bucket).1 = bucket ∧ (∀ w ∈ c.write bucket, ¬ Fits bucket w.1 w.2) ∨
      ∃ w ∈ c.write bucket, Fits bucket w.1 w.2 ∧ c.on bucket = (bucket.insert w.1 w.2, none) := by
  cases c with
  | append key fragment =>
    by_cases hempty : fragment = []
    · exact .inl ⟨by simp [Call.on, metaAppend, hempty], by simp [Call.write, hempty]⟩
    have hwrite : (Call.append key fragment).write bucket =
        some (key, (bucket.find? key).getD [] ++ fragment) := if_neg hempty
    have hfits := @checkMetaBudget_eq_ok bucket key ((bucket.find? key).getD [] ++ fragment) _
      fragment.length List.length_append.symm (by rw [List.length_append]; omega)
    rw [hwrite]
    simp only [Call.on, metaAppend, if_neg hempty]
    cases hcheck : checkMetaBudget bucket _ _ with
    | error err => exact .inl ⟨rfl, by simp [← hfits, hcheck]⟩
    | ok u => exact .inr ⟨_, rfl, hfits.mp hcheck, rfl⟩
  | set key value =>
    have hfits := @checkMetaBudget_eq_ok bucket key value _ _ rfl rfl
    simp only [Call.on, metaSetBounded]
    cases hcheck : checkMetaBudget bucket _ _ with
    | error err => exact .inl ⟨rfl, by simp [Call.write, ← hfits, hcheck]⟩
    | ok u => exact .inr ⟨_, rfl, hfits.mp hcheck, rfl⟩

/-- Both budgets are kept. -/
def Within (bucket : Bucket) : Prop :=
  (∀ key, ∀ value ∈ bucket.find? key, value.length ≤ maxMetaValueBytes) ∧
    bucket.total ≤ maxMetaRequestBytes

/-- **One call** keeps the budgets exactly when it does not overshoot. -/
theorem within_step (h : Within bucket) (c : Call) :
    Within (step bucket c) ↔ ¬ Overshoots bucket c := by
  rcases on_cases bucket c with ⟨hsame, hno⟩ | ⟨⟨key, value⟩, hw, hfits, hon⟩
  · rw [step, hsame]
    refine iff_of_true h fun hover => ?_
    obtain ⟨w, hw, hover⟩ := any_eq_true _ _ |>.mp hover
    exact hno w hw (of_decide_eq_true hover).2.1
  have hvalues : ∀ k, ∀ v ∈ (bucket.insert key value).find? k, v.length ≤ maxMetaValueBytes := by
    intro k v hv
    by_cases hk : k = key
    · rw [hk, OrdMap.find?_insert_self] at hv
      cases hv
      exact hfits.1
    · rw [OrdMap.find?_insert_ne _ _ hk] at hv
      exact h.1 k v hv
  have htotal : Bucket.total (bucket.insert key value) + _ = bucket.total + (_ + _) :=
    OrdMap.weight_insert _
  have hbudget := hfits.2
  have hover : Overshoots bucket c ↔ bucket.find? key = none ∧
      maxMetaRequestBytes < bucket.total + key.length + value.length := by
    simp [Overshoots, mem_def.mp hw, hfits]
  rw [step, hon, hover, Within, and_iff_right hvalues]
  cases hfind : bucket.find? key with
  | none =>
    simp only [hfind, map_none, getD_none] at htotal
    simp only [true_and]
    omega
  | some old =>
  simp only [hfind, map_some, getD_some] at htotal hbudget
  simp only [reduceCtorEq, false_and, not_false_eq_true, iff_true]
  omega

/-! ## Any sequence of calls -/

/-- **Metadata budgets.**  After every call both budgets are kept, and a refused call
changes nothing, exactly when no call brings a new key that is longer than what the
request has left. -/
theorem metadata_budgets_iff (calls : List Call) :
    (Along step Within ∅ calls ∧ ∀ pre c, pre ++ [c] <+: calls →
        (c.on (pre.foldl step ∅)).2 ≠ none → step (pre.foldl step ∅) c = pre.foldl step ∅) ↔
      AtEach (fun before c => ¬ Overshoots (before.foldl step ∅) c) [] calls := by
  have hempty : Within ∅ := ⟨nofun, Nat.zero_le _⟩
  have hrule := @along_iff_atEach Bucket Call Overshoots step (fun _ => True) Within ∅ [] calls
    (fun _ _ h => h) (fun _ c _ h => within_step h c) trivial hempty
  rw [← hrule]
  refine and_iff_left fun pre c _ herr => ?_
  rcases on_cases (pre.foldl step ∅) c with ⟨hsame, -⟩ | ⟨w, -, -, hon⟩
  · exact hsame
  · exact absurd (by rw [hon]) herr

lemma metaSetBounded_new (key : Bytes) : metaSetBounded ∅ key [] = (OrdMap.insert ∅ key [], none) ∧
      Bucket.total (OrdMap.insert ∅ key []) = key.length :=
  ⟨rfl, (OrdMap.weight_insert_of_none _ rfl).trans (Nat.zero_add _)⟩

/-- One key that is longer than the budget of the request, with nothing under it. -/
theorem metaSetBounded_longKey : (metaSetBounded ∅ (List.replicate (2 ^ 24 + 1) 107) []).2 = none ∧
      ¬ Within (metaSetBounded ∅ (List.replicate (2 ^ 24 + 1) 107) []).1 := by
  obtain ⟨hset, htotal⟩ := metaSetBounded_new (List.replicate (2 ^ 24 + 1) 107)
  rw [hset]
  refine ⟨rfl, fun h => ?_⟩
  have hle := h.2
  rw [htotal, List.length_replicate, maxMetaRequestBytes] at hle
  omega

end ToranaEdge.Metadata
