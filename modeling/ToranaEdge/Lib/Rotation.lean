import Mathlib.Algebra.Ring.Nat
import Mathlib.Data.List.Basic
import Mathlib.Data.Nat.Notation
import Mathlib.Logic.Function.Basic

/-! # Rotating files

A log is kept in one file that is written and in older ones by number, the newest
first.  Rotation gives every file the next number, from the oldest on.  What a family
of such files holds is a list of blocks of whole records. -/

namespace ToranaEdge.Rotation

open List Function

/-- Files by number; the one that is written has none. -/
abbrev Family (β : Type) := Option ℕ → Option (List β)

variable {β : Type}

namespace Family

variable (fs : Family β)

/-- A file that is missing is not renamed. -/
def rename (a b : Option ℕ) : Family β :=
  match fs a with
  | none => fs
  | some content => update (update fs a none) b (some content)

/-- Renames from the `k`th file down to the first, until one fails. -/
def shift (fault : ℕ → Option String) (fs : Family β) : ℕ → Family β × Option String
  | 0 => (fs, none)
  | k + 1 =>
    match fault (k + 1) with
    | some err => (fs, some err)
    | none => shift fault (fs.rename (some (k + 1)) (some (k + 2))) k

/-- The bytes are added to the file that is written, which is created if it is missing. -/
def append (bytes : List β) : Family β :=
  update fs none (some ((fs none).getD [] ++ bytes))

/-- The family after a rotation without faults that keeps `n` older files. -/
def rotated : ℕ → Family β
  | 0 => update fs none none
  | k + 1 => (shift (fun _ => none) (update fs (some (k + 1)) none) k).1.rename none (some 1)

/-- The blocks a family holds, the newest first. -/
def Holds (blocks : List (List (List β))) : Prop :=
  fs none = blocks[0]?.map flatten ∧ fs (some 0) = none ∧
    ∀ j, fs (some (j + 1)) = blocks[j + 1]?.map flatten

end Family

/-- The check of a budget in 64-bit arithmetic. -/
def Exceeds (max : Int64) (size more : ℕ) : Prop := max < Int64.ofNat size + Int64.ofNat more

instance (max : Int64) (size more : ℕ) : Decidable (Exceeds max size more) :=
  inferInstanceAs (Decidable (_ < _))

lemma exceeds_iff {max : Int64} {size more : ℕ} (h : size + more < 2 ^ 63) :
    Exceeds max size more ↔ max.toInt < size + more := by
  rw [Exceeds, ← Int64.ofNat_add, Int64.lt_iff_toInt_lt, Int64.toInt_ofNat_of_lt h, Int.natCast_add]

/-- The records of some blocks, the oldest first. -/
def history (blocks : List (List (List β))) : List (List β) := blocks.reverse.flatten

/-- One record more in the newest block. -/
def push (r : List β) (blocks : List (List (List β))) : List (List (List β)) :=
  (blocks.headD [] ++ [r]) :: blocks.tail

variable {fs : Family β} {blocks : List (List (List β))} {a b : Option ℕ} {k n : ℕ}

lemma history_cons (block : List (List β)) :
    history (block :: blocks) = history blocks ++ block := by
  simp [history]

lemma history_push (r : List β) : history (push r blocks) = history blocks ++ [r] := by
  cases blocks with
  | nil => rfl
  | cons block blocks => simp [push, history_cons]

lemma getLast?_push (r : List β) : ((push r blocks).headD []).getLast? = some r := by
  simp [push]

/-- Dropping the oldest blocks leaves the last records. -/
lemma history_take_suffix (n : ℕ) : history (blocks.take n) <:+ history blocks := by
  have hsplit : history blocks = history (blocks.drop n) ++ history (blocks.take n) := by
    rw [history, history, history, ← flatten_append, ← reverse_append, take_append_drop]
  rw [hsplit]
  exact suffix_append _ _

namespace Family

lemma rename_of_free (hfree : fs b = none) :
    fs.rename a b = update (update fs a none) b (fs a) := by
  unfold rename
  cases ha : fs a with
  | some content => rfl
  | none =>
    rw [update_eq_self_iff.mpr ha.symm, update_eq_self_iff.mpr hfree.symm]

/-- **The shift** moves the first `k` files up by one number. -/
theorem shift_eq (hfree : fs (some (k + 1)) = none) : fs.shift (fun _ => none) k =
    (fun name => match name with
      | some (j + 1) => if j = 0 then none else if j ≤ k then fs (some j) else fs (some (j + 1))
      | name => fs name, none) := by
  induction k generalizing fs with
  | zero =>
    refine Prod.ext (funext fun name => ?_) rfl
    rcases name with _ | _ | _ | j
    · rfl
    · rfl
    · exact hfree
    · rfl
  | succ k ih =>
  rw [shift, rename_of_free hfree, ih (by simp)]
  refine Prod.ext (funext fun name => ?_) rfl
  rcases name with _ | _ | j
  · simp
  · simp
  · grind

lemma rotated_succ (fs : Family β) (k : ℕ) : fs.rotated (k + 1) = fun name => match name with
    | none => none
    | some 0 => fs (some 0)
    | some (j + 1) =>
      if j = 0 then fs none else if j ≤ k then fs (some j) else fs (some (j + 1)) := by
  rw [rotated, shift_eq (by simp), rename_of_free rfl]
  funext name
  rcases name with _ | _ | j
  · simp
  · simp
  · grind

lemma rotated_none (fs : Family β) (n : ℕ) : fs.rotated n none = none := by
  cases n with
  | zero => simp [rotated]
  | succ k => rw [rotated_succ]

/-- A rotation starts a new block and keeps the `n` newest ones. -/
lemma Holds.rotated (h : fs.Holds blocks) (hlen : blocks.length ≤ n + 1) :
    ((fs.rotated n).append []).Holds ([] :: blocks.take n) := by
  obtain ⟨hnewest, hzero, holder⟩ := h
  unfold append
  rw [rotated_none]
  cases n with
  | zero =>
    refine ⟨by simp, by simp [Family.rotated, hzero], fun j => ?_⟩
    have hnone : blocks[j + 1]? = none := getElem?_eq_none (by omega)
    simp [Family.rotated, holder, hnone]
  | succ k =>
  rw [rotated_succ]
  refine ⟨by simp, by simp [hzero], fun j => ?_⟩
  cases j with
  | zero => simp [hnewest]
  | succ j => grind

lemma Holds.newest (h : fs.Holds blocks) : (fs none).getD [] = (blocks.headD []).flatten := by
  rw [h.1]
  cases blocks <;> rfl

lemma Holds.append (h : fs.Holds blocks) (r : List β) : (fs.append r).Holds (push r blocks) := by
  obtain ⟨hnewest, hzero, holder⟩ := h
  refine ⟨?_, by simpa [Family.append] using hzero, fun j => ?_⟩
  · cases blocks <;> simp [Family.append, push, hnewest]
  · cases blocks <;> simp [Family.append, push, holder]

lemma append_nil_of (h : fs none ≠ none) : fs.append [] = fs := by
  obtain ⟨content, hcontent⟩ := Option.ne_none_iff_exists'.mp h
  exact update_eq_self_iff.mpr (by simp [hcontent])

lemma append_append (fs : Family β) (x y : List β) :
    (fs.append x).append y = fs.append (x ++ y) := by
  simp [append]

end Family

/-- What is kept of some records: at most `n + 1` blocks with the property, which are
the last records. -/
structure Kept (n : ℕ) (P : List (List β) → Prop) (records : List (List β)) (fs : Family β)
    (blocks : List (List (List β))) : Prop where
  holds : fs.Holds blocks
  length : blocks.length ≤ n + 1
  block : ∀ block ∈ blocks, P block
  suffix : history blocks <:+ records

variable {P : List (List β) → Prop} {records : List (List β)} {r : List β}

/-- **A rotation** starts a new block and drops the oldest. -/
theorem Kept.rotated (h : Kept n P records fs blocks) (hP : P []) :
    Kept n P records ((fs.rotated n).append []) ([] :: blocks.take n) where
  holds := h.holds.rotated h.length
  length := Nat.succ_le_succ (length_take_le _ _)
  block := forall_mem_cons.mpr ⟨hP, fun block hblock => h.block block (mem_of_mem_take hblock)⟩
  suffix := by
    rw [history_cons, append_nil]
    exact (history_take_suffix n).trans h.suffix

/-- **A record** is added to the newest block. -/
theorem Kept.append (h : Kept n P records fs blocks) (hP : P (blocks.headD [] ++ [r])) :
    Kept n P (records ++ [r]) (fs.append r) (push r blocks) where
  holds := h.holds.append r
  length := by
    have := h.length
    simp only [push, length_cons, length_tail]
    omega
  block := forall_mem_cons.mpr ⟨hP, fun block hblock => h.block block (mem_of_mem_tail hblock)⟩
  suffix := by
    obtain ⟨dropped, hdropped⟩ := h.suffix
    exact ⟨dropped, by rw [history_push, ← append_assoc, hdropped]⟩

lemma kept_empty (n : ℕ) (P : List (List β) → Prop) : Kept n P [] (fun _ => none) [] :=
  ⟨⟨rfl, rfl, fun _ => rfl⟩, by simp, by simp, suffix_rfl⟩

end ToranaEdge.Rotation
