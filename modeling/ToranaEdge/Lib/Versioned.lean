import Mathlib.Data.List.Induction
import Mathlib.Logic.Function.Basic

/-! # Maps whose entries carry a version

Every write draws the next number of one counter, and the entry it leaves is labelled
with that number, spelled out as a version.  A run is a list of changes; what an entry
says of its version is what the run did: the entry was written with it, and nothing
touched the key since. -/

universe u v w

/-- The entries of a map with their versions, and the number of the last write. -/
structure Versioned (κ : Type u) (ν : Type v) (β : Type w) where
  entry : κ → Option (ν × β)
  counter : ℕ

namespace Versioned

open List Function

variable {κ : Type u} {ν : Type v} {β : Type w}

/-- What one operation does to a map. -/
inductive Change (κ : Type u) (β : Type w) where
  | keep
  | write (k : κ) (b : β)
  | erase (k : κ)

def Change.Touches : Change κ β → κ → Prop
  | .keep, _ => False
  | .write k _, k' => k' = k
  | .erase k, k' => k' = k

section run

variable [DecidableEq κ] (spell : ℕ → ν) (V : Versioned κ ν β)

def apply : Change κ β → Versioned κ ν β
  | .keep => V
  | .write k b =>
    { entry := Function.update V.entry k (some (spell (V.counter + 1), b))
      counter := V.counter + 1 }
  | .erase k => { V with entry := Function.update V.entry k none }

def run (changes : List (Change κ β)) : Versioned κ ν β :=
  changes.foldl (apply spell) V

lemma run_snoc (changes : List (Change κ β)) (c : Change κ β) :
    V.run spell (changes ++ [c]) = (V.run spell changes).apply spell c := by
  rw [run, foldl_append]
  rfl

variable {spell} {V : Versioned κ ν β} {c : Change κ β} {k : κ}

lemma counter_le_apply (c : Change κ β) : V.counter ≤ (V.apply spell c).counter := by
  cases c with
  | keep => exact Nat.le_refl _
  | write k b => exact Nat.le_succ _
  | erase k => exact Nat.le_refl _

lemma entry_apply_of_not_touches (h : ¬ c.Touches k) : (V.apply spell c).entry k = V.entry k := by
  cases c with
  | keep => rfl
  | write k' b | erase k' => exact update_of_ne h _ _

/-- An entry a change touched is the one it wrote. -/
lemma eq_write_of_touches {v : ν} {b : β} (h : c.Touches k)
    (hentry : (V.apply spell c).entry k = some (v, b)) :
    c = .write k b ∧ v = spell (V.counter + 1) := by
  cases c with
  | keep => exact h.elim
  | write k' b' =>
    obtain rfl : k = k' := h
    have hnew : (V.apply spell (.write k b')).entry k = some (spell (V.counter + 1), b') :=
      update_self _ _ _
    cases hnew.symm.trans hentry
    exact ⟨rfl, rfl⟩
  | erase k' =>
  obtain rfl : k = k' := h
  have hgone : (V.apply spell (.erase k : Change κ β)).entry k = none := update_self _ _ _
  cases hgone.symm.trans hentry

/-- Every version of the map was drawn from its counter. -/
def Drawn (spell : ℕ → ν) (V : Versioned κ ν β) : Prop :=
  ∀ k v b, V.entry k = some (v, b) → ∃ n, n ≤ V.counter ∧ v = spell n

/-- **Where an entry comes from.**  It was there from the start, or a write of the run
drew its version; either way nothing touched the key since. -/
theorem entry_run {changes : List (Change κ β)} {v : ν} {b : β}
    (h : (V.run spell changes).entry k = some (v, b)) :
    (V.entry k = some (v, b) ∧ ∀ c ∈ changes, ¬ c.Touches k) ∨
      ∃ before after, changes = before ++ .write k b :: after ∧
        v = spell ((V.run spell before).counter + 1) ∧ ∀ c ∈ after, ¬ c.Touches k := by
  -- the last change either touched the key, and then it is the write, or left the entry alone
  induction changes using reverseRecOn with
  | nil => exact .inl ⟨h, by simp⟩
  | append_singleton changes c ih =>
  rw [run_snoc] at h
  by_cases htouch : c.Touches k
  · obtain ⟨rfl, hversion⟩ := eq_write_of_touches htouch h
    exact .inr ⟨changes, [], rfl, hversion, by simp⟩
  rw [entry_apply_of_not_touches htouch] at h
  rcases ih h with ⟨hstart, huntouched⟩ | ⟨before, after, hsplit, hversion, huntouched⟩
  · exact .inl ⟨hstart, forall_mem_append.mpr ⟨huntouched, by simpa using htouch⟩⟩
  · refine .inr ⟨before, after ++ [c], by rw [hsplit, append_assoc]; rfl, hversion, ?_⟩
    exact forall_mem_append.mpr ⟨huntouched, by simpa using htouch⟩

end run

end Versioned
