import Mathlib.Data.List.Basic

/-! # Facts about every position of a list

A rule of a trace speaks of an element and of what came before it. -/

namespace ToranaEdge.Splits

open List

variable {α : Type*} {ys : List α}

lemma forall_split_cons {P : List α → α → Prop} {y : α} :
    (∀ pre x post, y :: ys = pre ++ x :: post → P pre x) ↔
      P [] y ∧ ∀ pre x post, ys = pre ++ x :: post → P (y :: pre) x := by
  constructor
  · intro h
    refine ⟨h [] y ys rfl, ?_⟩
    intro pre x post hys
    exact h (y :: pre) x post (by rw [hys, cons_append])
  · rintro ⟨hy, hys⟩ pre x post heq
    cases pre with
    | nil =>
      simp only [nil_append, cons.injEq] at heq
      rw [← heq.1]
      exact hy
    | cons z pre =>
    simp only [cons_append, cons.injEq] at heq
    rw [← heq.1]
    exact hys pre x post heq.2

/-- Every element of `xs` satisfies `P` after what came before it, where `before`
came before all of them. -/
def AtEach (P : List α → α → Prop) (before xs : List α) : Prop :=
  ∀ pre x post, xs = pre ++ x :: post → P (before ++ pre) x

variable {P Q : List α → α → Prop} {before xs : List α} {x : α}

lemma atEach_nil : AtEach P before [] := by
  intro pre x post h
  simp at h

lemma atEach_cons : AtEach P before (x :: xs) ↔ P before x ∧ AtEach P (before ++ [x]) xs := by
  unfold AtEach
  rw [forall_split_cons (P := fun pre x => P (before ++ pre) x)]
  simp

lemma atEach_append :
    AtEach P before (xs ++ ys) ↔ AtEach P before xs ∧ AtEach P (before ++ xs) ys := by
  induction xs generalizing before with
  | nil => simp [atEach_nil]
  | cons x xs ih =>
    rw [cons_append, atEach_cons, atEach_cons, ih, and_assoc, append_assoc]
    rfl

lemma atEach_congr {after : List α}
    (h : ∀ pre x, x ∈ xs → (P (before ++ pre) x ↔ Q (after ++ pre) x)) :
    AtEach P before xs ↔ AtEach Q after xs := by
  have hmem : ∀ {pre x post}, xs = pre ++ x :: post → x ∈ xs := fun heq => by simp [heq]
  constructor
  · intro hP pre x post heq
    exact (h pre x (hmem heq)).mp (hP pre x post heq)
  · intro hQ pre x post heq
    exact (h pre x (hmem heq)).mpr (hQ pre x post heq)

lemma atEach_and : AtEach (fun before x => P before x ∧ Q before x) before xs ↔
      AtEach P before xs ∧ AtEach Q before xs := by
  constructor
  · intro h
    exact ⟨fun pre x post heq => (h pre x post heq).1, fun pre x post heq => (h pre x post heq).2⟩
  · rintro ⟨hP, hQ⟩ pre x post heq
    exact ⟨hP pre x post heq, hQ pre x post heq⟩

/-- A rule that speaks of the images only. -/
lemma atEach_map {β : Type*} {Q : List β → β → Prop} (f : α → β)
    (h : ∀ before x, Q (before.map f) (f x) ↔ P before x) :
    AtEach Q (before.map f) (xs.map f) ↔ AtEach P before xs := by
  induction xs generalizing before with
  | nil => exact iff_of_true atEach_nil atEach_nil
  | cons x xs ih =>
    rw [map_cons, atEach_cons, atEach_cons, h, ← ih, map_append]
    rfl

instance decidableAtEach [∀ before x, Decidable (P before x)] :
    ∀ before xs, Decidable (AtEach P before xs)
  | _, [] => isTrue atEach_nil
  | before, x :: xs =>
    have := decidableAtEach (before ++ [x]) xs
    decidable_of_iff _ atEach_cons.symm

/-! ## Bad steps of a machine -/

section machine

variable {σ α : Type*}

/-- Every state of a run is safe. -/
def Along (step : σ → α → σ) (Safe : σ → Prop) (s : σ) (xs : List α) : Prop :=
  ∀ pre, pre <+: xs → Safe (pre.foldl step s)

lemma along_cons {step : σ → α → σ} {Safe : σ → Prop} {s : σ} {x : α} {xs : List α} :
    Along step Safe s (x :: xs) ↔ Safe s ∧ Along step Safe (step s x) xs := by
  constructor
  · intro h
    exact ⟨h [] nil_prefix, fun pre hpre => h (x :: pre) ((prefix_cons_inj x).mpr hpre)⟩
  · rintro ⟨hs, hrest⟩ pre hpre
    rcases prefix_cons_iff.mp hpre with rfl | ⟨pre', rfl, hpre'⟩
    · exact hs
    · exact hrest pre' hpre'

/-- **Up to the first bad step.**  Where a safe state stays safe in the good steps only,
a run is safe throughout exactly when it makes no bad step. -/
theorem along_iff_atEach {Bad : σ → α → Prop} {step : σ → α → σ} {Inv Safe : σ → Prop} {s : σ}
    {before xs : List α} (hinv : ∀ s a, Inv s → Inv (step s a))
    (hstep : ∀ s a, Inv s → Safe s → (Safe (step s a) ↔ ¬ Bad s a))
    (hs : Inv (before.foldl step s)) (hsafe : Safe (before.foldl step s)) :
    Along step Safe (before.foldl step s) xs ↔
      AtEach (fun before a => ¬ Bad (before.foldl step s) a) before xs := by
  induction xs generalizing before with
  | nil => exact iff_of_true (fun pre hpre => prefix_nil.mp hpre ▸ hsafe) atEach_nil
  | cons x xs ih =>
  have hfirst := hstep _ x hs hsafe
  rw [along_cons, atEach_cons]
  by_cases hbad : Bad (before.foldl step s) x
  · refine iff_of_false (fun h => ?_) fun h => h.1 hbad
    exact hfirst.mp (h.2 [] nil_prefix) hbad
  have hsame : (before ++ [x]).foldl step s = step (before.foldl step s) x := foldl_concat ..
  rw [← hsame, ih (hsame ▸ hinv _ x hs) (hsame ▸ hfirst.mpr hbad)]
  exact and_congr_left fun _ => iff_of_true hsafe hbad

end machine

end ToranaEdge.Splits
