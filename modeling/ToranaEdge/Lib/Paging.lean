import Mathlib.Order.UpperLower.Basic

/-! # Paging through a set that changes

A reader takes pages of keys in increasing order, each from what the set holds by
then and past the keys it has been told of.  Whatever happens to the set between two
pages, the keys come in order, and one that is there all the time is not missed. -/

universe u

variable {κ : Type u}

/-- The keys shown, where each page comes with the set it was taken from. -/
def Paged.shown (pages : List (Set κ × List κ)) : List κ := pages.flatMap Prod.snd

lemma Paged.shown_snoc (pages : List (Set κ × List κ)) (page : Set κ × List κ) :
    shown (pages ++ [page]) = shown pages ++ page.2 := by
  simp [shown]

variable [LinearOrder κ]

open Paged in
/-- Pages that cover what they passed. -/
structure Paged (pages : List (Set κ × List κ)) (passed : Set κ) : Prop where
  lower : IsLowerSet passed
  sorted : (shown pages).Pairwise (· < ·)
  subset : ∀ k ∈ shown pages, k ∈ passed
  held : ∀ page ∈ pages, ∀ k ∈ page.2, k ∈ page.1
  covered : ∀ k ∈ passed, (∀ page ∈ pages, k ∈ page.1) → k ∈ shown pages

namespace Paged

open List

variable {pages : List (Set κ × List κ)} {passed passed' set : Set κ} {ks left : List κ}

lemma nil : Paged ([] : List (Set κ × List κ)) ∅ where
  lower := isLowerSet_empty
  sorted := .nil
  subset k hk := by cases hk
  held page hpage := by cases hpage
  covered k hk := hk.elim

/-- **One more page**, of the keys that were not passed; what it leaves is not passed. -/
theorem page (h : Paged pages passed) (hsorted : (ks ++ left).Pairwise (· < ·))
    (hkeys : ∀ k, k ∈ ks ++ left ↔ k ∈ set ∧ k ∉ passed) (hlower : IsLowerSet passed')
    (hpassed : passed ⊆ passed') (hks : ∀ k ∈ ks, k ∈ passed') (hleft : ∀ k ∈ left, k ∉ passed') :
    Paged (pages ++ [(set, ks)]) passed' := by
  have hnew : ∀ k ∈ ks, k ∈ set ∧ k ∉ passed := fun k hk =>
    (hkeys k).mp (mem_append_left _ hk)
  refine ⟨hlower, ?_, ?_, ?_, ?_⟩
  · rw [shown_snoc]
    refine pairwise_append.mpr ⟨h.sorted, (pairwise_append.mp hsorted).1, ?_⟩
    intro k hk k' hk'
    -- a key that is not passed is past all that are
    exact lt_of_not_ge fun hle => (hnew k' hk').2 (h.lower hle (h.subset k hk))
  · intro k hk
    rw [shown_snoc, mem_append] at hk
    rcases hk with hk | hk
    · exact hpassed (h.subset k hk)
    · exact hks k hk
  · intro page hpage k hk
    rcases mem_append.mp hpage with hpage | hpage
    · exact h.held page hpage k hk
    · cases mem_singleton.mp hpage
      exact (hnew k hk).1
  · intro k hk hthere
    rw [shown_snoc, mem_append]
    by_cases hold : k ∈ passed
    · exact .inl (h.covered k hold fun page hpage => hthere page (mem_append_left _ hpage))
    have hmem := (hkeys k).mpr ⟨hthere _ (mem_append_right _ (mem_singleton_self _)), hold⟩
    rcases mem_append.mp hmem with hmem | hmem
    · exact .inr hmem
    · exact absurd hk (hleft k hmem)

/-- The last page, which leaves nothing. -/
lemma last (h : Paged pages passed) (hsorted : ks.Pairwise (· < ·))
    (hkeys : ∀ k, k ∈ ks ↔ k ∈ set ∧ k ∉ passed) : Paged (pages ++ [(set, ks)]) Set.univ := by
  rw [← append_nil ks] at hsorted
  exact h.page hsorted (by simpa using hkeys) isLowerSet_univ (Set.subset_univ _)
    (fun _ _ => trivial) fun _ hk => by cases hk

/-- A page that passes its last key. -/
lemma through {k : κ} (h : Paged pages passed) (hsorted : (ks ++ left).Pairwise (· < ·))
    (hkeys : ∀ k, k ∈ ks ++ left ↔ k ∈ set ∧ k ∉ passed) (hlast : ks.getLast? = some k) :
    Paged (pages ++ [(set, ks)]) (Set.Iic k) := by
  obtain ⟨front, rfl⟩ := getLast?_eq_some_iff.mp hlast
  have hparts := pairwise_append.mp hsorted
  have hk : k ∉ passed := ((hkeys k).mp (by simp)).2
  refine h.page hsorted hkeys (isLowerSet_Iic k) ?_ ?_ ?_
  · intro k' hk'
    exact le_of_not_ge fun hle => hk (h.lower hle hk')
  · intro k' hk'
    rcases mem_append.mp hk' with hk' | hk'
    · exact ((pairwise_append.mp hparts.1).2.2 k' hk' k (mem_singleton_self k)).le
    · exact (mem_singleton.mp hk').le
  · intro k' hk' hle
    exact absurd (hparts.2.2 k (by simp) k' hk') (not_lt.mpr hle)

end Paged
