import Mathlib.Data.Multiset.Count
import Mathlib.Data.Multiset.AddSub
import Mathlib.Data.Multiset.Filter
import Mathlib.Data.Multiset.OrderedMonoid

/-! # One-to-one reservation

A pool holds candidates, each with a consumed flag.  A request takes the
first free candidate that matches it; `exactPass` lets a whole list of
requests do so in order.

The pass is greedy, and the point of this file is that greed costs nothing
when matching is equality of keys: what is left on either side is the
difference of the two key tallies (`tally_leftover`), whatever order the
requests came in.  Sub-multiset statements follow by counting. -/

namespace Reserve

open List

universe u v w

variable {α : Type u} {β : Type v} {κ : Type w}

/-! ## Pools -/

/-- Candidates in order, each with its consumed flag. -/
abbrev Pool (α : Type u) : Type u := List (α × Bool)

/-- The pool in which nothing is consumed yet. -/
def fresh (xs : List α) : Pool α :=
  xs.map fun a => (a, false)

/-- The candidates not consumed so far, in order. -/
def free (pool : Pool α) : List α :=
  (pool.filter fun s => !s.2).map Prod.fst

@[simp] lemma free_nil : free ([] : Pool α) = [] := rfl

@[simp] lemma free_cons_true (a : α) (pool : Pool α) : free ((a, true) :: pool) = free pool := by
  simp [free]

@[simp] lemma free_cons_false (a : α) (pool : Pool α) :
    free ((a, false) :: pool) = a :: free pool := by
  simp [free]

@[simp] lemma free_fresh (xs : List α) : free (fresh xs) = xs := by
  induction xs with
  | nil => rfl
  | cons a xs ih =>
    show free ((a, false) :: fresh xs) = a :: xs
    rw [free_cons_false, ih]

variable {pool : Pool α} {a : α}

lemma mem_free : a ∈ free pool ↔ (a, false) ∈ pool := by
  simp [free]

/-- Consume the first free candidate satisfying `p`. -/
def takeFirst (p : α → Bool) : Pool α → Option (Pool α)
  | [] => none
  | (a, c) :: rest =>
    if !c && p a then some ((a, true) :: rest)
    else (takeFirst p rest).map ((a, c) :: ·)

/-- As `takeFirst`, leaving the pool alone when nothing matches. -/
def consume (p : α → Bool) (pool : Pool α) : Pool α :=
  (takeFirst p pool).getD pool

variable {p : α → Bool}

lemma takeFirst_eq_none : takeFirst p pool = none ↔ ∀ a ∈ free pool, p a = false := by
  induction pool with
  | nil => simp [takeFirst]
  | cons s rest ih =>
  obtain ⟨a, c⟩ := s
  cases c with
  | true => simp [takeFirst, ih]
  | false =>
  by_cases hp : p a = true
  · simp [takeFirst, hp]
  · have hpf : p a = false := by simpa using hp
    simp [takeFirst, hpf, ih]

variable {pool pool' : Pool α}

lemma exists_of_takeFirst (h : takeFirst p pool = some pool') : ∃ a ∈ free pool, p a = true := by
  by_contra hcon
  push Not at hcon
  rw [takeFirst_eq_none.mpr fun a ha => by simpa using hcon a ha] at h
  cases h

lemma free_takeFirst (h : takeFirst p pool = some pool') : free pool' = (free pool).eraseP p := by
  induction pool generalizing pool' with
  | nil => simp [takeFirst] at h
  | cons s rest ih =>
  obtain ⟨a, c⟩ := s
  unfold takeFirst at h
  split at h
  · next hp =>
    cases h
    obtain ⟨rfl, hpa⟩ : c = false ∧ p a = true := by simpa using hp
    simp [hpa]
  next hp =>
  obtain ⟨tail, htail, rfl⟩ := Option.map_eq_some_iff.mp h
  cases c with
  | true => simp [ih htail]
  | false => simp [ih htail, show p a = false by simpa using hp]

lemma eraseP_free (h : takeFirst p pool = none) : (free pool).eraseP p = free pool := by
  apply eraseP_of_forall_not
  intro a ha
  simp [takeFirst_eq_none.mp h a ha]

lemma free_consume (p : α → Bool) (pool : Pool α) :
    free (consume p pool) = (free pool).eraseP p := by
  unfold consume
  cases h : takeFirst p pool with
  | none => exact (eraseP_free h).symm
  | some pool' => exact free_takeFirst h

lemma map_fst_takeFirst
    (h : takeFirst p pool = some pool') : pool'.map Prod.fst = pool.map Prod.fst := by
  induction pool generalizing pool' with
  | nil => simp [takeFirst] at h
  | cons s rest ih =>
  unfold takeFirst at h
  split at h
  · cases h; rfl
  · obtain ⟨tail, htail, rfl⟩ := Option.map_eq_some_iff.mp h
    simp [ih htail]

lemma map_fst_consume (p : α → Bool) (pool : Pool α) :
    (consume p pool).map Prod.fst = pool.map Prod.fst := by
  unfold consume
  cases h : takeFirst p pool with
  | none => rfl
  | some pool' => exact map_fst_takeFirst h

/-! ## The exact pass -/

/-- Every request, in order, takes the first free candidate it matches.  The
result is the pool afterwards and the requests, each flagged with whether
it found a candidate. -/
def exactPass (m : β → α → Bool) : Pool α → List β → Pool α × List (β × Bool)
  | pool, [] => (pool, [])
  | pool, b :: bs =>
    match takeFirst (m b) pool with
    | some pool' => ((exactPass m pool' bs).1, (b, true) :: (exactPass m pool' bs).2)
    | none => ((exactPass m pool bs).1, (b, false) :: (exactPass m pool bs).2)

variable (m : β → α → Bool)

/-- What remains of `xs` once every element of `ys` has struck out the first
element it matches. -/
def leftover (xs : List α) (ys : List β) : List α :=
  ys.foldl (fun l y => l.eraseP (m y)) xs

@[simp] lemma leftover_nil (xs : List α) : leftover m xs [] = xs := rfl

@[simp] lemma leftover_cons (xs : List α) (y : β) (ys : List β) :
    leftover m xs (y :: ys) = leftover m (xs.eraseP (m y)) ys := rfl

@[simp] lemma leftover_of_nil (ys : List β) : leftover m [] ys = [] := by
  induction ys with
  | nil => rfl
  | cons y ys ih => simpa using ih

section

variable (m : β → α → Bool)

lemma leftover_sublist (xs : List α) (ys : List β) : (leftover m xs ys).Sublist xs := by
  induction ys generalizing xs with
  | nil => exact Sublist.refl xs
  | cons y ys ih => exact (ih _).trans eraseP_sublist

/-- The candidates left free by an exact pass. -/
lemma free_exactPass (pool : Pool α) (bs : List β) :
    free (exactPass m pool bs).1 = leftover m (free pool) bs := by
  induction bs generalizing pool with
  | nil => rfl
  | cons b bs ih =>
  unfold exactPass
  cases h : takeFirst (m b) pool with
  | some pool' => simp only [ih, leftover_cons, free_takeFirst h]
  | none => simp only [ih, leftover_cons, eraseP_free h]

lemma map_fst_exactPass (pool : Pool α) (bs : List β) :
    (exactPass m pool bs).1.map Prod.fst = pool.map Prod.fst := by
  induction bs generalizing pool with
  | nil => rfl
  | cons b bs ih =>
  unfold exactPass
  cases h : takeFirst (m b) pool with
  | some pool' => simp only [ih, map_fst_takeFirst h]
  | none => simp only [ih]

lemma map_fst_exactPass_requests (pool : Pool α) (bs : List β) :
    (exactPass m pool bs).2.map Prod.fst = bs := by
  induction bs generalizing pool with
  | nil => rfl
  | cons b bs ih =>
  unfold exactPass
  cases h : takeFirst (m b) pool with
  | some pool' | none => simp [ih]

end

variable {m : β → α → Bool} {b : β}

/-- A request flagged as served matched some candidate. -/
lemma exists_of_mem_exactPass_requests {bs : List β} (h : (b, true) ∈ (exactPass m pool bs).2) :
    ∃ a, m b a = true := by
  induction bs generalizing pool with
  | nil => cases h
  | cons b' bs ih =>
  unfold exactPass at h
  cases htake : takeFirst (m b') pool with
  | some pool' =>
    rw [htake] at h
    rcases mem_cons.mp h with heq | h
    · cases heq
      obtain ⟨a, -, ha⟩ := exists_of_takeFirst htake
      exact ⟨a, ha⟩
    · exact ih h
  | none =>
  rw [htake] at h
  rcases mem_cons.mp h with heq | h
  · cases heq
  · exact ih h

variable {xs : List α} {ys : List β} {x : α}

lemma leftover_cons_of_forall_not (h : ∀ y ∈ ys, m y x = false) :
    leftover m (x :: xs) ys = x :: leftover m xs ys := by
  induction ys generalizing xs with
  | nil => rfl
  | cons y ys ih =>
  have hy : m y x = false := h y (by simp)
  have hys : ∀ y' ∈ ys, m y' x = false := fun y' hy' => h y' (by simp [hy'])
  simp [hy, ih hys]

/-- A candidate that is struck out first is gone; the others are treated as if
the first match had never been there. -/
lemma leftover_cons_of_mem (h : ∃ y ∈ ys, m y x = true) :
    leftover m (x :: xs) ys = leftover m xs (ys.eraseP fun y => m y x) := by
  induction ys generalizing xs with
  | nil => simp at h
  | cons y ys ih =>
  by_cases hy : m y x = true
  · simp [hy]
  have hyf : m y x = false := by simpa using hy
  have hrest : ∃ y' ∈ ys, m y' x = true := by
    obtain ⟨y', hmem, hmatch⟩ := h
    rcases mem_cons.mp hmem with rfl | hmem
    · exact absurd hmatch hy
    · exact ⟨y', hmem, hmatch⟩
  simp [hyf, ih hrest]

/-- The requests that found no candidate, in order.  Each side of an exact pass
is the leftover of the other. -/
lemma free_exactPass_requests (m : β → α → Bool) (pool : Pool α) (bs : List β) :
    free (exactPass m pool bs).2 = leftover (fun a b => m b a) bs (free pool) := by
  induction bs generalizing pool with
  | nil => simp [exactPass]
  | cons b bs ih =>
  unfold exactPass
  cases h : takeFirst (m b) pool with
  | some pool' =>
    rw [leftover_cons_of_mem (exists_of_takeFirst h)]
    simp [ih, free_takeFirst h]
  | none =>
    rw [leftover_cons_of_forall_not (takeFirst_eq_none.mp h)]
    simp [ih]

/-! ## Matching by key

Candidates and requests may carry a key; only keyed ones take part. -/

variable (key : α → Option κ)

section keyed

variable [DecidableEq κ]

/-- Request `b` matches candidate `a` when both carry the same key. -/
def hits (kb : β → Option κ) (ka : α → Option κ) (b : β) (a : α) : Bool :=
  (kb b).isSome && decide (ka a = kb b)

/-- How often key `k` occurs. -/
def tally (key : α → Option κ) (k : κ) (xs : List α) : Nat :=
  xs.countP fun a => decide (key a = some k)

variable {ka : α → Option κ} {kb : β → Option κ}

lemma hits_iff : hits kb ka b a = true ↔ ∃ k, kb b = some k ∧ ka a = some k := by
  unfold hits
  cases h : kb b with
  | none | some k => simp

lemma hits_comm (b : β) (a : α) : hits kb ka b a = hits ka kb a b := by
  rw [Bool.eq_iff_iff, hits_iff, hits_iff]
  constructor
  · rintro ⟨k, hb, ha⟩; exact ⟨k, ha, hb⟩
  · rintro ⟨k, ha, hb⟩; exact ⟨k, hb, ha⟩

@[simp] lemma tally_nil (k : κ) : tally key k [] = 0 := rfl

@[simp] lemma tally_cons (k : κ) (a : α) (xs : List α) :
    tally key k (a :: xs) = tally key k xs + if key a = some k then 1 else 0 := by
  simp [tally, countP_cons]

variable {k : κ}

lemma tally_pos_iff {key : α → Option κ} : 0 < tally key k xs ↔ ∃ a ∈ xs, key a = some k := by
  simp [tally]

lemma tally_perm {key : α → Option κ} {xs ys : List α} (h : xs.Perm ys) :
    tally key k xs = tally key k ys := h.countP_eq _

lemma tally_eraseP_hits (k : κ) (b : β) (xs : List α) :
    tally ka k (xs.eraseP (hits kb ka b)) = tally ka k xs - if kb b = some k then 1 else 0 := by
  induction xs with
  | nil => simp
  | cons a xs ih =>
  by_cases hb : hits kb ka b a = true
  · obtain ⟨k', hkb, hka⟩ := hits_iff.mp hb
    simp [hb, hka, hkb]
  rw [eraseP_cons_of_neg hb, tally_cons, ih]
  by_cases hk : kb b = some k
  · have hka : ka a ≠ some k := fun hka => hb (hits_iff.mpr ⟨k, hk, hka⟩)
    simp [hka]
  · simp [hk]

/-- **The counting law of an exact pass**: what is left of a key is what one
side has more of it than the other. -/
theorem tally_leftover (k : κ) (xs : List α) (ys : List β) :
    tally ka k (leftover (hits kb ka) xs ys) = tally ka k xs - tally kb k ys := by
  induction ys generalizing xs with
  | nil => simp
  | cons y ys ih =>
    rw [leftover_cons, ih, tally_eraseP_hits, tally_cons]
    omega

/-- Something keyed `k` is left exactly when `k` is in surplus. -/
lemma exists_mem_leftover_iff :
    (∃ a ∈ leftover (hits kb ka) xs ys, ka a = some k) ↔ tally kb k ys < tally ka k xs := by
  rw [← tally_pos_iff, tally_leftover]
  omega

/-- A list reproduces itself: only what has no key is left. -/
lemma key_of_mem_leftover_self (h : a ∈ leftover (hits ka ka) xs xs) : ka a = none := by
  cases hk : ka a with
  | none => rfl
  | some k => exact absurd (exists_mem_leftover_iff.mp ⟨a, h, hk⟩) (Nat.lt_irrefl _)

/-- A candidate and a request left over by the same pass never carry one key. -/
lemma leftover_keys_disjoint (ha : a ∈ leftover (hits kb ka) xs ys)
    (hb : b ∈ leftover (hits ka kb) ys xs) (hka : ka a = some k) : kb b ≠ some k := by
  intro hkb
  have h1 := exists_mem_leftover_iff.mp ⟨a, ha, hka⟩
  have h2 := exists_mem_leftover_iff.mp ⟨b, hb, hkb⟩
  omega

/-- A candidate no request matches is never struck out. -/
lemma mem_leftover_of_forall_not (hx : x ∈ xs) (h : ∀ y ∈ ys, m y x = false) :
    x ∈ leftover m xs ys := by
  induction ys generalizing xs with
  | nil => exact hx
  | cons y ys ih =>
    have hy : ¬ m y x = true := by simp [h y (by simp)]
    exact ih ((mem_eraseP_of_neg hy).mpr hx) fun y' hy' => h y' (by simp [hy'])

lemma eraseP_hits_comm (b b' : β) (xs : List α) :
    (xs.eraseP (hits kb ka b)).eraseP (hits kb ka b') =
      (xs.eraseP (hits kb ka b')).eraseP (hits kb ka b) := by
  induction xs with
  | nil => rfl
  | cons a xs ih =>
  by_cases h : hits kb ka b a = true <;> by_cases h' : hits kb ka b' a = true
  · -- both requests carry the key of `a`, so they strike out alike
    obtain ⟨k, hk, hka⟩ := hits_iff.mp h
    obtain ⟨k', hk', hka'⟩ := hits_iff.mp h'
    have hkk : kb b = kb b' := by rw [hk, hk', ← hka, ← hka']
    have hsame : hits kb ka b = hits kb ka b' := by
      funext x
      simp [hits, hkk]
    rw [hsame]
  · rw [eraseP_cons_of_pos h, eraseP_cons_of_neg h', eraseP_cons_of_pos h]
  · rw [eraseP_cons_of_neg h, eraseP_cons_of_pos h', eraseP_cons_of_pos h']
  · rw [eraseP_cons_of_neg h, eraseP_cons_of_neg h', eraseP_cons_of_neg h',
      eraseP_cons_of_neg h, ih]

/-- The order of the requests does not matter to what they leave behind. -/
lemma leftover_perm {ys ys' : List β} (h : ys.Perm ys') (xs : List α) :
    leftover (hits kb ka) xs ys = leftover (hits kb ka) xs ys' := by
  apply h.foldl_eq'
  intro y _ y' _ l
  exact eraseP_hits_comm y y' l

/-- The last candidate is left over when its key is asked for no more often
than the candidates before it can serve. -/
lemma leftover_concat (hx : ka x = some k) (h : tally kb k ys ≤ tally ka k xs) :
    leftover (hits kb ka) (xs ++ [x]) ys = leftover (hits kb ka) xs ys ++ [x] := by
  induction ys generalizing xs with
  | nil => rfl
  | cons y ys ih =>
  rw [tally_cons] at h
  rw [leftover_cons, leftover_cons]
  have hrest : tally kb k ys ≤ tally ka k (xs.eraseP (hits kb ka y)) := by
    rw [tally_eraseP_hits]
    omega
  rw [← ih hrest]
  by_cases hmem : ∃ a ∈ xs, hits kb ka y a = true
  · obtain ⟨a, ha, hya⟩ := hmem
    rw [eraseP_append_left hya [x] ha]
  have hnone : ∀ a ∈ xs, ¬ hits kb ka y a = true := fun a ha hya => hmem ⟨a, ha, hya⟩
  have hyx : ¬ hits kb ka y x = true := by
    intro hyx
    obtain ⟨k', hky, hkx⟩ := hits_iff.mp hyx
    have hkk : kb y = some k := by rw [hky, ← hkx, hx]
    rw [if_pos hkk] at h
    obtain ⟨a, ha, hka⟩ := tally_pos_iff.mp (show 0 < tally ka k xs by omega)
    exact hnone a ha (hits_iff.mpr ⟨k, hkk, hka⟩)
  rw [eraseP_append_right [x] hnone, eraseP_cons_of_neg hyx, eraseP_of_forall_not hnone, eraseP_nil]

/-- The keys of a list, as a multiset. -/
def keys (xs : List α) : Multiset κ :=
  ↑(xs.filterMap key)

lemma count_keys (xs : List α) (k : κ) : (keys key xs).count k = tally key k xs := by
  unfold keys tally
  rw [Multiset.coe_count, count_filterMap]
  congr
  funext a
  exact Bool.eq_iff_iff.mpr (by simp)

lemma keys_le_iff : keys ka xs ≤ keys kb ys ↔ ∀ k, tally ka k xs ≤ tally kb k ys := by
  rw [Multiset.le_iff_count]
  simp [count_keys]

/-- When every request left over by an exact pass is unkeyed, the keys
requested are a sub-multiset of those on offer. -/
lemma keys_le_of_leftover_unkeyed
    (h : ∀ b ∈ leftover (hits ka kb) ys xs, kb b = none) : keys kb ys ≤ keys ka xs := by
  rw [keys_le_iff]
  intro k
  by_contra hlt
  obtain ⟨b, hb, hkb⟩ := exists_mem_leftover_iff.mpr (Nat.lt_of_not_le hlt)
  rw [h b hb] at hkb
  cases hkb

end keyed

/-! ## Conservation

Items are keyed by what they carry and by their content, or carry nothing.
If the contents balance, the carried items only shrink, and unkeyed items of
one content only grow where nothing carried over it was lost, then nothing
changed. -/

section conservation

variable {τ ρ : Type*} [DecidableEq τ] [DecidableEq ρ] {content : τ → ρ}

variable {carried carried' : Multiset τ} {bare bare' : Multiset ρ}

/-- Where something carried is lost, its content turns up bare. -/
lemma bare_count_lt (hcontent : carried.map content + bare = carried'.map content + bare')
    (hle : carried' ≤ carried) {t : τ} (hlost : carried'.count t < carried.count t) :
    bare.count (content t) < bare'.count (content t) := by
  obtain ⟨lost, rfl⟩ := Multiset.le_iff_exists_add.mp hle
  have hbare : lost.map content + bare = bare' := by
    rw [Multiset.map_add, add_assoc] at hcontent
    exact add_left_cancel hcontent
  have ht : t ∈ lost := by
    rw [← Multiset.count_pos]
    rw [Multiset.count_add] at hlost
    omega
  have hpos := Multiset.count_pos.mpr (Multiset.mem_map_of_mem content ht)
  rw [← hbare, Multiset.count_add]
  omega

lemma eq_of_le_of_surplus (hcontent : carried.map content + bare = carried'.map content + bare')
    (hle : carried' ≤ carried)
    (hsurplus : ∀ t ∈ carried, bare.count (content t) < bare'.count (content t) →
      carried.count t ≤ carried'.count t) : carried' = carried ∧ bare' = bare := by
  have hcarried : carried' = carried := by
    apply le_antisymm hle
    rw [Multiset.le_iff_count]
    intro t
    by_contra hlost
    replace hlost := Nat.lt_of_not_le hlost
    have hmem : t ∈ carried := Multiset.count_pos.mp (by omega)
    have hkept := hsurplus t hmem (bare_count_lt hcontent hle hlost)
    omega
  subst hcarried
  exact ⟨rfl, (add_left_cancel hcontent).symm⟩

/-- The keyed and the unkeyed elements of a list make up the list. -/
lemma map_keys_add_map_keys {α κ κ' σ : Type*} {k : α → Option κ} {k' : α → Option κ'} {f : κ → σ}
    {g : κ' → σ} {h : α → σ} {xs : List α}
    (hxs : ∀ x ∈ xs, (∃ a, k x = some a ∧ k' x = none ∧ f a = h x) ∨
      ∃ b, k x = none ∧ k' x = some b ∧ g b = h x) :
    (keys k xs).map f + (keys k' xs).map g = ↑(xs.map h) := by
  induction xs with
  | nil => rfl
  | cons x xs ih =>
  have hrest := ih fun x' hx' => hxs x' (mem_cons_of_mem x hx')
  simp only [keys, Multiset.map_coe] at hrest ⊢
  rcases hxs x (by simp) with ⟨a, hk, hk', hf⟩ | ⟨b, hk, hk', hg⟩
  · rw [filterMap_cons_some hk, filterMap_cons_none hk', map_cons, map_cons,
      hf, ← Multiset.cons_coe, ← Multiset.cons_coe, Multiset.cons_add, hrest]
  · rw [filterMap_cons_none hk, filterMap_cons_some hk', map_cons, map_cons,
      hg, ← Multiset.cons_coe, ← Multiset.cons_coe, Multiset.add_cons, hrest]

end conservation

end Reserve
