import Mathlib.Algebra.Ring.Nat
import Mathlib.Data.List.Forall2
import Mathlib.Data.List.Perm.Basic

/-! # Aligning two lists from partial observations

Two lists are often compared through views that each show only part of
them: the elements of some kind in order, the elements of another kind with
their positions, the elements of one class with their index.  The rules
below put such observations back together into an elementwise relation. -/

namespace Align

open List

universe u v w

variable {α β : Type u} {γ : Type v} {μ : Type v} {ν : Type w}

variable {f : α → γ} {xs ys : List α} {p : Nat → Bool}

/-- Equal images, as an alignment. -/
lemma map_eq_iff_forall₂ : xs.map f = ys.map f ↔ Forall₂ (fun x y => f x = f y) xs ys := by
  rw [← forall₂_eq_eq_eq, forall₂_map_left_iff, forall₂_map_right_iff]

lemma isEqv_iff_forall₂ {r : α → α → Bool} :
    xs.isEqv ys r = true ↔ Forall₂ (fun x y => r x y = true) xs ys := by
  induction xs generalizing ys with
  | nil => cases ys <;> simp [isEqv]
  | cons x xs ih => cases ys <;> simp [isEqv, ih]

lemma ne_nil_iff {R : α → γ → Prop} {zs : List γ} (h : Forall₂ R xs zs) : xs ≠ [] ↔ zs ≠ [] := by
  rw [← length_pos_iff, h.length_eq, length_pos_iff]

/-- The value of a key that occurs once. -/
lemma lookup_of_mem [BEq α] [LawfulBEq α] {fields : List (α × γ)} {e : α × γ}
    (hnodup : (fields.map Prod.fst).Nodup) (he : e ∈ fields) : fields.lookup e.1 = some e.2 := by
  induction fields with
  | nil => cases he
  | cons g fields ih =>
  rw [map_cons, nodup_cons] at hnodup
  rcases mem_cons.mp he with rfl | he
  · exact lookup_cons_self
  have hne : e.1 ≠ g.1 := fun heq => hnodup.1 (heq ▸ mem_map_of_mem he)
  rw [lookup_cons, beq_false_of_ne hne]
  exact ih hnodup.2 he

/-- What determines an element determines the list. -/
lemma map_eq_map_of {δ : Type w} {g : α → δ}
    (h : xs.map f = ys.map f) (hfg : ∀ x ∈ xs, ∀ y ∈ ys, f x = f y → g x = g y) :
    xs.map g = ys.map g := by
  rw [map_eq_iff_forall₂, forall₂_iff_zip] at h ⊢
  refine ⟨h.1, ?_⟩
  intro x y hxy
  exact hfg x (of_mem_zip hxy).1 y (of_mem_zip hxy).2 (h.2 hxy)

/-- Results that follow from a rearranged observation are rearranged alike. -/
lemma map_perm_of {δ : Type w} {g : α → δ}
    (h : (xs.map f).Perm (ys.map f)) (hfg : ∀ x ∈ xs, ∀ y ∈ ys, f x = f y → g x = g y) :
    (xs.map g).Perm (ys.map g) := by
  have hself : Forall₂ (fun b y => b = f y) (ys.map f) ys := by simp
  obtain ⟨ys', hys', hperm⟩ := perm_comp_forall₂ h hself
  have hmap : xs.map f = ys'.map f := by
    rw [← forall₂_eq_eq_eq, forall₂_map_right_iff]
    exact hys'
  rw [map_eq_map_of hmap fun x hx y hy => hfg x hx y (hperm.subset hy)]
  exact hperm.map g

/-- Where both heads are seen or neither is, equal views have equal heads. -/
lemma filterMap_cons_eq_iff {pick : α → Option ν} {x y : α}
    (h : (pick x).isSome = (pick y).isSome) : (x :: xs).filterMap pick = (y :: ys).filterMap pick ↔
      pick x = pick y ∧ xs.filterMap pick = ys.filterMap pick := by
  cases hx : pick x <;> cases hy : pick y <;> simp_all

/-- Elements are either holes, seen with their position, or visible, seen in
order.  Equal observations align the two lists element by element. -/
lemma forall₂_of_holes {hole : α → Option μ} {view : α → Option ν}
    (hxs : ∀ x ∈ xs, hole x = none ↔ view x ≠ none) (hys : ∀ y ∈ ys, hole y = none ↔ view y ≠ none)
    (hpos : ∀ n : Nat, xs[n]?.bind hole = ys[n]?.bind hole)
    (hview : xs.filterMap view = ys.filterMap view) :
    Forall₂ (fun x y => hole x = hole y ∧ view x = view y) xs ys := by
  induction xs generalizing ys with
  | nil =>
    cases ys with
    | nil => exact .nil
    | cons y ys =>
    have hnone : hole y = none := (hpos 0).symm
    obtain ⟨a, ha⟩ := Option.ne_none_iff_exists'.mp ((hys y (by simp)).mp hnone)
    simp [ha] at hview
  | cons x xs ih =>
  cases ys with
  | nil =>
    have hnone : hole x = none := hpos 0
    obtain ⟨a, ha⟩ := Option.ne_none_iff_exists'.mp ((hxs x (by simp)).mp hnone)
    simp [ha] at hview
  | cons y ys =>
  have hhole : hole x = hole y := hpos 0
  have hseen : (view x).isSome = (view y).isSome := by
    rw [Bool.eq_iff_iff, Option.isSome_iff_ne_none, Option.isSome_iff_ne_none,
      ← hxs x (by simp), ← hys y (by simp), hhole]
  obtain ⟨hhead, hrest⟩ := (filterMap_cons_eq_iff hseen).mp hview
  exact .cons ⟨hhole, hhead⟩ (ih (fun x' hx' => hxs x' (mem_cons_of_mem x hx'))
    (fun y' hy' => hys y' (mem_cons_of_mem y hy')) (fun n => hpos (n + 1)) hrest)

/-- Elements of one position, taken from the selected ones. -/
lemma of_forall₂_filter_zipIdx {R : α → β → Prop} {ys : List β} {k : Nat}
    (hlen : xs.length = ys.length)
    (h : Forall₂ (fun x y => R x.1 y.1) ((xs.zipIdx k).filter fun x => p x.2)
      ((ys.zipIdx k).filter fun y => p y.2)) :
    ∀ (n : Nat) x y, xs[n]? = some x → ys[n]? = some y → p (k + n) = true → R x y := by
  induction xs generalizing ys k with
  | nil =>
    intro n x y hx
    cases hx
  | cons x xs ih =>
  cases ys with
  | nil => cases hlen
  | cons y ys =>
  rw [zipIdx_cons, zipIdx_cons, filter_cons, filter_cons] at h
  have hrest : xs.length = ys.length := Nat.succ.inj hlen
  -- the head is selected on both sides or on neither
  obtain ⟨hhead, htail⟩ : (p k = true → R x y) ∧
      Forall₂ (fun x y => R x.1 y.1) ((xs.zipIdx (k + 1)).filter fun x => p x.2)
        ((ys.zipIdx (k + 1)).filter fun y => p y.2) := by
    cases hk : p k with
    | true =>
      simp only [hk] at h
      cases h with
      | cons hxy htail => exact ⟨fun _ => hxy, htail⟩
    | false =>
      simp only [hk] at h
      exact ⟨fun hpos => (nomatch hpos), h⟩
  intro n x' y' hx hy hp
  cases n with
  | zero =>
    cases hx
    cases hy
    exact hhead hp
  | succ n =>
  refine ih hrest htail n x' y' hx hy ?_
  rw [← hp]
  congr 1
  omega

lemma length_filter_zipIdx {ys : List β} (hlen : xs.length = ys.length) :
    (xs.zipIdx.filter fun x => p x.2).length = (ys.zipIdx.filter fun y => p y.2).length := by
  have hcount : ∀ {δ : Type u} (zs : List δ),
      (zs.zipIdx.filter fun z => p z.2).length = ((range' 0 zs.length).filter p).length := by
    intro δ zs
    rw [← zipIdx_map_snd, filter_map, length_map]
    rfl
  rw [hcount, hcount, hlen]

lemma forall₂_of_positions {R : α → β → Prop} {ys : List β} (hlen : xs.length = ys.length)
    (h : ∀ (n : Nat) x y, xs[n]? = some x → ys[n]? = some y → R x y) : Forall₂ R xs ys := by
  rw [forall₂_iff_get]
  exact ⟨hlen, fun n hx hy => h n _ _ (by simp) (by simp)⟩

/-- Two rearrangements of each other are equal if no element that differs from
its partner is found among the partners of other such elements. -/
lemma eq_of_perm_of_disjoint [DecidableEq α] (h : xs.Perm ys)
    (hdisj : ∀ p ∈ xs.zip ys, p.1 ≠ p.2 → ∀ q ∈ xs.zip ys, q.1 ≠ q.2 → p.1 ≠ q.2) : xs = ys := by
  have hlen := h.length_eq
  have hfst : (xs.zip ys).map Prod.fst = xs := map_fst_zip (Nat.le_of_eq hlen)
  have hsnd : (xs.zip ys).map Prod.snd = ys := map_snd_zip (Nat.le_of_eq hlen.symm)
  generalize xs.zip ys = ps at hfst hsnd hdisj
  -- what agrees with its partner cancels, so the rest is rearranged among itself
  have hsame : (ps.filter fun p => p.1 = p.2).map Prod.fst =
      (ps.filter fun p => p.1 = p.2).map Prod.snd := by simp
  have hrest : ((ps.filter fun p => !decide (p.1 = p.2)).map Prod.fst).Perm
      ((ps.filter fun p => !decide (p.1 = p.2)).map Prod.snd) := by
    have hsplit := filter_append_perm (fun p : α × α => decide (p.1 = p.2)) ps
    have hfst' := hsplit.map Prod.fst
    have hsnd' := hsplit.map Prod.snd
    rw [map_append, hfst] at hfst'
    rw [map_append, hsnd, ← hsame] at hsnd'
    exact (perm_append_left_iff _).mp (hfst'.trans (h.trans hsnd'.symm))
  have hnone : ∀ p ∈ ps, p.1 = p.2 := by
    intro p hp
    by_contra hne
    have hp' : p.1 ∈ (ps.filter fun p => !decide (p.1 = p.2)).map Prod.fst :=
      mem_map_of_mem (mem_filter.mpr ⟨hp, by simpa using hne⟩)
    obtain ⟨q, hq, hqp⟩ := mem_map.mp (hrest.subset hp')
    obtain ⟨hq, hqne⟩ := mem_filter.mp hq
    exact hdisj p hp hne q hq (by simpa using hqne) hqp.symm
  rw [← hfst, ← hsnd]
  exact map_congr_left hnone

/-- One value can be left out of a rearrangement of lists of one length. -/
lemma perm_of_filter_ne [DecidableEq α] (a : α) (hlen : xs.length = ys.length)
    (h : (xs.filter fun x => !decide (x = a)).Perm (ys.filter fun y => !decide (y = a))) :
    xs.Perm ys := by
  have hsplit : ∀ zs : List α,
      zs.length = zs.count a + (zs.filter fun z => !decide (z = a)).length := by
    intro zs
    rw [← countP_eq_length_filter, length_eq_countP_add_countP (· == a)]
    congr 2
    funext z
    simp
  rw [perm_iff_count]
  intro z
  by_cases hz : z = a
  · have hx := hsplit xs
    have hy := hsplit ys
    have hsame := h.length_eq
    rw [hz]
    omega
  · have hcount := h.count_eq z
    rwa [count_filter (by simpa using hz), count_filter (by simpa using hz)] at hcount

/-- An observation made position by position adds to an alignment. -/
lemma forall₂_and_of_positions {R P : α → β → Prop} {ys : List β} (h : Forall₂ R xs ys)
    (hpos : ∀ (n : Nat) x y, xs[n]? = some x → ys[n]? = some y → R x y → P x y) :
    Forall₂ (fun x y => R x y ∧ P x y) xs ys := by
  rw [forall₂_iff_get] at h ⊢
  refine ⟨h.1, ?_⟩
  intro n hx hy
  exact ⟨h.2 n hx hy, hpos n _ _ (by simp) (by simp) (h.2 n hx hy)⟩

variable {R : α → γ → Prop}

/-- The partner of the element at a position. -/
lemma forall₂_getElem? {ys : List γ} (h : Forall₂ R xs ys) {k : Nat} {x : α}
    (hx : xs[k]? = some x) : ∃ y, ys[k]? = some y ∧ R x y := by
  obtain ⟨hk, rfl⟩ := List.getElem?_eq_some_iff.mp hx
  have hk' : k < ys.length := h.length_eq ▸ hk
  exact ⟨ys[k], getElem?_eq_getElem hk', h.get hk hk'⟩

lemma exists_of_mem_right {ys : List γ} (h : Forall₂ R xs ys) {y : γ} (hy : y ∈ ys) :
    ∃ x ∈ xs, R x y := by
  obtain ⟨k, hk⟩ := mem_iff_getElem?.mp hy
  obtain ⟨x, hx, hxy⟩ := forall₂_getElem? h.flip hk
  exact ⟨x, mem_of_getElem? hx, hxy⟩

lemma forall₂_trans {δ : Type v} {S : γ → δ → Prop} {T : α → δ → Prop}
    (htrans : ∀ x y z, R x y → S y z → T x z) {ys : List γ} {zs : List δ}
    (h : Forall₂ R xs ys) (h' : Forall₂ S ys zs) : Forall₂ T xs zs := by
  induction h generalizing zs with
  | nil =>
    cases h'
    exact .nil
  | cons hxy _ ih =>
    cases h' with
    | cons hyz hrest => exact .cons (htrans _ _ _ hxy hyz) (ih hrest)

/-- Where the relation of an element to its image is a condition on the element, two
lists are related exactly when every element satisfies it. -/
lemma forall₂_iff_forall {R S : α → γ → Prop} {P : α → Prop} {ys : List γ}
    (h : Forall₂ R xs ys) (hiff : ∀ x ∈ xs, ∀ y, R x y → (S x y ↔ P x)) :
    Forall₂ S xs ys ↔ ∀ x ∈ xs, P x := by
  induction h with
  | nil => exact iff_of_true .nil (by simp)
  | cons hxy _ ih =>
    rw [forall_mem_cons] at hiff
    rw [forall₂_cons, forall_mem_cons, hiff.1 _ hxy, ih hiff.2]

variable {pick : α → Option γ}

/-- An observation of some elements in order adds to an alignment that already
says which elements they are. -/
lemma forall₂_and_of_filterMap {R : α → α → Prop} {f : γ → ν}
    (hpick : ∀ x y, R x y → (pick x).isSome = (pick y).isSome) (h : Forall₂ R xs ys)
    (heq : (xs.filterMap pick).map f = (ys.filterMap pick).map f) :
    Forall₂ (fun x y => R x y ∧ (pick x).map f = (pick y).map f) xs ys := by
  rw [map_filterMap, map_filterMap] at heq
  induction h with
  | nil => exact .nil
  | cons hxy _ ih =>
    have hsome := hpick _ _ hxy
    obtain ⟨hhead, htail⟩ := (filterMap_cons_eq_iff (by simpa using hsome)).mp heq
    exact .cons ⟨hxy, hhead⟩ (ih htail)

/-- What is picked in the same order comes from the same place. -/
lemma forall₂_filterMap {R : α → α → Prop}
    (hpick : ∀ x y, R x y → (pick x).isSome = (pick y).isSome) (h : Forall₂ R xs ys) :
    Forall₂ (fun a b => ∃ (n : Nat) (x y : α), xs[n]? = some x ∧ ys[n]? = some y ∧ R x y ∧
      pick x = some a ∧ pick y = some b) (xs.filterMap pick) (ys.filterMap pick) := by
  have hplaces := forall₂_and_of_positions (P := fun x y => ∃ n : Nat, xs[n]? = some x ∧
    ys[n]? = some y) h fun n x y hx hy _ => ⟨n, hx, hy⟩
  refine rel_filterMap ?_ hplaces
  rintro x y ⟨hxy, n, hx, hy⟩
  have hsome := hpick x y hxy
  cases ha : pick x with
  | none => simp_all
  | some a =>
  obtain ⟨b, hb⟩ := Option.isSome_iff_exists.mp (hsome.symm.trans (by rw [ha]; rfl))
  rw [hb]
  exact .some ⟨n, x, y, hx, hy, hxy, ha, hb⟩

/-- The same over a list of lists, where the order of observation runs through
all of them. -/
lemma forall₂_forall₂_and_of_filterMap {R : α → α → Prop} {f : γ → ν}
    {xss yss : List (List α)} (hpick : ∀ x y, R x y → (pick x).isSome = (pick y).isSome)
    (h : Forall₂ (Forall₂ R) xss yss)
    (heq : (xss.flatten.filterMap pick).map f = (yss.flatten.filterMap pick).map f) :
    Forall₂ (Forall₂ fun x y => R x y ∧ (pick x).map f = (pick y).map f) xss yss := by
  induction h with
  | nil => exact .nil
  | @cons xs ys xss yss hxy _ ih =>
  simp only [flatten_cons, filterMap_append, map_append] at heq
  have hlen : ((xs.filterMap pick).map f).length = ((ys.filterMap pick).map f).length := by
    rw [length_map, length_map, (forall₂_filterMap hpick hxy).length_eq]
  obtain ⟨hhead, htail⟩ := append_inj heq hlen
  exact .cons (forall₂_and_of_filterMap hpick hxy hhead) (ih htail)

/-- Lists whose elements know their position are equal once every class of
elements agrees. -/
lemma eq_of_filter_eq (key : α → γ) {index : α → Nat} [DecidableEq γ]
    (hxs : xs.map index = range xs.length) (hys : ys.map index = range ys.length)
    (h : ∀ k, xs.filter (fun x => key x = k) = ys.filter fun y => key y = k) : xs = ys := by
  have hmem : ∀ a, a ∈ xs ↔ a ∈ ys := by
    intro a
    have ha : a ∈ xs.filter (fun x => key x = key a) ↔ a ∈ ys.filter fun y => key y = key a := by
      rw [h]
    simpa using ha
  have hsorted : ∀ {zs : List α}, zs.map index = range zs.length →
      zs.Pairwise fun a b => index a < index b := by
    intro zs hzs
    rw [← pairwise_map, hzs]
    exact pairwise_lt_range
  have hnodup : ∀ {zs : List α}, zs.map index = range zs.length → zs.Nodup := by
    intro zs hzs
    exact (hsorted hzs).imp fun hlt heq => Nat.ne_of_lt hlt (congrArg index heq)
  exact ((perm_ext_iff_of_nodup (hnodup hxs) (hnodup hys)).mpr hmem).eq_of_pairwise
    (fun a b _ _ hab hba => absurd hab (Nat.lt_asymm hba)) (hsorted hxs) (hsorted hys)

/-! ## Images -/

variable {g : γ → Nat} {images : List (List γ)} {K : α → γ → Prop} {f : α → Nat}

lemma sum_le_of_forall₂ {ys : List γ} (h : Forall₂ R xs ys) (hle : ∀ x y, R x y → f x ≤ g y) :
    (xs.map f).sum ≤ (ys.map g).sum := by
  induction h with
  | nil => exact Nat.le_refl _
  | cons hxy _ ih =>
  have hfirst := hle _ _ hxy
  simp only [map_cons, sum_cons]
  omega

/-- Where each number is at most its partner and the sums agree, the numbers do. -/
lemma forall₂_eq_of_sum {ys : List γ} (h : Forall₂ R xs ys)
    (hle : ∀ x y, R x y → f x ≤ g y) (hsum : (ys.map g).sum ≤ (xs.map f).sum) :
    Forall₂ (fun x y => R x y ∧ f x = g y) xs ys := by
  induction h with
  | nil => exact .nil
  | cons hxy hrest ih =>
  have hfirst := hle _ _ hxy
  have htail := sum_le_of_forall₂ hrest hle
  simp only [map_cons, sum_cons] at hsum
  exact .cons ⟨hxy, by omega⟩ (ih (by omega))

lemma sum_flatten (g : γ → Nat) (images : List (List γ)) :
    (images.flatten.map g).sum = (images.map fun image => (image.map g).sum).sum := by
  rw [map_flatten, List.sum_flatten, map_map]
  rfl

/-- **Images that are single.**  Every element has a list as its image.  If the
elements are related one by one to the images in a row, and no image is larger
than its element while every related one is at least as large, then each image is
the one element it is related to. -/
theorem forall₂_single {R : α → List γ → Prop} (himages : Forall₂ R xs images)
    (hsum : ∀ x image, R x image → (image.map g).sum ≤ f x)
    (hpos : ∀ x image, R x image → ∀ y ∈ image, 1 ≤ g y) (hkept : Forall₂ K xs images.flatten)
    (hle : ∀ x y, K x y → f x ≤ g y) :
    Forall₂ (fun x image => ∃ y, image = [y] ∧ K x y) xs images := by
  -- both inequalities are equalities, since the sums of all of them agree
  have htotal := sum_le_of_forall₂ himages.flip (fun image x h => hsum x image h)
  have htotal' := sum_le_of_forall₂ hkept hle
  rw [sum_flatten] at htotal'
  have hequal := forall₂_eq_of_sum hkept hle (by rwa [sum_flatten])
  have hfull := (forall₂_eq_of_sum himages.flip (fun image x h => hsum x image h) htotal').flip
  clear hkept himages htotal htotal'
  induction hfull with
  | nil => exact .nil
  | @cons x image xs images hfirst hrest ih =>
  cases image with
  | nil =>
    obtain ⟨y, ys, ⟨-, hy⟩, -, hflatten⟩ := forall₂_cons_left_iff.mp hequal
    have hmem : y ∈ images.flatten := by
      rw [flatten_cons, nil_append] at hflatten
      simp [hflatten]
    obtain ⟨image, himage, hmem⟩ := mem_flatten.mp hmem
    obtain ⟨x', -, hx'⟩ := exists_of_mem_right hrest himage
    have hone := hpos x' image hx'.1 y hmem
    have hzero : f x = 0 := hfirst.2.symm
    omega
  | cons y image =>
  rw [flatten_cons, cons_append, forall₂_cons] at hequal
  obtain ⟨⟨hy, hsize⟩, hequal⟩ := hequal
  have hnil : image = [] := by
    have hxsize : g y + (image.map g).sum = f x := hfirst.2
    cases image with
    | nil => rfl
    | cons z image =>
    have hone := hpos x _ hfirst.1 z (by simp)
    rw [map_cons, sum_cons] at hxsize
    omega
  subst hnil
  exact .cons ⟨y, rfl, hy⟩ (ih hequal)

lemma forall₂_flatten_single (h : Forall₂ (fun x image => ∃ y, image = [y] ∧ K x y) xs images) :
    Forall₂ K xs images.flatten := by
  induction h with
  | nil => exact .nil
  | cons hfirst _ ih =>
    obtain ⟨y, rfl, hy⟩ := hfirst
    exact .cons hy ih

end Align
