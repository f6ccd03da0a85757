import Mathlib.Algebra.Ring.Nat
import Mathlib.Order.Lattice
import Mathlib.Data.List.Sigma
import Mathlib.Data.List.AList
import Mathlib.Data.List.Sort
import Mathlib.Algebra.BigOperators.Group.List.Basic

/-! # Ordered finite maps

A finite map kept as the list of its entries in increasing order of keys, the
way an ordered key/value bucket is traversed.  The order is part of the type, so
two maps with the same bindings are equal.

`weight` sums a measure of the entries; how it changes under an update is what
an accounting kept beside the map has to follow. -/

universe u v w

/-- A finite map with its entries in increasing order of keys. -/
structure OrdMap (κ : Type u) (β : Type v) [LinearOrder κ] where
  entries : List (Sigma fun _ : κ => β)
  sorted : entries.Pairwise fun a b => a.1 < b.1

namespace OrdMap

open List

variable {κ : Type u} {β : Type v} {γ : Type w} [LinearOrder κ]

/-! ## Operations -/

instance : EmptyCollection (OrdMap κ β) := ⟨⟨[], .nil⟩⟩

variable (m : OrdMap κ β)

/-- The binding of a key. -/
def find? (k : κ) : Option β := m.entries.dlookup k

lemma nodupKeys : m.entries.NodupKeys := nodupKeys_iff_pairwise.mpr (m.sorted.imp ne_of_lt)

/-- Insertion at the place of the key; a binding of the key is replaced. -/
def insertEntry (k : κ) (b : β) (l : List (Sigma fun _ : κ => β)) : List (Sigma fun _ : κ => β) :=
  (l.kerase k).orderedInsert (fun a b => a.1 ≤ b.1) ⟨k, b⟩

variable {k : κ} {b : β}

lemma perm_insertEntry :
    (insertEntry k b m.entries).Perm (⟨k, b⟩ :: m.entries.kerase k) := perm_orderedInsert _ _ _

lemma sorted_insertEntry : (insertEntry k b m.entries).Pairwise fun a b => a.1 < b.1 := by
  have hle : (insertEntry k b m.entries).Pairwise fun a b => a.1 ≤ b.1 := by
    have : Std.Total fun a b : Sigma fun _ : κ => β => a.1 ≤ b.1 := ⟨fun a b => le_total a.1 b.1⟩
    have : IsTrans (Sigma fun _ : κ => β) fun a b => a.1 ≤ b.1 := ⟨fun _ _ _ => le_trans⟩
    exact ((m.sorted.sublist (kerase_sublist k _)).imp le_of_lt).orderedInsert _ _
  have hkeys : (insertEntry k b m.entries).NodupKeys := by
    rw [perm_nodupKeys m.perm_insertEntry, nodupKeys_cons]
    exact ⟨notMem_keys_kerase k m.nodupKeys, m.nodupKeys.kerase k⟩
  exact (hle.and (nodupKeys_iff_pairwise.mp hkeys)).imp fun h => lt_of_le_of_ne h.1 h.2

def insert (k : κ) (b : β) : OrdMap κ β := ⟨insertEntry k b m.entries, m.sorted_insertEntry⟩

def erase (k : κ) : OrdMap κ β :=
  ⟨m.entries.kerase k, m.sorted.sublist (kerase_sublist k _)⟩

variable (f : β → γ)

def map (m : OrdMap κ β) : OrdMap κ γ :=
  ⟨m.entries.map fun e => ⟨e.1, f e.2⟩, by
    rw [pairwise_map]
    exact m.sorted⟩

/-- The keys, in order. -/
def keys : List κ := m.entries.map Sigma.fst

def size : Nat := m.entries.length

/-- The sum of a measure over the entries. -/
def weight (f : κ → β → Nat) (m : OrdMap κ β) : Nat := (m.entries.map fun e => f e.1 e.2).sum

/-- The entries from the first key that is not before `k` on. -/
def seek (k : κ) : List (Sigma fun _ : κ => β) :=
  m.entries.dropWhile fun e => e.1 < k

/-- The same, without the entry of `k` itself. -/
def seekAfter (k : κ) : List (Sigma fun _ : κ => β) :=
  match m.seek k with
  | e :: rest => if e.1 = k then rest else e :: rest
  | [] => []

/-! ## Bindings -/

/-- A map is determined by its bindings. -/
lemma ext_find {m m' : OrdMap κ β} (h : ∀ k, m.find? k = m'.find? k) : m = m' := by
  have hperm : m.entries.Perm m'.entries := by
    refine lookup_ext m.nodupKeys m'.nodupKeys fun k b => ?_
    show b ∈ m.find? k ↔ b ∈ m'.find? k
    rw [h k]
  have hentries : m.entries = m'.entries :=
    Perm.eq_of_pairwise (fun a b _ _ hab hba => absurd hab (not_lt.mpr hba.le)) m.sorted
      m'.sorted hperm
  cases m
  cases hentries
  rfl

variable {m : OrdMap κ β}

lemma mem_entries_iff : ⟨k, b⟩ ∈ m.entries ↔ m.find? k = some b :=
  (mem_dlookup_iff m.nodupKeys).symm

@[simp] lemma find?_insert_self (m : OrdMap κ β) (k : κ) (b : β) :
    (m.insert k b).find? k = some b := by
  rw [find?, perm_dlookup k (m.insert k b).nodupKeys m.perm_insertEntry]
  exact dlookup_cons_eq (β := fun _ => β) _ k b

@[simp] lemma find?_insert_ne (m : OrdMap κ β) {k k' : κ} (b : β) (h : k' ≠ k) :
    (m.insert k b).find? k' = m.find? k' := by
  rw [find?, perm_dlookup k' (m.insert k b).nodupKeys m.perm_insertEntry,
    dlookup_cons_ne (β := fun _ => β) _ ⟨k, b⟩ h]
  exact dlookup_kerase_ne h

@[simp] lemma find?_erase_self (m : OrdMap κ β) (k : κ) : (m.erase k).find? k = none :=
  dlookup_kerase k m.nodupKeys

@[simp] lemma find?_erase_ne (m : OrdMap κ β) {k k' : κ} (h : k' ≠ k) :
    (m.erase k).find? k' = m.find? k' := dlookup_kerase_ne h

@[simp] lemma find?_map (m : OrdMap κ β) (k : κ) : (m.map f).find? k = (m.find? k).map f :=
  dlookup_map₂ (γ := fun _ => β) (δ := fun _ => γ) (f := fun _ => f) k

lemma map_insert (m : OrdMap κ β) (k : κ) (b : β) :
    (m.insert k b).map f = (m.map f).insert k (f b) := by
  refine ext_find fun k' => ?_
  by_cases hk : k' = k
  · cases hk
    simp
  · simp [hk]

lemma map_erase (m : OrdMap κ β) (k : κ) : (m.erase k).map f = (m.map f).erase k := by
  refine ext_find fun k' => ?_
  by_cases hk : k' = k
  · cases hk
    simp
  · simp [hk]

/-- Inserting what is there changes nothing. -/
lemma insert_of_find? (h : m.find? k = some b) : m.insert k b = m := by
  refine ext_find fun k' => ?_
  by_cases hk : k' = k
  · rw [hk, find?_insert_self, h]
  · rw [find?_insert_ne _ _ hk]

/-- Mapping there and back. -/
lemma map_map_eq_self {f : β → γ} {g : γ → β}
    (h : ∀ k b, m.find? k = some b → g (f b) = b) : (m.map f).map g = m := by
  refine ext_find fun k => ?_
  rw [find?_map, find?_map]
  cases hfind : m.find? k with
  | none => rfl
  | some b => exact congrArg some (h k b hfind)

@[simp] lemma keys_map (m : OrdMap κ β) : (m.map f).keys = m.keys := by
  simp [keys, map]

@[simp] lemma size_map (m : OrdMap κ β) : (m.map f).size = m.size := by
  simp [size, map]

lemma mem_keys_iff : k ∈ m.keys ↔ (m.find? k).isSome := by
  rw [find?, dlookup_isSome]
  rfl

lemma keys_sorted (m : OrdMap κ β) : m.keys.Pairwise (· < ·) := pairwise_map.mpr m.sorted

/-! ## Weights -/

section weight

variable {m : OrdMap κ β} {k : κ} {b b' : β} (f : κ → β → Nat)

lemma perm_kerase (h : m.find? k = some b) : m.entries.Perm (⟨k, b⟩ :: m.entries.kerase k) := by
  have hmem : k ∈ m.entries.keys := dlookup_isSome.mp (Option.isSome_of_eq_some h)
  obtain ⟨b', l₁, l₂, hnot, heq, hkerase⟩ := exists_of_kerase hmem
  have hb : b' = b := by
    have hfind : m.find? k = some b' := mem_entries_iff.mp (by rw [heq]; simp)
    exact Option.some.inj (hfind.symm.trans h)
  rw [hkerase, heq, hb]
  exact perm_middle

lemma weight_insert_of_none (h : m.find? k = none) :
    (m.insert k b).weight f = m.weight f + f k b := by
  have hperm := (m.perm_insertEntry (k := k) (b := b)).map fun e => f e.1 e.2
  have hkerase : m.entries.kerase k = m.entries := kerase_of_notMem_keys (dlookup_eq_none.mp h)
  rw [hkerase] at hperm
  show (List.map _ (insertEntry k b m.entries)).sum = _
  rw [hperm.sum_eq]
  exact Nat.add_comm _ _

lemma weight_insert_of_some (h : m.find? k = some b') :
    (m.insert k b).weight f + f k b' = m.weight f + f k b := by
  have hperm := (m.perm_insertEntry (k := k) (b := b)).map fun e => f e.1 e.2
  have hold := (perm_kerase h).map fun e => f e.1 e.2
  show (List.map _ (insertEntry k b m.entries)).sum + _ = (List.map _ m.entries).sum + _
  rw [hperm.sum_eq, hold.sum_eq, map_cons, map_cons, sum_cons, sum_cons]
  show f k b + _ + f k b' = f k b' + _ + f k b
  omega

lemma weight_erase_of_some (h : m.find? k = some b) :
    (m.erase k).weight f + f k b = m.weight f := by
  have hold := (perm_kerase h).map fun e => f e.1 e.2
  show (List.map _ (m.entries.kerase k)).sum + _ = (List.map _ m.entries).sum
  rw [hold.sum_eq]
  exact Nat.add_comm _ _

/-- Insertion in one equation: what the key weighed before leaves, what it weighs now
arrives. -/
lemma weight_insert :
    (m.insert k b).weight f + ((m.find? k).map (f k)).getD 0 = m.weight f + f k b := by
  cases h : m.find? k with
  | none => exact weight_insert_of_none f h
  | some b' => exact weight_insert_of_some f h

/-- An entry weighs no more than the map. -/
lemma le_weight (h : m.find? k = some b) : f k b ≤ m.weight f := by
  have := weight_erase_of_some f h
  omega

lemma weight_map (g : κ → γ → Nat) (h : β → γ) :
    (m.map h).weight g = m.weight fun k b => g k (h b) := by
  simp [weight, map, Function.comp_def]

lemma size_eq_weight : m.size = m.weight fun _ _ => 1 := by
  rw [weight, map_const', sum_replicate_nat, Nat.mul_one, size]

lemma size_insert_of_none (h : m.find? k = none) : (m.insert k b).size = m.size + 1 := by
  rw [size_eq_weight, weight_insert_of_none _ h, ← size_eq_weight]

lemma size_insert_of_some (h : m.find? k = some b') : (m.insert k b).size = m.size := by
  have hweight := weight_insert_of_some (fun _ _ => 1) (b := b) h
  rw [← size_eq_weight, ← size_eq_weight] at hweight
  omega

lemma size_erase_of_some (h : m.find? k = some b) : (m.erase k).size + 1 = m.size := by
  have hweight := weight_erase_of_some (fun _ _ => 1) h
  rwa [← size_eq_weight, ← size_eq_weight] at hweight

lemma size_pos (h : m.find? k = some b) : 0 < m.size := by
  have := size_erase_of_some h
  omega

lemma eq_empty_of_size (h : m.size = 0) : m = ∅ := by
  refine ext_find fun k => ?_
  rw [find?, length_eq_zero_iff.mp h]
  rfl

end weight

/-! ## Runs of entries -/

/-- A run that holds its predicate downwards is what satisfies the predicate. -/
lemma runs_eq_filter {α : Type u} {p : α → Bool} {l : List α}
    (h : l.Pairwise fun a b => p b = true → p a = true) :
    l.takeWhile p = l.filter p ∧ l.dropWhile p = l.filter fun a => !p a := by
  induction l with
  | nil => exact ⟨rfl, rfl⟩
  | cons a l ih =>
  obtain ⟨hhead, hrest⟩ := pairwise_cons.mp h
  by_cases ha : p a = true
  · simpa [ha] using ih hrest
  have hnot : ∀ b ∈ l, ¬ p b = true := fun b hb hpb => ha (hhead b hb hpb)
  constructor
  · rw [takeWhile_cons_of_neg ha, filter_cons_of_neg ha, filter_eq_nil_iff.mpr hnot]
  · rw [dropWhile_cons_of_neg ha, filter_eq_self.mpr (by simpa [ha] using hnot)]

/-- Seeking a key finds the entries from it on. -/
lemma seek_eq_filter (m : OrdMap κ β) (k : κ) :
    m.seek k = m.entries.filter fun e => decide (k ≤ e.1) := by
  have hdown : m.entries.Pairwise fun a b => decide (b.1 < k) = true → decide (a.1 < k) = true := by
    refine m.sorted.imp fun {a b} hab hb => ?_
    rw [decide_eq_true_eq] at hb ⊢
    exact hab.trans hb
  rw [seek, (runs_eq_filter hdown).2]
  refine filter_congr fun e _ => ?_
  rw [← decide_not, decide_eq_decide, not_lt]

/-- Seeking past a key finds the entries after it. -/
lemma seekAfter_eq_filter (m : OrdMap κ β) (k : κ) :
    m.seekAfter k = m.entries.filter fun e => decide (k < e.1) := by
  have hafter : (m.entries.filter fun e => decide (k < e.1)) =
      (m.seek k).filter fun e => decide (k < e.1) := by
    rw [seek_eq_filter, filter_filter]
    refine filter_congr fun e _ => ?_
    rw [← Bool.decide_and, decide_eq_decide]
    exact ⟨fun h => ⟨h, h.le⟩, fun h => h.1⟩
  have hsorted : (m.seek k).Pairwise fun a b => a.1 < b.1 := m.sorted.sublist (dropWhile_sublist _)
  have hfrom : ∀ e ∈ m.seek k, k ≤ e.1 := by
    intro e he
    rw [seek_eq_filter, mem_filter, decide_eq_true_eq] at he
    exact he.2
  rw [hafter, seekAfter]
  cases hseek : m.seek k with
  | nil => rfl
  | cons e rest =>
  rw [hseek] at hsorted hfrom
  obtain ⟨hhead, -⟩ := pairwise_cons.mp hsorted
  have hrest : (rest.filter fun e => decide (k < e.1)) = rest := by
    rw [filter_eq_self]
    intro e' he'
    rw [decide_eq_true_eq]
    exact (hfrom e mem_cons_self).trans_lt (hhead e' he')
  show (if e.1 = k then rest else e :: rest) = _
  by_cases he : e.1 = k
  · rw [if_pos he, filter_cons_of_neg (by simp [he]), hrest]
  · have hlt : k < e.1 := lt_of_le_of_ne (hfrom e mem_cons_self) (Ne.symm he)
    rw [if_neg he, filter_cons_of_pos (by simp [hlt]), hrest]

end OrdMap
