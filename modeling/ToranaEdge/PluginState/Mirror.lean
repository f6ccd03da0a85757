import ToranaEdge.PluginState.Steps

/-! # The maps in memory mirror a ledger -/

namespace ToranaEdge.PluginState

open Ledger List

/-- The two maps, the counter and the total say what the ledger says. -/
structure Mirrors (s : Memory) (L : Ledger) : Prop where
  value : ∀ p k, s.value? p k = (L.find? p k).map Record.value
  version : ∀ p k, (s.versionsOf p).lookup k = L.versionOf p k
  counter : s.counter = L.counter
  total : s.total = L.total

lemma mirrors_empty : Mirrors Memory.empty empty where
  value _ _ := rfl
  version _ _ := rfl
  counter := rfl
  total := rfl

namespace Mirrors

variable {s : Memory} {L : Ledger} {lim : Limits} {codec : CursorCodec} {p k v : Bytes}

/-! ## Keys -/

lemma mem_keys (h : Mirrors s L) : k ∈ (s.dataOf p).keys ↔ k ∈ (L.pluginOf p).keys := by
  rw [OrdMap.mem_keys_iff]
  have hvalue : ((s.dataOf p).lookup k).isSome = ((L.pluginOf p).find? k).isSome := by
    have := h.value p k
    rw [Memory.value?] at this
    rw [this, Option.isSome_map]
    rfl
  rw [← hvalue, AList.lookup_isSome]
  exact AList.mem_keys.symm

lemma perm_keys (h : Mirrors s L) : (s.dataOf p).keys.Perm (L.pluginOf p).keys := by
  refine (perm_ext_iff_of_nodup (s.dataOf p).keys_nodup ?_).mpr fun _ => h.mem_keys
  exact (L.pluginOf p).keys_sorted.imp ne_of_lt

lemma length_dataOf (h : Mirrors s L) : (s.dataOf p).entries.length = (L.pluginOf p).size := by
  have hperm := (h.perm_keys (p := p)).length_eq
  simpa [AList.keys, keys, OrdMap.keys, OrdMap.size] using hperm

/-- Sorting a list of distinct byte strings gives the increasing list of them. -/
lemma insertionSort_eq {xs ys : List Bytes} (hperm : xs.Perm ys)
    (hsorted : ys.Pairwise (· < ·)) : xs.insertionSort (· ≤ ·) = ys :=
  Perm.eq_of_pairwise (fun _ _ _ _ hab hba => le_antisymm hab hba)
    (pairwise_insertionSort _ xs) (hsorted.imp fun hab => le_of_lt hab)
    ((perm_insertionSort _ xs).trans hperm)

lemma sortedKeys (h : Mirrors s L) : Memory.sortedKeys (s.dataOf p) = (L.pluginOf p).keys :=
  insertionSort_eq h.perm_keys (L.pluginOf p).keys_sorted

/-! ## Writes and removals -/

section maps

variable {β : Type} {f : Record → β} {m : GoMap (GoMap β)}
  (hm : ∀ p k, ((m.lookup p).getD ∅).lookup k = (L.find? p k).map f) (p' k' : Bytes)
include hm

/-- Reading a map of maps after a write into one of them. -/
lemma lookup_written : (((m.insert p
      (((m.lookup p).getD ∅).insert k (f ⟨L.counter + 1, v⟩))).lookup p').getD ∅).lookup k' =
      ((L.write p k v).find? p' k').map f := by
  rw [find?_write]
  by_cases hp : p' = p
  · subst hp
    rw [AList.lookup_insert, Option.getD_some]
    by_cases hk : k' = k
    · rw [if_pos ⟨rfl, hk⟩, hk, AList.lookup_insert]
      rfl
    · rw [if_neg fun h => hk h.2, AList.lookup_insert_ne hk, hm]
  · rw [if_neg fun h => hp h.1, AList.lookup_insert_ne hp, hm]

lemma lookup_erased : (((m.insert p (((m.lookup p).getD ∅).erase k)).lookup p').getD ∅).lookup k' =
      ((L.remove p k).find? p' k').map f := by
  rw [find?_remove]
  by_cases hp : p' = p
  · subst hp
    rw [AList.lookup_insert, Option.getD_some]
    by_cases hk : k' = k
    · rw [if_pos ⟨rfl, hk⟩, hk, AList.lookup_erase]
      rfl
    · rw [if_neg fun h => hk h.2, AList.lookup_erase_ne hk, hm]
  · rw [if_neg fun h => hp h.1, AList.lookup_insert_ne hp, hm]

/-- Dropping a map that held one key only. -/
lemma lookup_dropped (hlast : ∀ k' ≠ k, L.find? p k' = none) :
    (((m.erase p).lookup p').getD ∅).lookup k' = ((L.remove p k).find? p' k').map f := by
  rw [find?_remove]
  by_cases hp : p' = p
  · subst hp
    rw [AList.lookup_erase]
    by_cases hk : k' = k
    · rw [if_pos ⟨rfl, hk⟩]
      rfl
    · rw [if_neg fun h => hk h.2, hlast k' hk]
      rfl
  · rw [if_neg fun h => hp h.1, AList.lookup_erase_ne hp, hm]

end maps

lemma version_eq (h : Mirrors s L) : s.version p k = (L.versionOf p k).getD [] := by
  rw [Memory.version, h.version]

/-- The total in memory after a write. -/
lemma totalAfter_eq (h : Mirrors s L) (p k v : Bytes) :
    Memory.totalAfter s.total k v (s.value? p k) = (L.write p k v).total := by
  have htotal := L.total_write (p := p) (k := k) (v := v)
  rw [h.total, h.value]
  unfold heldSize at htotal
  cases hfind : L.find? p k with
  | none =>
    rw [hfind] at htotal
    show (L.total : Int) + entrySize k v = _
    have : (L.write p k v).total + 0 = L.total + entrySize k v := htotal
    omega
  | some r =>
  rw [hfind] at htotal
  show (L.total : Int) + entrySize k v - entrySize k r.value = _
  have : (L.write p k v).total + entrySize k r.value = L.total + entrySize k v := htotal
  omega

lemma write (h : Mirrors s L) (p k v : Bytes) : Mirrors
      { data := s.data.insert p ((s.dataOf p).insert k v)
        versions := s.versions.insert p ((s.versionsOf p).insert k (formatUint (s.counter + 1)))
        counter := s.counter + 1
        total := Memory.totalAfter s.total k v (s.value? p k) } (L.write p k v) where
  value := lookup_written h.value
  version p' k' := by
    rw [h.counter]
    exact lookup_written h.version p' k'
  counter := by
    rw [h.counter]
    rfl
  total := h.totalAfter_eq p k v

lemma remove {r : Record} (h : Mirrors s L) (hfind : L.find? p k = some r) :
    Mirrors (s.remove p k r.value) (L.remove p k) := by
  have htotal : s.total - (entrySize k r.value : Int) = (L.remove p k).total := by
    have := L.total_remove hfind
    rw [h.total]
    omega
  unfold Memory.remove
  dsimp only
  split
  next hlast =>
    -- the plugin held this key only
    have hother : ∀ k' ≠ k, L.find? p k' = none := by
      intro k' hk
      have hnil : (s.dataOf p).erase k = ∅ := AList.ext (length_eq_zero_iff.mp hlast)
      have hlookup := h.value p k'
      rw [Memory.value?, ← AList.lookup_erase_ne hk, hnil] at hlookup
      exact Option.map_eq_none_iff.mp hlookup.symm
    exact ⟨fun p' k' => lookup_dropped h.value p' k' hother,
      fun p' k' => lookup_dropped h.version p' k' hother, h.counter, htotal⟩
  next => exact ⟨lookup_erased h.value, lookup_erased h.version, h.counter, htotal⟩

/-! ## Calls -/

/-- A call in memory that does what the ledger does. -/
def Follows (x : Result × Memory) (spec : Option Outcome × Ledger) : Prop :=
  x.1.toOption = spec.1 ∧ Mirrors x.2 spec.2

section

variable (h : Mirrors s L)
include h

lemma conflicts_eq (conditional : Bool) (expected : Option Bytes) :
    conflicts conditional expected ((s.value? p k).map fun _ => s.version p k) =
      conflicts conditional expected (L.versionOf p k) := by
  have hheld : ((s.value? p k).map fun _ => s.version p k) = L.versionOf p k := by
    rw [h.value, h.version_eq, versionOf]
    cases L.find? p k <;> rfl
  rw [hheld]

/-- **A write in memory.** -/
theorem set_follows (p k v : Bytes) (expected : Option Bytes)
    (conditional : Bool) : Follows (s.set lim p k v expected conditional)
      (L.write? lim true true p k v expected conditional) := by
  unfold Memory.set write?
  cases validateWrite lim p k v with
  | error err => exact ⟨rfl, h⟩
  | ok _ =>
  by_cases hconflict : conflicts conditional expected (L.versionOf p k) = true
  · have hset : L.set lim true p k v expected conditional = some ((false, 0), L) := if_pos hconflict
    have hmemory : s.setMemory lim p k v expected conditional = (.ok (.stored false []), s) :=
      if_pos (by rw [h.conflicts_eq]; exact hconflict)
    rw [hset, hmemory]
    exact ⟨rfl, h⟩
  have hnot :
      ¬ conflicts conditional expected ((s.value? p k).map fun _ => s.version p k) = true := by
    rwa [h.conflicts_eq]
  have hkeys : ((s.value? p k).isNone = true ∧ lim.maxKeysPerPlugin ≤ (s.dataOf p).entries.length) ↔
        L.find? p k = none ∧ lim.maxKeysPerPlugin ≤ (L.pluginOf p).size := by
    rw [h.value, Option.isNone_map, Option.isNone_iff_eq_none, h.length_dataOf]
  have htotal : (lim.maxTotalBytes : Int) < Memory.totalAfter s.total k v (s.value? p k) ↔
      lim.maxTotalBytes < (L.write p k v).total := by
    rw [h.totalAfter_eq]
    omega
  by_cases hrefused : (L.find? p k = none ∧ lim.maxKeysPerPlugin ≤ (L.pluginOf p).size) ∨
      lim.maxTotalBytes < (L.write p k v).total ∨ L.counter = ~~~0 ∨ true = false
  · have hset : L.set lim true p k v expected conditional = none :=
      (if_neg hconflict).trans (if_pos hrefused)
    have hmemory : ∃ err, s.setMemory lim p k v expected conditional = (.error err, s) := by
      unfold Memory.setMemory
      simp only [if_neg hnot]
      split
      · exact ⟨_, rfl⟩
      next hfull =>
      split
      · exact ⟨_, rfl⟩
      next hover =>
      split
      · exact ⟨_, rfl⟩
      next hcounter =>
      rcases hrefused with hr | hr | hr | hr
      · exact absurd (hkeys.mpr hr) hfull
      · exact absurd (htotal.mpr hr) hover
      · exact absurd (h.counter.trans hr) hcounter
      · cases hr
    obtain ⟨err, hmemory⟩ := hmemory
    rw [hset, hmemory]
    exact ⟨rfl, h⟩
  · have hset : L.set lim true p k v expected conditional =
        some ((true, L.counter + 1), L.write p k v) := (if_neg hconflict).trans (if_neg hrefused)
    rw [not_or, not_or, not_or] at hrefused
    obtain ⟨hfull, hover, hcounter, -⟩ := hrefused
    rw [hset]
    unfold Memory.setMemory
    simp only [if_neg hnot]
    rw [if_neg (mt hkeys.mp hfull), if_neg (mt htotal.mp hover),
      if_neg (by rw [h.counter]; exact hcounter)]
    refine ⟨?_, h.write p k v⟩
    rw [h.counter]
    rfl

lemma delete_follows (p k : Bytes) : Follows (s.delete p k) (L.delete? true p k) := by
  unfold Memory.delete delete?
  by_cases hp : p = [] ∨ k = []
  · rw [if_pos hp, if_pos hp]
    exact ⟨rfl, h⟩
  rw [if_neg hp, if_neg hp, delete, h.value]
  cases hfind : L.find? p k with
  | none => exact ⟨rfl, h⟩
  | some r => exact ⟨rfl, h.remove hfind⟩

lemma compareAndDelete_follows (p k expected : Bytes) :
    Follows (s.compareAndDelete p k expected) (L.compareAndDelete? true p k expected) := by
  unfold Memory.compareAndDelete compareAndDelete?
  by_cases hexpected : expected = []
  · rw [if_pos hexpected, if_pos hexpected]
    exact ⟨rfl, h⟩
  rw [if_neg hexpected, if_neg hexpected]
  by_cases hp : p = [] ∨ k = []
  · rw [if_pos hp, if_pos hp]
    exact ⟨rfl, h⟩
  rw [if_neg hp, if_neg hp, if_pos rfl, compareAndDelete, h.version_eq, h.value]
  -- no version is the empty text, so a key that is not there matches nothing
  cases hfind : L.find? p k with
  | none =>
    have hversion : L.versionOf p k = none := by
      rw [versionOf, hfind]
      rfl
    rw [hversion, Option.getD_none, if_pos (Ne.symm hexpected)]
    exact ⟨rfl, h⟩
  | some r =>
  have hversion : L.versionOf p k = some (formatUint r.version) := by
    rw [versionOf, hfind]
    rfl
  rw [hversion, Option.getD_some]
  by_cases hmatch : formatUint r.version = expected
  · rw [if_neg (not_not.mpr hmatch), if_pos (congrArg some hmatch)]
    exact ⟨rfl, h.remove hfind⟩
  have hne : formatUint r.version ≠ expected := hmatch
  rw [if_pos hne, if_neg (by simpa using hmatch)]
  exact ⟨rfl, h⟩

lemma scanMemory_entries (p keyPrefix last : Bytes) : ((((s.dataOf p).keys.filter fun key =>
      keyPrefix.isPrefixOf key && last < key).insertionSort (· ≤ ·)).map fun key =>
        ({ key, value := (s.value? p key).getD [], version := s.version p key } :
          PageEntry)) = L.after p keyPrefix last := by
  have hsorted : ((s.dataOf p).keys.filter fun key =>
      keyPrefix.isPrefixOf key && last < key).insertionSort (· ≤ ·) =
        (L.pluginOf p).keys.filter fun key => keyPrefix.isPrefixOf key && last < key :=
    insertionSort_eq (h.perm_keys.filter _) ((L.pluginOf p).keys_sorted.filter _)
  rw [hsorted, OrdMap.keys, filter_map, map_map]
  refine map_congr_left fun e he => ?_
  have hfind : L.find? p e.1 = some e.2 := OrdMap.mem_entries_iff.mp (mem_of_mem_filter he)
  show PageEntry.mk e.1 ((s.value? p e.1).getD []) (s.version p e.1) = pageEntry e
  rw [h.value, h.version_eq, versionOf, hfind]
  rfl

lemma scan_follows (p keyPrefix cursor : Bytes) (limit maxBytes : Int) :
    (s.scan codec p keyPrefix cursor limit maxBytes).toOption =
      L.scan codec p keyPrefix cursor limit maxBytes := by
  unfold Memory.scan scan
  cases scanStart codec p keyPrefix cursor limit maxBytes with
  | error err => rfl
  | ok last =>
  show (s.scanMemory codec p keyPrefix last limit maxBytes).toOption =
    ((fillPage limit maxBytes [] 0 (L.after p keyPrefix last)).toOption >>= _)
  unfold Memory.scanMemory
  simp only [h.scanMemory_entries]
  cases fillPage limit maxBytes [] 0 (L.after p keyPrefix last) with
  | error err | ok page => rfl

/-- **A call in memory** does what the ledger does. -/
theorem step_follows (op : Op) :
    Follows (s.step lim codec op) (L.step lim codec (fun _ _ _ => true) true op) := by
  cases op with
  | getVersioned p k =>
    refine ⟨?_, h⟩
    show (s.getVersioned p k).toOption = ite _ _ _
    unfold Memory.getVersioned
    split
    · rfl
    · rw [h.value, h.version_eq, versionOf]
      cases L.find? p k <;> rfl
  | set p k v => exact h.set_follows p k v none false
  | compareAndSet p k v expected => exact h.set_follows p k v expected true
  | delete p k => exact h.delete_follows p k
  | compareAndDelete p k expected => exact h.compareAndDelete_follows p k expected
  | keys p =>
    refine ⟨?_, h⟩
    show some (Outcome.keys (s.keys p)) = some (Outcome.keys _)
    rw [Memory.keys, h.sortedKeys]
  | scan p keyPrefix cursor limit maxBytes =>
    exact ⟨h.scan_follows p keyPrefix cursor limit maxBytes, h⟩
  | len p =>
    refine ⟨?_, h⟩
    show some (Outcome.len (s.dataOf p).entries.length) = some (Outcome.len _)
    rw [h.length_dataOf]
  | totalBytes =>
    refine ⟨?_, h⟩
    show some (Outcome.totalBytes s.total) = some (Outcome.totalBytes _)
    rw [h.total]

end

end Mirrors

end ToranaEdge.PluginState
