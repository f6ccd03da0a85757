import Mathlib.Algebra.BigOperators.Group.Finset.Basic
import ToranaEdge.PluginState.History

/-! # The accounts of a store

The total and the counts a store keeps are those of what it holds, after every
call, so a database it leaves behind is one it opens again. -/

namespace ToranaEdge.PluginState

open Ledger List

variable {lim : Limits} {codec : CursorCodec} {calls : List Call} {L : Ledger}

/-- Whatever the moves of a ledger preserve holds at the end of a run. -/
lemma Run.holds {P : Ledger → Prop} (hmoves : ∀ room L L', P L → Moves lim room L L' → P L')
    {start st : Store} (h₀ : Holds lim L start) (hp : P L) (h : Run lim codec start calls st) :
    ∃ L', Holds lim L' st ∧ P L' := by
  induction h with
  | nil => exact ⟨L, h₀, hp⟩
  | snoc hrun commits op ih =>
  obtain ⟨L', hholds, hp'⟩ := ih
  obtain ⟨room, c, hholds', -⟩ := hholds.step codec commits op
  exact ⟨_, hholds', hmoves room L' _ hp' (step_moves ..)⟩

lemma Run.held {start st : Store} (h₀ : Holds lim L start) (h : Run lim codec start calls st) :
    ∃ L', Holds lim L' st := by
  obtain ⟨L', hholds, -⟩ := @Run.holds _ _ _ _ (fun _ => True) (fun _ _ _ _ _ => trivial) _ _ h₀
    trivial h
  exact ⟨L', hholds⟩

/-! ## Sums -/

/-- The key and value lengths of all records; a value follows eight bytes of version. -/
def Database.heldBytes (db : Database) : Nat :=
  db.plugins.weight fun _ bucket => bucket.weight fun key raw => entrySize key (raw.drop 8)

lemma Ledger.heldBytes_database (L : Ledger) (rest : Database) :
    (L.database rest).heldBytes = L.total := by
  show (L.plugins.map _).weight _ = _
  rw [OrdMap.weight_map]
  congr 1
  funext _ m
  rw [OrdMap.weight_map]
  rfl

/-- The key and value lengths of all entries in memory. -/
def Memory.heldBytes (s : Memory) : Nat :=
  (s.data.entries.map fun e => (e.2.entries.map fun x => entrySize x.1 x.2).sum).sum

lemma sum_entries {β : Type} (m : GoMap β) (f : Bytes → β → Nat) (d : β) :
    (m.entries.map fun e => f e.1 e.2).sum =
      (m.keys.map fun k => f k ((m.lookup k).getD d)).sum := by
  rw [AList.keys, keys, map_map]
  congr 1
  refine map_congr_left fun e he => ?_
  have hlookup : m.lookup e.1 = some e.2 := AList.mem_lookup_iff.mpr he
  show f e.1 e.2 = f e.1 ((m.lookup e.1).getD d)
  rw [hlookup]
  rfl

lemma Mirrors.sum_dataOf {s : Memory} (h : Mirrors s L) (p : Bytes) :
    ((s.dataOf p).entries.map fun x => entrySize x.1 x.2).sum = bytes (L.pluginOf p) := by
  rw [sum_entries _ _ [], (h.perm_keys.map _).sum_eq, OrdMap.keys, map_map]
  congr 1
  refine map_congr_left fun e he => ?_
  have hfind : L.find? p e.1 = some e.2 := OrdMap.mem_entries_iff.mp he
  have hvalue := h.value p e.1
  rw [hfind] at hvalue
  show entrySize e.1 ((s.value? p e.1).getD []) = _
  rw [hvalue]
  rfl

/-- Both maps are summed over their plugins; one that is missing adds nothing. -/
lemma Mirrors.heldBytes_eq {s : Memory} (h : Mirrors s L) : s.heldBytes = L.total := by
  have hmemory : s.heldBytes = ∑ p ∈ s.data.keys.toFinset, bytes (L.pluginOf p) := by
    rw [sum_toFinset _ s.data.keys_nodup]
    show (s.data.entries.map _).sum = _
    rw [sum_entries s.data (fun _ m => (m.entries.map fun x => entrySize x.1 x.2).sum) ∅]
    exact congrArg sum (map_congr_left fun p _ => h.sum_dataOf p)
  have hledger : L.total = ∑ p ∈ L.plugins.keys.toFinset, bytes (L.pluginOf p) := by
    rw [sum_toFinset _ (L.plugins.keys_sorted.imp ne_of_lt), Ledger.total, OrdMap.weight,
      OrdMap.keys, map_map]
    congr 1
    refine map_congr_left fun e he => ?_
    show bytes e.2 = bytes ((L.plugins.find? e.1).getD ∅)
    rw [OrdMap.mem_entries_iff.mp he]
    rfl
  have hmissing : ∀ p, p ∉ s.data.keys → bytes (L.pluginOf p) = 0 := by
    intro p hp
    rw [← h.sum_dataOf, Memory.dataOf, AList.lookup_eq_none.mpr hp]
    rfl
  have hmissing' : ∀ p, p ∉ L.plugins.keys → bytes (L.pluginOf p) = 0 := by
    intro p hp
    rw [OrdMap.mem_keys_iff, Bool.not_eq_true, Option.isSome_eq_false_iff,
      Option.isNone_iff_eq_none] at hp
    rw [pluginOf, hp]
    rfl
  rw [hmemory, hledger]
  calc ∑ p ∈ s.data.keys.toFinset, bytes (L.pluginOf p)
      = ∑ p ∈ s.data.keys.toFinset ∪ L.plugins.keys.toFinset, bytes (L.pluginOf p) := by
        refine Finset.sum_subset Finset.subset_union_left fun p _ hp => hmissing p ?_
        simpa using hp
    _ = ∑ p ∈ L.plugins.keys.toFinset, bytes (L.pluginOf p) := by
        refine (Finset.sum_subset Finset.subset_union_right fun p _ hp => hmissing' p ?_).symm
        simpa using hp

/-! ## Reopening -/

/-- **Reachable databases always reopen.**  After any run of a store on a new file, the
stored total is the sum over all records and within the limit; a plugin's stored
count is the number of its keys and within the limit, and its bucket is there
exactly when that is positive; every version was drawn; and opening the database
again accepts it as it is.  The totals in memory are the sums, too. -/
theorem reachable_database_reopens {bolt : Bolt} {db₀ db : Database}
    (hopened : Database.initializeStore lim (Database.fresh bolt) = .ok db₀)
    (hrun : Run lim codec (.bolt db₀) calls (.bolt db)) :
    ((readUint64 (db.metadata.find? keyTotalBytes)).toNat = db.heldBytes ∧
        db.heldBytes ≤ lim.maxTotalBytes) ∧
      (∀ p, (readUint64 (db.pluginCounts.find? p)).toNat = (db.bucketOf p).size ∧
        (db.bucketOf p).size ≤ lim.maxKeysPerPlugin ∧
        ((db.plugins.find? p).isSome ↔ 0 < (readUint64 (db.pluginCounts.find? p)).toNat)) ∧
      (∀ p k raw, db.record? p k = some raw → ∃ version value,
        decodeRecord raw = some (version, value) ∧ version ≠ 0 ∧
          version ≤ readUint64 (db.metadata.find? keyCounter)) ∧
      Database.validateDatabase lim db = .ok () ∧ Database.initializeStore lim db = .ok db ∧
      ∀ calls s, Run lim codec (.memory .empty) calls (.memory s) →
        s.total = s.heldBytes ∧ s.heldBytes ≤ lim.maxTotalBytes ∧
          ∀ p, (s.dataOf p).entries.length ≤ lim.maxKeysPerPlugin := by
  have hlimit : ∀ {L : Ledger}, Sound lim L → ∀ p, (L.pluginOf p).size ≤ lim.maxKeysPerPlugin := by
    intro L hs p
    unfold pluginOf
    cases h : L.plugins.find? p with
    | none => exact Nat.zero_le _
    | some m => exact (hs.plugin p m h).2
  rw [initializeStore_fresh] at hopened
  cases hopened
  obtain ⟨L, hholds, hpopulated⟩ := hrun.holds (fun _ _ _ h hm => h.moves hm)
    (.bolt (sound_empty lim) named_empty) populated_empty
  cases hholds with | @bolt rest hs hn =>
  have hcount : ∀ p, (readUint64 ((L.database rest).pluginCounts.find? p)).toNat =
      (L.pluginOf p).size := by
    intro p
    rw [readCount_database, toNat_ofNat (size_lt hs p)]
  refine ⟨⟨?_, ?_⟩, fun p => ⟨?_, ?_, ?_⟩, ?_, validateDatabase_database hs,
    initializeStore_database hs, ?_⟩
  · rw [readTotal_database, heldBytes_database, toNat_ofNat (total_lt hs)]
  · rw [heldBytes_database]
    exact hs.total_le
  · rw [hcount, bucketOf_database, OrdMap.size_map]
  · rw [bucketOf_database, OrdMap.size_map]
    exact hlimit hs p
  · rw [hcount, plugins_find?_database, pluginOf]
    cases h : L.plugins.find? p with
    | none => exact iff_of_false (by simp) (Nat.lt_irrefl 0)
    | some m => simpa using hpopulated p m h
  · intro p k raw hraw
    rw [record?_database] at hraw
    obtain ⟨r, hr, rfl⟩ := Option.map_eq_some_iff.mp hraw
    obtain ⟨-, -, hzero, hle⟩ := hs.record p k r hr
    exact ⟨r.version, r.value, decodeRecord_encode hs hr, hzero,
      by rw [readCounter_database]; exact hle⟩
  · intro calls s hrun
    obtain ⟨L, hholds⟩ := hrun.held (.memory mirrors_empty (sound_empty lim))
    cases hholds with | memory hm hs =>
    rw [hm.total, hm.heldBytes_eq]
    exact ⟨rfl, hs.total_le, fun p => by rw [hm.length_dataOf]; exact hlimit hs p⟩

/-- A key is written, overwritten and deleted; another one stays. -/
theorem reachable_database_reopens_overwritten :
    let step := fun (db : Database) op => (db.step (.new ⟨0, 0, 0⟩) plainCodec true op).2
    let db := [.set (utf8 "p") (utf8 "k") (utf8 "a"), .set (utf8 "p") (utf8 "k") (utf8 "bc"),
      .set (utf8 "p") (utf8 "l") (utf8 "d"), .delete (utf8 "p") (utf8 "k")].foldl step
        (empty.database (.fresh documentedBolt))
    db.record? (utf8 "p") (utf8 "k") = none ∧
      db.record? (utf8 "p") (utf8 "l") = some (encodeRecord 3 (utf8 "d")) ∧
      db.heldBytes = 2 ∧ Database.initializeStore (.new ⟨0, 0, 0⟩) db = .ok db :=
  ⟨by decide +kernel, by decide +kernel, by decide +kernel,
    (reachable_database_reopens (initializeStore_fresh (.new ⟨0, 0, 0⟩) documentedBolt)
      (.snoc (.snoc (.snoc (.snoc .nil true _) true _) true _) true _)).2.2.2.2.1⟩

end ToranaEdge.PluginState
