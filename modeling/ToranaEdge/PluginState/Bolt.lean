import ToranaEdge.PluginState.Ledger

/-! # The database stands for a ledger

`Ledger.database` spells a ledger out in buckets.  On the database of a sound ledger
every transaction computes what the ledger's operation does: the counters in eight
bytes never wrap, because a sound total stays below the limit and an entry that is
too large to add is one `Put` refuses. -/

namespace ToranaEdge.PluginState

open Ledger Database UInt64 Record
open OrdMap (find?_insert_ne find?_insert_self ext_find map_erase)

/-! ## The database of a ledger -/

def Record.encode (r : Record) : Bytes := encodeRecord r.version r.value

namespace Ledger

/-- The metadata bucket, over whatever else is in it. -/
def metadata (rest : Bucket) (counter total : UInt64) : Bucket :=
  (rest.insert keyCounter (putUint64 counter)).insert keyTotalBytes (putUint64 total)

/-- The number of keys of a plugin, as it is stored. -/
def countBytes (m : OrdMap Bytes Record) : Bytes := putUint64 (UInt64.ofNat m.size)

/-- The ledger in buckets, over the library and the other metadata of a database. -/
def database (rest : Database) (L : Ledger) : Database where
  bolt := rest.bolt
  metadata := metadata rest.metadata L.counter (UInt64.ofNat L.total)
  plugins := L.plugins.map (OrdMap.map Record.encode)
  pluginCounts := L.plugins.map countBytes

variable {r : Record}

section metadata

variable {rest : Bucket}

lemma metadata_insert_counter (counter total counter' : UInt64) :
    (metadata rest counter total).insert keyCounter (putUint64 counter') =
      metadata rest counter' total := by
  refine ext_find fun key => ?_
  by_cases hcounter : key = keyCounter
  · subst hcounter
    rw [find?_insert_self, metadata, find?_insert_ne _ _ (by decide +kernel), find?_insert_self]
  rw [find?_insert_ne _ _ hcounter, metadata, metadata]
  by_cases htotal : key = keyTotalBytes
  · rw [htotal, find?_insert_self, find?_insert_self]
  · rw [find?_insert_ne _ _ htotal, find?_insert_ne _ _ htotal,
      find?_insert_ne _ _ hcounter, find?_insert_ne _ _ hcounter]

lemma metadata_insert_total (counter total total' : UInt64) :
    (metadata rest counter total).insert keyTotalBytes (putUint64 total') =
      metadata rest counter total' := by
  refine ext_find fun key => ?_
  by_cases htotal : key = keyTotalBytes
  · rw [htotal, find?_insert_self, metadata, find?_insert_self]
  · rw [find?_insert_ne _ _ htotal, metadata, metadata, find?_insert_ne _ _ htotal,
      find?_insert_ne _ _ htotal]

lemma find?_metadata_total (counter total : UInt64) :
    (metadata rest counter total).find? keyTotalBytes = some (putUint64 total) :=
  find?_insert_self _ _ _

lemma find?_metadata_counter (counter total : UInt64) :
    (metadata rest counter total).find? keyCounter = some (putUint64 counter) := by
  rw [metadata, find?_insert_ne _ _ (by decide +kernel), find?_insert_self]

end metadata

section read

variable (L : Ledger) {rest : Database} {lim : Limits} {p k : Bytes}

lemma plugins_find?_database (p : Bytes) :
    (L.database rest).plugins.find? p = (L.plugins.find? p).map (OrdMap.map encode) :=
  OrdMap.find?_map _ _ _

lemma pluginCounts_find?_database (p : Bytes) :
    (L.database rest).pluginCounts.find? p = (L.plugins.find? p).map countBytes :=
  OrdMap.find?_map _ _ _

lemma bucketOf_database (p : Bytes) : (L.database rest).bucketOf p = (L.pluginOf p).map encode := by
  rw [bucketOf, plugins_find?_database, pluginOf]
  cases L.plugins.find? p <;> rfl

lemma record?_database (p k : Bytes) :
    (L.database rest).record? p k = (L.find? p k).map encode := by
  have hrecord : (L.database rest).record? p k =
      ((L.database rest).plugins.find? p).bind fun m => m.find? k := rfl
  rw [hrecord, plugins_find?_database, find?, pluginOf]
  cases L.plugins.find? p with
  | none => rfl
  | some m => exact OrdMap.find?_map encode m k

/-- A record, as it is read. -/
def Pair (r : Record) : UInt64 × Bytes := (r.version, r.value)

variable {L}

lemma decodeRecord_encode (hs : Sound lim L) (h : L.find? p k = some r) :
    decodeRecord r.encode = some (Pair r) :=
  decodeRecord_encodeRecord (hs.record p k r h).2.2.1 r.value

lemma readRecord_database (hs : Sound lim L) (p k : Bytes) :
    readRecord ((L.database rest).record? p k) = .ok ((L.find? p k).map Pair) := by
  rw [record?_database]
  cases h : L.find? p k with
  | none => rfl
  | some r =>
  show readRecord (some r.encode) = _
  rw [readRecord, decodeRecord_encode hs h]
  rfl

lemma count_lt (hs : Sound lim L) {m : OrdMap Bytes Record} (h : L.plugins.find? p = some m) :
    m.size < 2 ^ 63 := Nat.lt_of_le_of_lt (hs.plugin p m h).2 lim.keys_lt

lemma total_lt (hs : Sound lim L) : L.total < 2 ^ 63 := Nat.lt_of_le_of_lt hs.total_le lim.total_lt

lemma readTotal_database (L : Ledger) :
    readUint64 ((L.database rest).metadata.find? keyTotalBytes) = ofNat L.total := by
  rw [show (L.database rest).metadata = metadata rest.metadata L.counter (ofNat L.total) from rfl,
    find?_metadata_total, readUint64_putUint64]

lemma readCounter_database (L : Ledger) :
    readUint64 ((L.database rest).metadata.find? keyCounter) = L.counter := by
  rw [show (L.database rest).metadata = metadata rest.metadata L.counter (ofNat L.total) from rfl,
    find?_metadata_counter, readUint64_putUint64]

lemma readCount_database (L : Ledger) (p : Bytes) :
    readUint64 ((L.database rest).pluginCounts.find? p) = ofNat (L.pluginOf p).size := by
  rw [pluginCounts_find?_database, pluginOf]
  cases L.plugins.find? p with
  | none => rfl
  | some m => exact readUint64_putUint64 _

end read

/-! ## Puts -/

variable (bolt : Bolt)

/-- An entry bbolt takes. -/
def Fits (k v : Bytes) : Prop := k ≠ [] ∧ k.length ≤ bolt.maxKeySize ∧ v.length ≤ bolt.maxValueSize

instance (k v : Bytes) : Decidable (Fits bolt k v) := inferInstanceAs (Decidable (_ ∧ _ ∧ _))

variable {k v : Bytes}

/-- What bbolt asks of an entry before it is written. -/
def room (L : Ledger) (p k v : Bytes) : Bool :=
  decide (Fits bolt k (encodeRecord 0 v)) &&
    ((L.find? p k).isSome || decide (Fits bolt p (putUint64 0)))

variable {bolt}

lemma fits_version (version : UInt64) :
    Fits bolt k (encodeRecord version v) ↔ Fits bolt k (encodeRecord 0 v) := Iff.rfl

lemma fits_count {p : Bytes} (count : UInt64) :
    Fits bolt p (putUint64 count) ↔ Fits bolt p (putUint64 0) := Iff.rfl

lemma fits_metadata {key : Bytes} (hne : key ≠ []) (hlen : key.length ≤ 16) (v : UInt64) :
    Fits bolt key (putUint64 v) := by
  obtain ⟨hkey, hvalue⟩ := bolt.metadata_fits
  exact ⟨hne, hlen.trans hkey, by rwa [length_putUint64]⟩

lemma fits_counter (v : UInt64) : Fits bolt keyCounter (putUint64 v) :=
  fits_metadata (by decide +kernel) (by decide +kernel) v

lemma fits_total (v : UInt64) : Fits bolt keyTotalBytes (putUint64 v) :=
  fits_metadata (by decide +kernel) (by decide +kernel) v

/-! ## Counters that do not wrap -/

section counters

variable {rest : Database} {lim : Limits} {L : Ledger} {p k v : Bytes}

lemma toNat_ofNat {n : Nat} (h : n < 2 ^ 63) : (ofNat n).toNat = n :=
  toNat_ofNat_of_lt' (h.trans (by decide))

lemma ofNat_eq_zero_iff {n : Nat} (h : n < 2 ^ 63) : ofNat n = 0 ↔ n = 0 := by
  rw [← UInt64.toNat_inj, toNat_ofNat h]
  rfl

lemma ofNat_le_iff {a b : Nat} (ha : a < 2 ^ 64) (hb : b < 2 ^ 64) : ofNat a ≤ ofNat b ↔ a ≤ b := by
  rw [le_iff_toNat_le, toNat_ofNat_of_lt' ha, toNat_ofNat_of_lt' hb]

lemma ofNat_lt_iff {a b : Nat} (ha : a < 2 ^ 64) (hb : b < 2 ^ 64) : ofNat a < ofNat b ↔ a < b := by
  rw [lt_iff_toNat_lt, toNat_ofNat_of_lt' ha, toNat_ofNat_of_lt' hb]

lemma size_lt (hs : Sound lim L) (p : Bytes) : (L.pluginOf p).size < 2 ^ 63 := by
  unfold pluginOf
  cases h : L.plugins.find? p with
  | none => exact Nat.two_pow_pos 63
  | some m => exact count_lt hs h

lemma heldSize_le (L : Ledger) (p k : Bytes) : L.heldSize p k ≤ L.total := by
  unfold heldSize
  cases h : L.find? p k with
  | none => exact Nat.zero_le _
  | some r =>
  have := L.total_remove h
  show entrySize k r.value ≤ L.total
  omega

/-- The total a write leaves, computed in 64 bits. -/
lemma total_write_ofNat (L : Ledger) (p k v : Bytes) :
    ofNat L.total - ofNat (L.heldSize p k) + ofNat (entrySize k v) =
      ofNat (L.write p k v).total := by
  have hwrite := L.total_write (p := p) (k := k) (v := v)
  have hheld := heldSize_le L p k
  have heq : (L.write p k v).total = L.total - L.heldSize p k + entrySize k v := by omega
  rw [heq, ofNat_add, ofNat_sub hheld]

/-- An entry bbolt takes is too small to wrap a sound total. -/
lemma total_write_lt (hs : Sound lim L) (h : Fits bolt k (encodeRecord 0 v)) :
    (L.write p k v).total < 2 ^ 64 := by
  have hwrite := L.total_write (p := p) (k := k) (v := v)
  have htotal := total_lt hs
  have hlen : (encodeRecord 0 v).length = 8 + v.length := by
    rw [encodeRecord, List.length_append, length_putUint64]
  have hk := h.2.1
  have hv := h.2.2
  have hsize := bolt.size_lt
  unfold entrySize at hwrite
  omega

end counters

/-! ## Transactions -/

section transactions

variable {rest : Database} {lim : Limits} {L : Ledger} {p k v : Bytes}

/-- The buckets after a write. -/
lemma database_write (L : Ledger) (p k v : Bytes) : ((L.write p k v).database rest) =
    { bolt := rest.bolt
      metadata := metadata rest.metadata (L.counter + 1) (ofNat (L.write p k v).total)
      plugins := (L.database rest).plugins.insert p
        (((L.database rest).bucketOf p).insert k (encodeRecord (L.counter + 1) v))
      pluginCounts := (L.database rest).pluginCounts.insert p
        (countBytes ((L.pluginOf p).insert k ⟨L.counter + 1, v⟩)) } := by
  have hplugins : (L.write p k v).plugins =
      L.plugins.insert p ((L.pluginOf p).insert k ⟨L.counter + 1, v⟩) := rfl
  rw [bucketOf_database]
  unfold database
  rw [hplugins, OrdMap.map_insert, OrdMap.map_insert, OrdMap.map_insert]
  rfl

lemma counts_write_of_none (h : L.find? p k = none) :
    countBytes ((L.pluginOf p).insert k ⟨L.counter + 1, v⟩) =
      putUint64 (ofNat (L.pluginOf p).size + 1) := by
  rw [countBytes, OrdMap.size_insert_of_none h, ofNat_add]
  rfl

lemma counts_write_of_some (h : L.find? p k = some r) : (L.database rest).pluginCounts.insert p
      (countBytes ((L.pluginOf p).insert k ⟨L.counter + 1, v⟩)) =
      (L.database rest).pluginCounts := by
  refine ext_find fun p' => ?_
  by_cases hp : p' = p
  · subst hp
    rw [find?_insert_self, pluginCounts_find?_database, L.plugins_find?_of_find? h,
      countBytes, OrdMap.size_insert_of_some h]
    rfl
  · rw [find?_insert_ne _ _ hp]

/-- The end of the transaction, once no check refused it. -/
lemma putTx_database (L : Ledger) (p k v : Bytes) : (do
      let bucket ← rest.bolt.put ((L.database rest).bucketOf p) k (encodeRecord (L.counter + 1) v)
      let pluginCounts ←
        if (L.find? p k).isNone then
          rest.bolt.put (L.database rest).pluginCounts p (putUint64 (ofNat (L.pluginOf p).size + 1))
        else .ok (L.database rest).pluginCounts
      let metadata ← rest.bolt.put (L.database rest).metadata keyCounter
        (putUint64 (L.counter + 1))
      let metadata ← rest.bolt.put metadata keyTotalBytes
        (putUint64 (ofNat (L.write p k v).total))
      return ((true, L.counter + 1),
        { bolt := rest.bolt, metadata, plugins := (L.database rest).plugins.insert p bucket
          pluginCounts : Database }) : Except String _).toOption =
    if room rest.bolt L p k v then some ((true, L.counter + 1), ((L.write p k v).database rest))
    else none := by
  have hmetadata : (L.database rest).metadata =
      metadata rest.metadata L.counter (ofNat L.total) := rfl
  by_cases hentry : Fits rest.bolt k (encodeRecord 0 v)
  case neg =>
    obtain ⟨err, herr⟩ := rest.bolt.put_of_not_fits (mt (fits_version (L.counter + 1)).mp hentry)
      ((L.database rest).bucketOf p)
    rw [herr, if_neg (by simp [room, hentry])]
    rfl
  rw [rest.bolt.put_of_fits ((fits_version (L.counter + 1)).mpr hentry),
    rest.bolt.put_of_fits (fits_counter _),
    hmetadata, metadata_insert_counter]
  rw [database_write, ← metadata_insert_total (L.counter + 1) (ofNat L.total)
    (ofNat (L.write p k v).total)]
  have htotal := @rest.bolt.put_of_fits (metadata rest.metadata (L.counter + 1) (ofNat L.total)) _ _
    (fits_total (ofNat (L.write p k v).total))
  cases hfind : L.find? p k with
  | some r =>
    rw [if_pos (by simp [room, hentry, hfind]), counts_write_of_some hfind]
    show Except.toOption (rest.bolt.put (metadata rest.metadata _ _) _ _ >>= _) = _
    rw [htotal]
    rfl
  | none =>
  by_cases hplugin : Fits rest.bolt p (putUint64 0)
  · rw [if_pos (by simp [room, hentry, hplugin]), counts_write_of_none hfind]
    rw [rest.bolt.put_of_fits ((fits_count _).mpr hplugin)]
    show Except.toOption (rest.bolt.put (metadata rest.metadata _ _) _ _ >>= _) = _
    rw [htotal]
    rfl
  obtain ⟨err, herr⟩ := rest.bolt.put_of_not_fits
    (mt (fits_count (ofNat (L.pluginOf p).size + 1)).mp hplugin) (L.database rest).pluginCounts
  rw [if_neg (by simp [room, hfind, hplugin])]
  rw [herr]
  rfl

/-- The bucket of a plugin and its count are there together. -/
lemma counted (L : Ledger) (p : Bytes) : ¬ (((L.database rest).plugins.find? p).isSome ∧
      ((L.database rest).pluginCounts.find? p).isNone) := by
  rw [plugins_find?_database, pluginCounts_find?_database]
  cases L.plugins.find? p <;> simp

/-- **The transaction of a write** computes what the ledger's write does. -/
theorem setTx_database (hs : Sound lim L) (p k v : Bytes) (expected : Option Bytes)
    (conditional : Bool) : (setTx lim p k v expected conditional (L.database rest)).toOption =
      (L.set lim (room rest.bolt L p k v) p k v expected conditional).map fun r =>
        (r.1, (r.2.database rest)) := by
  unfold setTx set
  rw [readRecord_database hs, readTotal_database, readCounter_database, readCount_database]
  have hversion : (((L.find? p k).map Pair).map fun r => formatUint r.1) = L.versionOf p k := by
    rw [Option.map_map]
    rfl
  have htotal : totalAfter (ofNat L.total) k v
      (((L.find? p k).map Pair).map Prod.snd) = ofNat (L.write p k v).total := by
    rw [← total_write_ofNat]
    unfold heldSize totalAfter
    cases L.find? p k with
    | none => simp
    | some r => rfl
  have hnone : ((L.find? p k).map Pair).isNone = (L.find? p k).isNone := by
    cases L.find? p k <;> rfl
  show Except.toOption (if conflicts conditional expected _ = true then _ else
    if _ ∧ _ then _ else if _ ∧ _ then _ else if _ then _ else if _ then _ else _) = _
  rw [hversion, hnone]
  -- the checks come in the order of the source; the ledger refuses on any of them
  by_cases hconflict : conflicts conditional expected (L.versionOf p k) = true
  · rw [if_pos hconflict, if_pos hconflict]
    rfl
  rw [if_neg hconflict, if_neg hconflict, if_neg (counted L p)]
  have hkeys : ((L.find? p k).isNone = true ∧
      ofNat lim.maxKeysPerPlugin ≤ ofNat (L.pluginOf p).size) ↔
        L.find? p k = none ∧ lim.maxKeysPerPlugin ≤ (L.pluginOf p).size := by
    have hlim := lim.keys_lt
    have hsize := size_lt hs p
    rw [Option.isNone_iff_eq_none, ofNat_le_iff (by omega) (by omega)]
  by_cases hfull : L.find? p k = none ∧ lim.maxKeysPerPlugin ≤ (L.pluginOf p).size
  · rw [if_pos (hkeys.mpr hfull), if_pos (.inl hfull)]
    rfl
  rw [if_neg (mt hkeys.mp hfull)]
  have htail := @putTx_database rest L p k v
  rw [htotal]
  by_cases hroom : room rest.bolt L p k v = true
  case neg =>
    -- whatever the checks on the total say of it, an entry bbolt refuses is not written
    have hfalse : room rest.bolt L p k v = false := by simpa using hroom
    rw [if_neg hroom] at htail
    simp only [hfalse, or_true]
    split
    · rfl
    split
    · rfl
    · exact htail
  have hentry : Fits rest.bolt k (encodeRecord 0 v) := by
    unfold room at hroom
    rw [Bool.and_eq_true, decide_eq_true_eq] at hroom
    exact hroom.1
  have hlimit : ofNat lim.maxTotalBytes < ofNat (L.write p k v).total ↔
      lim.maxTotalBytes < (L.write p k v).total := by
    have hlim := lim.total_lt
    exact ofNat_lt_iff (by omega) (total_write_lt hs hentry)
  by_cases hover : lim.maxTotalBytes < (L.write p k v).total
  · rw [if_pos (hlimit.mpr hover), if_pos (.inr (.inl hover))]
    rfl
  rw [if_neg (mt hlimit.mp hover)]
  by_cases hcounter : L.counter = ~~~0
  · rw [if_pos hcounter, if_pos (.inr (.inr (.inl hcounter)))]
    rfl
  have haccepted : ¬ ((L.find? p k = none ∧ lim.maxKeysPerPlugin ≤ (L.pluginOf p).size) ∨
      lim.maxTotalBytes < (L.write p k v).total ∨ L.counter = ~~~0 ∨
        room rest.bolt L p k v = false) := by
    simp only [hfull, hover, hcounter, hroom, Bool.true_eq_false, or_self, not_false_eq_true]
  rw [if_neg hcounter, if_neg haccepted]
  rw [if_pos hroom] at htail
  exact htail

/-- The names of the plugins are keys bbolt takes. -/
def Named (bolt : Bolt) (L : Ledger) : Prop :=
  ∀ p m, L.plugins.find? p = some m → Fits bolt p (putUint64 0)

lemma named_empty : Named bolt empty := by
  intro p m h
  cases h

lemma Named.moves (hnamed : Named bolt L) {L' : Ledger} (h : Moves lim (room bolt L) L L') :
    Named bolt L' := by
  cases h with
  | keep => exact hnamed
  | @write p k v _ _ happlied =>
    have hroom := happlied.room
    intro p' m hm
    rcases L.plugins_write_cases hm with ⟨rfl, -⟩ | hm
    · unfold room at hroom
      rw [Bool.and_eq_true, Bool.or_eq_true, decide_eq_true_eq, decide_eq_true_eq] at hroom
      rcases hroom.2 with hsome | hfits
      · obtain ⟨r, hr⟩ := Option.isSome_iff_exists.mp hsome
        exact hnamed p' _ (L.plugins_find?_of_find? hr)
      · exact hfits
    · exact hnamed p' m hm
  | @remove p k r hheld =>
    intro p' m hm
    rcases L.plugins_remove_cases hm with ⟨rfl, -⟩ | hm
    · exact hnamed p' _ (L.plugins_find?_of_find? hheld)
    · exact hnamed p' m hm

/-- The buckets after a removal. -/
lemma removeTx_database (hs : Sound lim L) (hnamed : Named rest.bolt L) (h : L.find? p k = some r) :
    removeTx p k r.value ((L.database rest).bucketOf p) (L.database rest) =
      .ok ((L.remove p k).database rest) := by
  have hplugin := L.plugins_find?_of_find? h
  have htotal : ofNat L.total - ofNat (entrySize k r.value) =
      ofNat (L.remove p k).total := by
    have hremove := L.total_remove h
    rw [← ofNat_sub (by omega), ← hremove, Nat.add_sub_cancel]
  have hcount : (L.database rest).pluginCounts.find? p = some (countBytes (L.pluginOf p)) := by
    rw [pluginCounts_find?_database, hplugin]
    rfl
  have hsize := OrdMap.size_erase_of_some h
  have hsizelt := size_lt hs p
  have hread : readUint64 (some (countBytes (L.pluginOf p))) - 1 =
      ofNat ((L.pluginOf p).erase k).size := by
    rw [countBytes, readUint64_putUint64, ← hsize, ofNat_add]
    exact UInt64.add_sub_cancel _ _
  have hmetadata : (L.database rest).metadata =
      metadata rest.metadata L.counter (ofNat L.total) := rfl
  have hpos : readUint64 (some (countBytes (L.pluginOf p))) ≠ 0 := by
    rw [countBytes, readUint64_putUint64, Ne, ofNat_eq_zero_iff hsizelt]
    omega
  unfold removeTx
  rw [readTotal_database, htotal, hcount, hmetadata]
  have hput := @rest.bolt.put_of_fits (metadata rest.metadata L.counter (ofNat L.total)) _ _
    (fits_total (ofNat (L.remove p k).total))
  rw [metadata_insert_total] at hput
  show (rest.bolt.put _ _ _ >>= _) = _
  rw [hput]
  show (if _ then _ else if _ then _ else _) = _
  have hcounted : ¬ ((Option.map List.length (some (countBytes (L.pluginOf p)))).getD 0 ≠ 8 ∨
      readUint64 (some (countBytes (L.pluginOf p))) = 0) := by
    rintro (hlen | hzero)
    · exact hlen rfl
    · exact hpos hzero
  rw [if_neg hcounted, hread]
  have hzero := @ofNat_eq_zero_iff ((L.pluginOf p).erase k).size (by omega)
  by_cases hlast : ((L.pluginOf p).erase k).size = 0
  · have hplugins : (L.remove p k).plugins = L.plugins.erase p := if_pos hlast
    rw [if_pos (hzero.mpr hlast)]
    unfold database
    rw [hplugins, map_erase, map_erase]
    rfl
  · have hplugins : (L.remove p k).plugins = L.plugins.insert p ((L.pluginOf p).erase k) :=
      if_neg hlast
    rw [if_neg (mt hzero.mp hlast), bucketOf_database, ← map_erase]
    show (rest.bolt.put _ _ _ >>= _) = _
    rw [rest.bolt.put_of_fits ((fits_count _).mpr (hnamed p _ hplugin))]
    unfold database
    rw [hplugins, OrdMap.map_insert, OrdMap.map_insert]
    rfl

lemma plugins_find?_bucketOf (h : L.find? p k = some r) :
    (L.database rest).plugins.find? p = some ((L.database rest).bucketOf p) := by
  rw [plugins_find?_database, bucketOf_database, L.plugins_find?_of_find? h]
  rfl

lemma find?_bucketOf (L : Ledger) (p k : Bytes) :
    ((L.database rest).bucketOf p).find? k = (L.find? p k).map encode := by
  rw [bucketOf_database, OrdMap.find?_map]
  rfl

lemma find?_bucket {bucket : Bucket} (h : (L.database rest).plugins.find? p = some bucket)
    (k : Bytes) : bucket.find? k = (L.find? p k).map encode := by
  rw [← @find?_bucketOf rest, bucketOf, h]
  rfl

/-- **The transaction of a deletion.** -/
theorem deleteTx_database (hs : Sound lim L) (hnamed : Named rest.bolt L) (p k : Bytes) :
    deleteTx p k (L.database rest) = .ok ((), ((L.delete p k).database rest)) := by
  have hrecord := @readRecord_database L rest lim hs p k
  unfold deleteTx delete
  cases hfind : L.find? p k with
  | none =>
    cases hplugin : (L.database rest).plugins.find? p with
    | none => rfl
    | some bucket =>
    have hread : readRecord (bucket.find? k) = .ok none := by
      rw [find?_bucket hplugin, hfind]
      rfl
    show (readRecord (bucket.find? k) >>= _) = _
    rw [hread]
    rfl
  | some r =>
  rw [plugins_find?_bucketOf hfind]
  rw [record?_database, ← find?_bucketOf, hfind] at hrecord
  show (readRecord (((L.database rest).bucketOf p).find? k) >>= _) = _
  rw [hrecord]
  show (removeTx p k r.value ((L.database rest).bucketOf p) (L.database rest) >>= _) = _
  rw [removeTx_database hs hnamed hfind]
  rfl

/-- **The transaction of a conditional deletion.** -/
theorem compareAndDeleteTx_database (hs : Sound lim L) (hnamed : Named rest.bolt L)
    (p k expected : Bytes) :
    compareAndDeleteTx p k expected (L.database rest) = .ok ((L.compareAndDelete p k expected).1,
        (L.compareAndDelete p k expected).2.database rest) := by
  unfold compareAndDeleteTx compareAndDelete versionOf
  cases hfind : L.find? p k with
  | none =>
    cases hplugin : (L.database rest).plugins.find? p with
    | none => rfl
    | some bucket =>
    have hread : (bucket.find? k).bind decodeRecord = none := by
      rw [find?_bucket hplugin, hfind]
      rfl
    simp only [hread]
    rfl
  | some r =>
  have hread : (((L.database rest).bucketOf p).find? k).bind decodeRecord = some (Pair r) := by
    rw [find?_bucketOf, hfind]
    exact decodeRecord_encode hs hfind
  rw [plugins_find?_bucketOf hfind]
  simp only [hread]
  have hcond : Option.map (fun r => formatUint r.version) (some r) = some expected ↔
      formatUint r.version = expected := by simp
  show (if formatUint r.version ≠ expected then _ else _) = _
  by_cases hversion : formatUint r.version = expected
  · rw [if_neg (not_not.mpr hversion)]
    simp only [if_pos (hcond.mpr hversion)]
    show (removeTx p k r.value ((L.database rest).bucketOf p) (L.database rest) >>= _) = _
    rw [removeTx_database hs hnamed hfind]
    rfl
  rw [if_pos hversion]
  simp only [if_neg (mt hcond.mp hversion)]
  rfl

end transactions

end Ledger

end ToranaEdge.PluginState
