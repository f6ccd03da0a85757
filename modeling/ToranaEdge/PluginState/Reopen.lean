import ToranaEdge.PluginState.Bolt

/-! # Opening a database

`validateDatabase` adds up what the buckets hold and compares the sums with the
metadata.  It accepts the database of every sound ledger, and a database it accepts
is the database of a sound ledger. -/

namespace ToranaEdge.PluginState

open Ledger Database Attempt List Option
open OrdMap (mem_entries_iff size_map le_weight map_map_eq_self insert_of_find?)

/-! ## Records read back -/

variable {raw : Bytes}

lemma putUint64_bigEndian (h : raw.length = 8) : putUint64 (bigEndian raw) = raw := by
  match raw, h with
  | [a, b, c, d, e, f, g, i], _ =>
    have ha := a.toNat_lt
    have hb := b.toNat_lt
    have hc := c.toNat_lt
    have hd := d.toNat_lt
    have he := e.toNat_lt
    have hf := f.toNat_lt
    have hg := g.toNat_lt
    have hi := i.toNat_lt
    unfold putUint64 bigEndian
    simp only [foldl_cons, foldl_nil, cons.injEq, and_true]
    refine ⟨?_, ?_, ?_, ?_, ?_, ?_, ?_, ?_⟩ <;>
    · apply UInt8.toNat_inj.mp
      simp only [UInt64.toNat_toUInt8, UInt64.toNat_shiftRight, UInt64.toNat_ofNat',
        UInt64.toNat_ofNat, Nat.reduceMod, Nat.reducePow]
      omega

lemma putUint64_readUint64 (h : raw.length = 8) : putUint64 (readUint64 (some raw)) = raw := by
  rw [readUint64, if_neg (not_not.mpr h), putUint64_bigEndian h]

lemma eq_encodeRecord {text : Bytes} {version : UInt64}
    (h : decodeRecord raw = some (version, text)) :
    version ≠ 0 ∧ raw = encodeRecord version text := by
  unfold decodeRecord at h
  split at h
  · cases h
  next hlen =>
  have htake : (raw.take 8).length = 8 := by
    rw [length_take]
    omega
  rcases ite_eq_iff.mp h with ⟨-, h⟩ | ⟨hzero, h⟩
  · cases h
  cases h
  refine ⟨hzero, ?_⟩
  rw [encodeRecord, putUint64_bigEndian htake, take_append_drop]

/-- A record as it is read back; one that cannot be read has no version. -/
def Record.read (raw : Bytes) : Record :=
  match decodeRecord raw with
  | some (version, value) => ⟨version, value⟩
  | none => ⟨0, []⟩

lemma Record.encode_read (h : (decodeRecord raw).isSome) :
    (Record.read raw).encode = raw ∧ (Record.read raw).version ≠ 0 := by
  obtain ⟨r, hr⟩ := isSome_iff_exists.mp h
  obtain ⟨hzero, hraw⟩ := eq_encodeRecord hr
  have hread : Record.read raw = ⟨r.1, r.2⟩ := by rw [Record.read, hr]
  rw [hread]
  exact ⟨hraw.symm, hzero⟩

/-! ## The tally of a bucket -/

abbrev Entry (β : Type) : Type := Sigma fun _ : Bytes => β

/-- One record more. -/
def Database.Tally.add (t : Tally) (e : Entry Record) : Tally where
  total := t.total + UInt64.ofNat (entrySize e.1 e.2.value)
  highestVersion := if t.highestVersion < e.2.version then e.2.version else t.highestVersion
  actualCount := t.actualCount + 1

/-- The key and value lengths of some records. -/
def weigh (es : List (Entry Record)) : Nat :=
  (es.map fun e => entrySize e.1 e.2.value).sum

/-- An entry `validateDatabase` has nothing against. -/
def Valid (lim : Limits) (e : Entry Record) : Prop :=
  e.1 ≠ [] ∧ e.2.value.length ≤ lim.maxValueBytes

section tally

variable {lim : Limits} {declared : UInt64} {t t' : Tally} {es : List (Entry Record)}

variable {e : Entry Record} {bound : UInt64}

lemma tallyRecord_eq_ok (hversion : e.2.version ≠ 0) (hsize : entrySize e.1 e.2.value < 2 ^ 64)
    (hdeclared : declared.toNat < 2 ^ 63) (hactual : t.actualCount.toNat ≤ declared.toNat) :
    tallyRecord lim declared t e.1 e.2.encode = .ok t' ↔
      Valid lim e ∧ t.total.toNat + entrySize e.1 e.2.value < 2 ^ 64 ∧
        t.actualCount.toNat + 1 ≤ declared.toNat ∧ t' = t.add e := by
  have hdecode : decodeRecord e.2.encode = some (e.2.version, e.2.value) :=
    decodeRecord_encodeRecord hversion e.2.value
  have htotal := t.total.toNat_lt
  have hroom : ~~~0 - t.total < UInt64.ofNat (entrySize e.1 e.2.value) ↔
      2 ^ 64 ≤ t.total.toNat + entrySize e.1 e.2.value := by
    have hle : t.total ≤ ~~~0 := by
      show t.total.toNat ≤ 18446744073709551615
      omega
    rw [UInt64.lt_iff_toNat_lt, UInt64.toNat_sub_of_le _ _ hle, UInt64.toNat_ofNat_of_lt' hsize]
    show 18446744073709551615 - t.total.toNat < _ ↔ _
    omega
  have hcount : declared < t.actualCount + 1 ↔ ¬ t.actualCount.toNat + 1 ≤ declared.toNat := by
    show declared.toNat < (t.actualCount.toNat + 1) % 2 ^ 64 ↔ _
    omega
  unfold tallyRecord
  rw [hdecode, guard_eq_ok]
  rw [guard_eq_ok, guard_eq_ok, guard_eq_ok, hroom, hcount]
  constructor
  · rintro ⟨hkey, hvalue, hover, hfull, h⟩
    cases h
    exact ⟨⟨hkey, by omega⟩, by omega, not_not.mp hfull, rfl⟩
  · rintro ⟨⟨hkey, hvalue⟩, hfits, hfull, rfl⟩
    exact ⟨hkey, by omega, by omega, not_not.mpr hfull, rfl⟩

lemma weigh_cons : weigh (e :: es) = entrySize e.1 e.2.value + weigh es := by
  simp [weigh]

lemma toNat_total_add (h : t.total.toNat + entrySize e.1 e.2.value < 2 ^ 64) :
    (t.add e).total.toNat = t.total.toNat + entrySize e.1 e.2.value := by
  show (t.total + UInt64.ofNat (entrySize e.1 e.2.value)).toNat = _
  rw [UInt64.toNat_add, UInt64.toNat_ofNat_of_lt' (show entrySize e.1 e.2.value < 2 ^ 64 by omega)]
  omega

lemma toNat_count_add (h : t.actualCount.toNat + 1 < 2 ^ 64) :
    (t.add e).actualCount.toNat = t.actualCount.toNat + 1 := by
  show (t.actualCount.toNat + 1) % 2 ^ 64 = _
  omega

/-- **The tally of a bucket** goes through when every entry is valid, the sum fits and
no more keys come than are declared. -/
theorem tallyRecords_eq_ok (hversion : ∀ e ∈ es, e.2.version ≠ 0)
    (hsize : ∀ e ∈ es, entrySize e.1 e.2.value < 2 ^ 64) (hdeclared : declared.toNat < 2 ^ 63)
    (hactual : t.actualCount.toNat ≤ declared.toNat) :
    (es.map fun e => (⟨e.1, e.2.encode⟩ : Entry Bytes)).foldlM
        (fun t e => tallyRecord lim declared t e.1 e.2) t = .ok t' ↔
      (∀ e ∈ es, Valid lim e) ∧ t.total.toNat + weigh es < 2 ^ 64 ∧
        t.actualCount.toNat + es.length ≤ declared.toNat ∧ t' = es.foldl Tally.add t := by
  induction es generalizing t with
  | nil =>
    have htotal := t.total.toNat_lt
    constructor
    · intro h
      cases h
      exact ⟨by simp, by simpa [weigh] using htotal, by simpa using hactual, rfl⟩
    · rintro ⟨-, -, -, rfl⟩
      rfl
  | cons e es ih =>
  obtain ⟨hversion, hversions⟩ := forall_mem_cons.mp hversion
  obtain ⟨hsize, hsizes⟩ := forall_mem_cons.mp hsize
  have hweigh := @weigh_cons es e
  rw [map_cons, foldlM_cons, bind_eq_ok, forall_mem_cons, length_cons]
  constructor
  · rintro ⟨t₁, hhead, hrest⟩
    obtain ⟨hvalid, hfits, hcount, rfl⟩ :=
      (tallyRecord_eq_ok hversion hsize hdeclared hactual).mp hhead
    have htotal := toNat_total_add hfits
    have hcounted := toNat_count_add (e := e) (t := t) (by omega)
    obtain ⟨hvalids, hsum, hcounts, rfl⟩ := (ih hversions hsizes (by omega)).mp hrest
    exact ⟨⟨hvalid, hvalids⟩, by omega, by omega, rfl⟩
  · rintro ⟨⟨hvalid, hvalids⟩, hsum, hcounts, rfl⟩
    have htotal := toNat_total_add (e := e) (t := t) (by omega)
    have hcounted := toNat_count_add (e := e) (t := t) (by omega)
    exact ⟨t.add e,
      (tallyRecord_eq_ok hversion hsize hdeclared hactual).mpr ⟨hvalid, by omega, by omega, rfl⟩,
      (ih hversions hsizes (by omega)).mpr ⟨hvalids, by omega, by omega, rfl⟩⟩

lemma toNat_total_foldl (h : t.total.toNat + weigh es < 2 ^ 64) :
    (es.foldl Tally.add t).total.toNat = t.total.toNat + weigh es := by
  induction es generalizing t with
  | nil => simp [weigh]
  | cons e es ih =>
  have hweigh := @weigh_cons es e
  have htotal := toNat_total_add (e := e) (t := t) (by omega)
  rw [foldl_cons, ih (by omega)]
  omega

lemma highest_add_le :
    (t.add e).highestVersion ≤ bound ↔ t.highestVersion ≤ bound ∧ e.2.version ≤ bound := by
  show (if t.highestVersion < e.2.version then e.2.version else t.highestVersion) ≤ bound ↔ _
  simp only [UInt64.le_iff_toNat_le, UInt64.lt_iff_toNat_lt]
  split
  · omega
  · omega

/-- The highest version of a tally, by what bounds it. -/
lemma highest_foldl_le : (es.foldl Tally.add t).highestVersion ≤ bound ↔
    t.highestVersion ≤ bound ∧ ∀ e ∈ es, e.2.version ≤ bound := by
  induction es generalizing t with
  | nil => simp
  | cons e es ih => rw [foldl_cons, ih, highest_add_le, forall_mem_cons, and_assoc]

end tally

/-! ## The tally of all buckets -/

/-- One bucket more. -/
def Database.Tally.addPlugin (t : Tally) (e : Entry (OrdMap Bytes Record)) : Tally :=
  e.2.entries.foldl Tally.add { t with actualCount := 0 }

/-- A bucket and its count `validateDatabase` has nothing against. -/
def ValidPlugin (lim : Limits) (counts : Bucket) (e : Entry (OrdMap Bytes Record)) :
    Prop :=
  e.1 ≠ [] ∧ ((counts.find? e.1).map List.length).getD 0 = 8 ∧
    (readUint64 (counts.find? e.1)).toNat ≤ lim.maxKeysPerPlugin ∧
    (∀ r ∈ e.2.entries, Valid lim r) ∧ e.2.size ≤ (readUint64 (counts.find? e.1)).toNat

/-- The records of a bucket can be read, and are no longer than Go's `int` counts. -/
def Readable (m : OrdMap Bytes Record) : Prop :=
  ∀ e ∈ m.entries, e.2.version ≠ 0 ∧ entrySize e.1 e.2.value < 2 ^ 64

/-- The key and value lengths of some buckets. -/
def weighPlugins (es : List (Entry (OrdMap Bytes Record))) : Nat :=
  (es.map fun e => bytes e.2).sum

section plugins

variable {lim : Limits} {counts : Bucket} {t t' : Tally}
  {es : List (Entry (OrdMap Bytes Record))}
  {e : Entry (OrdMap Bytes Record)}

lemma tallyPlugin_eq_ok (hread : Readable e.2) :
    tallyPlugin lim counts t e.1 (e.2.map Record.encode) = .ok t' ↔
      ValidPlugin lim counts e ∧ t.total.toNat + bytes e.2 < 2 ^ 64 ∧ t' = t.addPlugin e := by
  have hlim := lim.keys_lt
  have hlimit : UInt64.ofNat lim.maxKeysPerPlugin < readUint64 (counts.find? e.1) ↔
      ¬ (readUint64 (counts.find? e.1)).toNat ≤ lim.maxKeysPerPlugin := by
    rw [UInt64.lt_iff_toNat_lt, toNat_ofNat hlim]
    omega
  have hspec := @tallyRecords_eq_ok lim (readUint64 (counts.find? e.1)) { t with actualCount := 0 }
    t' e.2.entries (fun r hr => (hread r hr).1) (fun r hr => (hread r hr).2)
  have hzero : ({ t with actualCount := 0 } : Tally).actualCount.toNat = 0 := rfl
  have hsize : e.2.size = e.2.entries.length := rfl
  unfold tallyPlugin
  rw [guard_eq_ok]
  rw [guard_eq_ok, guard_eq_ok, hlimit, not_not, not_not]
  constructor
  · rintro ⟨hname, hlen, hkeys, h⟩
    obtain ⟨hvalid, hsum, hcount, rfl⟩ := (hspec (by omega) (Nat.zero_le _)).mp h
    exact ⟨⟨hname, hlen, hkeys, hvalid, by omega⟩, hsum, rfl⟩
  · rintro ⟨⟨hname, hlen, hkeys, hvalid, hcount⟩, hsum, rfl⟩
    exact ⟨hname, hlen, hkeys, (hspec (by omega) (Nat.zero_le _)).mpr ⟨hvalid, hsum, by omega, rfl⟩⟩

lemma toNat_total_addPlugin (h : t.total.toNat + bytes e.2 < 2 ^ 64) :
    (t.addPlugin e).total.toNat = t.total.toNat + bytes e.2 :=
  toNat_total_foldl (t := { t with actualCount := 0 }) h

lemma weighPlugins_cons : weighPlugins (e :: es) = bytes e.2 + weighPlugins es := by
  simp [weighPlugins]

/-- **The tally of all buckets.** -/
theorem tallyPlugins_eq_ok (hread : ∀ e ∈ es, Readable e.2) :
    (es.map fun e => (⟨e.1, e.2.map Record.encode⟩ : Entry Bucket)).foldlM
        (fun t e => tallyPlugin lim counts t e.1 e.2) t = .ok t' ↔
      (∀ e ∈ es, ValidPlugin lim counts e) ∧ t.total.toNat + weighPlugins es < 2 ^ 64 ∧
        t' = es.foldl Tally.addPlugin t := by
  induction es generalizing t with
  | nil =>
    have htotal := t.total.toNat_lt
    constructor
    · intro h
      cases h
      exact ⟨by simp, by simpa [weighPlugins] using htotal, rfl⟩
    · rintro ⟨-, -, rfl⟩
      rfl
  | cons e es ih =>
  obtain ⟨hread, hreads⟩ := forall_mem_cons.mp hread
  rw [map_cons, foldlM_cons, bind_eq_ok, weighPlugins_cons, forall_mem_cons]
  constructor
  · rintro ⟨t₁, hhead, hrest⟩
    obtain ⟨hvalid, hfits, rfl⟩ := (tallyPlugin_eq_ok hread).mp hhead
    have htotal := toNat_total_addPlugin hfits
    obtain ⟨hvalids, hsum, rfl⟩ := (ih hreads).mp hrest
    exact ⟨⟨hvalid, hvalids⟩, by omega, rfl⟩
  · rintro ⟨⟨hvalid, hvalids⟩, hsum, rfl⟩
    have htotal := toNat_total_addPlugin (e := e) (t := t) (by omega)
    exact ⟨t.addPlugin e, (tallyPlugin_eq_ok hread).mpr ⟨hvalid, by omega, rfl⟩,
      (ih hreads).mpr ⟨hvalids, by omega, rfl⟩⟩

lemma toNat_total_plugins (h : t.total.toNat + weighPlugins es < 2 ^ 64) :
    (es.foldl Tally.addPlugin t).total.toNat = t.total.toNat + weighPlugins es := by
  induction es generalizing t with
  | nil => simp [weighPlugins]
  | cons e es ih =>
  have hweigh := @weighPlugins_cons es e
  have htotal := toNat_total_addPlugin (e := e) (t := t) (by omega)
  rw [foldl_cons, ih (by omega)]
  omega

lemma highest_plugins_le {bound : UInt64} : (es.foldl Tally.addPlugin t).highestVersion ≤ bound ↔
      t.highestVersion ≤ bound ∧ ∀ e ∈ es, ∀ r ∈ e.2.entries, r.2.version ≤ bound := by
  induction es generalizing t with
  | nil => simp
  | cons e es ih =>
    rw [foldl_cons, ih, forall_mem_cons, ← and_assoc]
    exact and_congr_left' highest_foldl_le

end plugins

/-! ## Databases that are accepted -/

section accepted

variable {lim : Limits} {L : Ledger} {rest : Database}

namespace Ledger

variable {m : OrdMap Bytes Record} {p : Bytes}

lemma find?_of_mem {r : Entry Record} (hp : L.plugins.find? p = some m)
    (hr : r ∈ m.entries) : L.find? p r.1 = some r.2 := by
  rw [find?, pluginOf, hp]
  exact mem_entries_iff.mp hr

lemma Sound.readable (hs : Sound lim L) (hp : L.plugins.find? p = some m) : Readable m := by
  intro r hr
  have hentry : entrySize r.1 r.2.value ≤ bytes m :=
    le_weight (fun k (r : Record) => entrySize k r.value) (mem_entries_iff.mp hr)
  have hplugin : bytes m ≤ L.total := le_weight (fun _ => bytes) hp
  have htotal := total_lt hs
  exact ⟨(hs.record p r.1 r.2 (find?_of_mem hp hr)).2.2.1, by omega⟩

lemma Sound.validPlugin (hs : Sound lim L) {e : Entry (OrdMap Bytes Record)}
    (he : e ∈ L.plugins.entries) : ValidPlugin lim (L.database rest).pluginCounts e := by
  have hp := mem_entries_iff.mp he
  obtain ⟨hname, hkeys⟩ := hs.plugin e.1 e.2 hp
  have hcount : (L.database rest).pluginCounts.find? e.1 = some (countBytes e.2) := by
    rw [pluginCounts_find?_database, hp]
    rfl
  have hread : (readUint64 (some (countBytes e.2))).toNat = e.2.size := by
    rw [countBytes, readUint64_putUint64, toNat_ofNat (count_lt hs hp)]
  unfold ValidPlugin
  rw [hcount, hread]
  refine ⟨hname, rfl, hkeys, fun r hr => ?_, Nat.le_refl _⟩
  obtain ⟨hkey, hvalue, -⟩ := hs.record e.1 r.1 r.2 (find?_of_mem hp hr)
  exact ⟨hkey, hvalue⟩

lemma checkCount_database (hs : Sound lim L) {e : Entry Bytes}
    (he : e ∈ (L.database rest).pluginCounts.entries) :
    checkCount (L.database rest).plugins e.1 e.2 = .ok () := by
  have hfind := mem_entries_iff.mp he
  rw [pluginCounts_find?_database] at hfind
  obtain ⟨m, hm, hraw⟩ := map_eq_some_iff.mp hfind
  unfold checkCount
  rw [plugins_find?_database, hm, ← hraw]
  show (if _ then _ else if _ then _ else _) = _
  have hnamed : ¬ (e.1 = [] ∨ (countBytes m).length ≠ 8) := by
    rw [not_or]
    exact ⟨(hs.plugin e.1 m hm).1, not_not.mpr rfl⟩
  have hsize : ¬ UInt64.ofNat (m.map Record.encode).size ≠ readUint64 (some (countBytes m)) := by
    rw [size_map, countBytes, readUint64_putUint64]
    exact not_not.mpr rfl
  rw [if_neg hnamed, if_neg hsize]

/-- **The database of a sound ledger is accepted.** -/
theorem validateDatabase_database (hs : Sound lim L) :
    validateDatabase lim (L.database rest) = .ok () := by
  have htotal := total_lt hs
  have hzero : ({} : Tally).total.toNat = 0 := rfl
  have hweigh : weighPlugins L.plugins.entries = L.total := rfl
  have htally := (@tallyPlugins_eq_ok lim (L.database rest).pluginCounts {} _ L.plugins.entries
    (fun e he => hs.readable (mem_entries_iff.mp he))).mpr
      ⟨fun e he => hs.validPlugin he, by omega, rfl⟩
  have hsum := @toNat_total_plugins {} L.plugins.entries (by omega)
  have hcounter : ((L.database rest).metadata.find? keyCounter) = some (putUint64 L.counter) :=
    find?_metadata_counter _ _
  have htotalRaw : ((L.database rest).metadata.find? keyTotalBytes) =
      some (putUint64 (UInt64.ofNat L.total)) := find?_metadata_total _ _
  have hlengths : ¬ ((Option.map length (some (putUint64 L.counter))).getD 0 ≠ 8 ∨
      (Option.map length (some (putUint64 (UInt64.ofNat L.total)))).getD 0 ≠ 8) := by
    rintro (h | h) <;> exact h rfl
  have hequal : (L.plugins.entries.foldl Tally.addPlugin {}).total = UInt64.ofNat L.total := by
    apply UInt64.toNat_inj.mp
    rw [toNat_ofNat htotal]
    omega
  have hlimit : ¬ UInt64.ofNat lim.maxTotalBytes < UInt64.ofNat L.total := by
    have hle := hs.total_le
    have hlim := lim.total_lt
    rw [ofNat_lt_iff (by omega) (by omega)]
    omega
  have hhighest : ¬ L.counter < (L.plugins.entries.foldl Tally.addPlugin {}).highestVersion := by
    rw [UInt64.not_lt, highest_plugins_le]
    refine ⟨UInt64.zero_le, fun e he r hr => ?_⟩
    exact (hs.record e.1 r.1 r.2 (find?_of_mem (mem_entries_iff.mp he) hr)).2.2.2
  unfold validateDatabase
  rw [hcounter, htotalRaw]
  rw [if_neg hlengths, readUint64_putUint64, readUint64_putUint64]
  refine bind_eq_ok.mpr ⟨_, htally, bind_eq_ok.mpr
    ⟨⟨⟩, forM_eq_ok.mpr fun e he => checkCount_database hs he, ?_⟩⟩
  rw [hequal]
  rw [if_neg (not_not.mpr rfl), if_neg hlimit, if_neg hhighest]

lemma ensureZero_of_find? {bolt : Bolt} {metadata : Bucket} {key : Bytes}
    (h : metadata.find? key = some raw) : ensureZero bolt metadata key = .ok metadata := by
  rw [ensureZero, h]

/-- **Opening the database of a sound ledger** leaves it as it is. -/
theorem initializeStore_database (hs : Sound lim L) :
    initializeStore lim (L.database rest) = .ok (L.database rest) := by
  have hcounter : ensureZero rest.bolt (L.database rest).metadata keyCounter =
      .ok (L.database rest).metadata := ensureZero_of_find? (find?_metadata_counter _ _)
  have htotal : ensureZero rest.bolt (L.database rest).metadata keyTotalBytes =
      .ok (L.database rest).metadata := ensureZero_of_find? (find?_metadata_total _ _)
  refine bind_eq_ok.mpr ⟨_, hcounter, bind_eq_ok.mpr ⟨_, htotal, ?_⟩⟩
  exact bind_eq_ok.mpr ⟨(), validateDatabase_database hs, rfl⟩

/-- A new file holds nothing. -/
lemma initializeStore_fresh (lim : Limits) (bolt : Bolt) :
    initializeStore lim (fresh bolt) = .ok (empty.database (fresh bolt)) := by
  have hcounter : ensureZero bolt ∅ keyCounter =
      .ok ((∅ : Bucket).insert keyCounter (putUint64 0)) := bolt.put_of_fits (fits_counter 0)
  have htotal : ensureZero bolt ((∅ : Bucket).insert keyCounter (putUint64 0)) keyTotalBytes =
      .ok (metadata ∅ 0 0) := bolt.put_of_fits (fits_total 0)
  refine bind_eq_ok.mpr ⟨_, hcounter, bind_eq_ok.mpr ⟨_, htotal, ?_⟩⟩
  exact bind_eq_ok.mpr
    ⟨(), @validateDatabase_database lim empty (fresh bolt) (sound_empty lim), rfl⟩

end Ledger

/-- Every entry of the database is one bbolt's `Put` took. -/
structure Kept (db : Database) : Prop where
  counts : ∀ p raw, db.pluginCounts.find? p = some raw → Fits db.bolt p raw
  records : ∀ p bucket k raw, db.plugins.find? p = some bucket → bucket.find? k = some raw →
    Fits db.bolt k raw

lemma kept_fresh {bolt : Bolt} : Kept (fresh bolt) := ⟨by nofun, by nofun⟩

variable {db db' : Database}

lemma decodes_of_tallyRecord {declared : UInt64} {t t' : Tally} {key : Bytes}
    (h : tallyRecord lim declared t key raw = .ok t') : (decodeRecord raw).isSome := by
  obtain ⟨-, h⟩ := guard_eq_ok.mp h
  split at h
  · cases h
  next hdecode => exact isSome_of_eq_some hdecode

lemma decodes_of_tallyPlugin {counts bucket : Bucket} {t t' : Tally} {p k : Bytes}
    (h : tallyPlugin lim counts t p bucket = .ok t') (hraw : bucket.find? k = some raw) :
    (decodeRecord raw).isSome := by
  obtain ⟨-, h⟩ := guard_eq_ok.mp h
  obtain ⟨-, h⟩ := guard_eq_ok.mp h
  obtain ⟨-, h⟩ := guard_eq_ok.mp h
  obtain ⟨c, c', hrecord⟩ := exists_of_foldlM_eq_ok h ⟨k, raw⟩ (mem_entries_iff.mpr hraw)
  exact decodes_of_tallyRecord hrecord

/-- What `validateDatabase` compares when it accepts. -/
lemma of_validateDatabase (h : validateDatabase lim db = .ok ()) :
    ∃ counterRaw totalRaw t, db.metadata.find? keyCounter = some counterRaw ∧
      counterRaw.length = 8 ∧ db.metadata.find? keyTotalBytes = some totalRaw ∧
      totalRaw.length = 8 ∧
      db.plugins.entries.foldlM (fun t e => tallyPlugin lim db.pluginCounts t e.1 e.2) {} = .ok t ∧
      (∀ e ∈ db.pluginCounts.entries, checkCount db.plugins e.1 e.2 = .ok ()) ∧
      t.total = readUint64 (some totalRaw) ∧ t.total ≤ UInt64.ofNat lim.maxTotalBytes ∧
      t.highestVersion ≤ readUint64 (some counterRaw) := by
  obtain ⟨hlengths, h⟩ := guard_eq_ok.mp h
  rw [not_or, not_not, not_not] at hlengths
  obtain ⟨t, htally, u, hcounts, h⟩ := bind₂_eq_ok.mp h
  obtain ⟨hsum, h⟩ := guard_eq_ok.mp h
  obtain ⟨hlimit, h⟩ := guard_eq_ok.mp h
  obtain ⟨hhighest, -⟩ := guard_eq_ok.mp h
  cases hcounter : db.metadata.find? keyCounter with
  | none =>
    rw [hcounter] at hlengths
    cases hlengths.1
  | some counterRaw =>
  cases htotal : db.metadata.find? keyTotalBytes with
  | none =>
    rw [htotal] at hlengths
    cases hlengths.2
  | some totalRaw =>
  rw [hcounter, htotal] at hlengths
  rw [htotal, not_not] at hsum
  rw [hcounter] at hhighest
  exact ⟨counterRaw, totalRaw, t, rfl, hlengths.1, rfl, hlengths.2, htally,
    forM_eq_ok.mp hcounts, hsum, UInt64.not_lt.mp hlimit, UInt64.not_lt.mp hhighest⟩

/-- A count that was checked is the size of its bucket. -/
lemma of_checkCount {plugins : OrdMap Bytes Bucket} {p : Bytes}
    (h : checkCount plugins p raw = .ok ()) :
    ∃ bucket, plugins.find? p = some bucket ∧ raw = putUint64 (UInt64.ofNat bucket.size) := by
  unfold checkCount at h
  split at h
  · cases h
  next bucket hp =>
  obtain ⟨hlen, h⟩ := guard_eq_ok.mp h
  obtain ⟨hsize, -⟩ := guard_eq_ok.mp h
  rw [not_or, not_not] at hlen
  rw [not_not] at hsize
  exact ⟨bucket, hp, by rw [hsize, putUint64_readUint64 hlen.2]⟩

/-- The ledger a database holds. -/
def Database.ledger (db : Database) : Ledger where
  plugins := db.plugins.map (OrdMap.map Record.read)
  counter := readUint64 (db.metadata.find? keyCounter)

/-- Every record can be read. -/
def Database.Decodes (db : Database) : Prop :=
  ∀ p bucket k raw, db.plugins.find? p = some bucket → bucket.find? k = some raw →
    (decodeRecord raw).isSome

lemma ledger_plugins (hdecodes : db.Decodes) :
    db.ledger.plugins.map (OrdMap.map Record.encode) = db.plugins :=
  map_map_eq_self fun p bucket hp => map_map_eq_self fun k raw hraw =>
    (Record.encode_read (hdecodes p bucket k raw hp hraw)).1

lemma ledger_readable (hkept : Kept db) (hdecodes : db.Decodes) :
    ∀ e ∈ db.ledger.plugins.entries, Readable e.2 := by
  intro e he r hr
  have hm := mem_entries_iff.mp he
  rw [ledger, OrdMap.find?_map] at hm
  obtain ⟨bucket, hp, hmap⟩ := map_eq_some_iff.mp hm
  have hrecord := mem_entries_iff.mp hr
  rw [← hmap, OrdMap.find?_map] at hrecord
  obtain ⟨raw, hraw, hread⟩ := map_eq_some_iff.mp hrecord
  obtain ⟨hencode, hversion⟩ := Record.encode_read (hdecodes e.1 bucket r.1 raw hp hraw)
  obtain ⟨-, hkeyLen, hrawLen⟩ := hkept.records e.1 bucket r.1 raw hp hraw
  rw [hread] at hencode hversion
  have hlen : raw.length = 8 + r.2.value.length := by
    rw [← hencode, Record.encode, encodeRecord, length_append, length_putUint64]
  refine ⟨hversion, ?_⟩
  have hsize := db.bolt.size_lt
  unfold entrySize
  omega

lemma ledger_counts
    (hcounts : ∀ e ∈ db.pluginCounts.entries, checkCount db.plugins e.1 e.2 = .ok ())
    (hvalid : ∀ e ∈ db.ledger.plugins.entries, ValidPlugin lim db.pluginCounts e) :
    db.ledger.plugins.map countBytes = db.pluginCounts := by
  refine OrdMap.ext_find fun p => ?_
  rw [OrdMap.find?_map, ledger, OrdMap.find?_map]
  cases hraw : db.pluginCounts.find? p with
  | some raw =>
    have hchecked : checkCount db.plugins p raw = .ok () :=
      hcounts ⟨p, raw⟩ (mem_entries_iff.mpr hraw)
    obtain ⟨bucket, hp, hsize⟩ := of_checkCount hchecked
    rw [hp, hsize]
    show some (countBytes (bucket.map Record.read)) = _
    rw [countBytes, size_map]
  | none =>
  -- a bucket without a count is refused
  cases hp : db.plugins.find? p with
  | none => rfl
  | some bucket =>
  have hmem : (⟨p, bucket.map Record.read⟩ : Entry (OrdMap Bytes Record)) ∈
      db.ledger.plugins.entries := by
    rw [mem_entries_iff, ledger, OrdMap.find?_map, hp]
    rfl
  have hlen := (hvalid _ hmem).2.1
  rw [hraw] at hlen
  cases hlen

/-- **A database that is accepted** is the database of a sound ledger. -/
theorem ledger_of_validateDatabase (hkept : Kept db) (h : validateDatabase lim db = .ok ()) :
    db = db.ledger.database db ∧ Sound lim db.ledger ∧ Named db.bolt db.ledger := by
  obtain ⟨counterRaw, totalRaw, t, hcounter, hcounterLen, htotal, htotalLen, htally, hcounts, hsum,
    hlimit, hhighest⟩ := of_validateDatabase h
  have hdecodes : db.Decodes := by
    intro p bucket k raw hp hraw
    obtain ⟨c, c', hplugin⟩ := exists_of_foldlM_eq_ok htally ⟨p, bucket⟩ (mem_entries_iff.mpr hp)
    exact decodes_of_tallyPlugin hplugin hraw
  have hreadable := ledger_readable hkept hdecodes
  have hplugins := ledger_plugins hdecodes
  rw [← hplugins] at htally
  obtain ⟨hvalid, hweigh, rfl⟩ := (tallyPlugins_eq_ok hreadable).mp htally
  have hcount := ledger_counts hcounts hvalid
  have hledgerTotal : (db.ledger.plugins.entries.foldl Tally.addPlugin {}).total.toNat =
      db.ledger.total := by
    rw [toNat_total_plugins hweigh]
    exact Nat.zero_add _
  have hmetadata : metadata db.metadata db.ledger.counter (UInt64.ofNat db.ledger.total) =
      db.metadata := by
    have hcounterRead : putUint64 db.ledger.counter = counterRaw := by
      rw [ledger, hcounter, putUint64_readUint64 hcounterLen]
    have htotalRead : putUint64 (UInt64.ofNat db.ledger.total) = totalRaw := by
      rw [← hledgerTotal, UInt64.ofNat_toNat, hsum, putUint64_readUint64 htotalLen]
    rw [Ledger.metadata, hcounterRead, htotalRead, insert_of_find? hcounter, insert_of_find? htotal]
  refine ⟨?_, ⟨?_, ?_, ?_⟩, ?_⟩
  · rw [database, hplugins, hcount, hmetadata]
  · intro p m hm
    obtain ⟨hname, -, hkeys, -, hsize⟩ := hvalid ⟨p, m⟩ (mem_entries_iff.mpr hm)
    exact ⟨hname, Nat.le_trans hsize hkeys⟩
  · intro p k r hr
    have hplugin := mem_entries_iff.mpr (db.ledger.plugins_find?_of_find? hr)
    have hentry : (⟨k, r⟩ : Entry Record) ∈ (db.ledger.pluginOf p).entries := mem_entries_iff.mpr hr
    obtain ⟨hkey, hvalue⟩ := (hvalid _ hplugin).2.2.2.1 _ hentry
    have hbound := (highest_plugins_le.mp hhighest).2 _ hplugin _ hentry
    rw [← hcounter] at hbound
    exact ⟨hkey, hvalue, (hreadable _ hplugin _ hentry).1, hbound⟩
  · rwa [UInt64.le_iff_toNat_le, hledgerTotal, toNat_ofNat lim.total_lt] at hlimit
  · intro p m hm
    have hraw : db.pluginCounts.find? p = some (countBytes m) := by
      rw [← hcount, OrdMap.find?_map, hm]
      rfl
    exact (fits_count (UInt64.ofNat m.size)).mp (hkept.counts p _ hraw)

/-- **A store that was opened** holds the database of a sound ledger. -/
theorem ledger_of_initializeStore (hkept : Kept db) (h : initializeStore lim db = .ok db') :
    ∃ L rest, db' = L.database rest ∧ Sound lim L ∧ Named rest.bolt L := by
  obtain ⟨metadata₁, -, metadata₂, -, u, hvalid, h⟩ := bind₃_eq_ok.mp h
  cases h
  have hkept' : Kept { db with metadata := metadata₂ } := ⟨hkept.counts, hkept.records⟩
  exact ⟨_, _, ledger_of_validateDatabase hkept' hvalid⟩

end accepted

end ToranaEdge.PluginState
