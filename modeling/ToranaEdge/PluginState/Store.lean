import Mathlib.Data.List.Sort
import ToranaEdge.PluginState.Records
import ToranaEdge.Lib.Attempt

/-! # The plugin state store

A key/value store with a version per key, in two backends.  The memory backend is
two maps, a counter and a total under one lock.  The persistent one keeps a bucket
per plugin, a bucket with the number of keys of each plugin, and the counter and
the total as metadata; every operation on it is one transaction.

An operation of the store is atomic in either backend, so an interleaving of calls
is a sequence of operations.  What a call returns beside an error is not modelled. -/

namespace ToranaEdge.PluginState

/-! ## Calls -/

/-- `Options` without the path. -/
structure Options where
  maxValueBytes : Int64
  maxTotalBytes : Int64
  maxKeysPerPlugin : Int64

/-- The limits of a store, Go `int`s that are positive. -/
structure Limits where
  /-- The bytes of one value. -/
  maxValueBytes : Nat
  /-- The bytes of all keys and values. -/
  maxTotalBytes : Nat
  /-- The keys of one plugin. -/
  maxKeysPerPlugin : Nat
  value_lt : maxValueBytes < 2 ^ 63
  total_lt : maxTotalBytes < 2 ^ 63
  keys_lt : maxKeysPerPlugin < 2 ^ 63

def defaultMaxValueBytes : Nat := 262144
def defaultMaxTotalBytes : Nat := 33554432
def defaultMaxKeysPerPlugin : Nat := 10000

/-- A limit as `New` takes it: one that is not positive is the default. -/
def limitOr (n : Int64) (default : Nat) : Nat := if n.toInt ≤ 0 then default else n.toInt.toNat

lemma limitOr_lt (n : Int64) {default : Nat} (h : default < 2 ^ 63) :
    limitOr n default < 2 ^ 63 := by
  unfold limitOr
  split
  · exact h
  · have := n.toInt_lt
    omega

/-- The limits `New` sets. -/
def Limits.new (opts : Options) : Limits where
  maxValueBytes := limitOr opts.maxValueBytes defaultMaxValueBytes
  maxTotalBytes := limitOr opts.maxTotalBytes defaultMaxTotalBytes
  maxKeysPerPlugin := limitOr opts.maxKeysPerPlugin defaultMaxKeysPerPlugin
  value_lt := limitOr_lt _ (by decide)
  total_lt := limitOr_lt _ (by decide)
  keys_lt := limitOr_lt _ (by decide)

structure PageEntry where
  key : Bytes
  value : Bytes
  version : Bytes
  deriving DecidableEq

def entrySize (key value : Bytes) : Nat := key.length + value.length

/-- The calls of a store. -/
inductive Op where
  | getVersioned (plugin key : Bytes)
  | set (plugin key value : Bytes)
  | compareAndSet (plugin key value : Bytes) (expected : Option Bytes)
  | delete (plugin key : Bytes)
  | compareAndDelete (plugin key expected : Bytes)
  | keys (plugin : Bytes)
  | scan (plugin keyPrefix cursor : Bytes) (limit maxBytes : Int)
  | len (plugin : Bytes)
  | totalBytes

/-- What a call returns.  `Set` and `CompareAndSet` are both the unexported `set`,
whose results are recorded. -/
inductive Outcome where
  | got (value version : Bytes) (found : Bool)
  | stored (applied : Bool) (version : Bytes)
  | deleted
  | comparedAndDeleted (applied : Bool)
  | keys (keys : List Bytes)
  | page (entries : List PageEntry) (cursor : Bytes)
  | len (n : Nat)
  | totalBytes (n : Int)
  deriving DecidableEq

abbrev Result : Type := Except String Outcome

def ErrVersionExhausted : String := "plugin state version counter exhausted"

variable (lim : Limits)

def validateWrite (plugin key value : Bytes) : Except String Unit :=
  if plugin = [] ∨ key = [] then .error "plugin and key are required"
  else if lim.maxValueBytes < value.length then
    .error s!"value is {value.length} bytes, limit is {lim.maxValueBytes}"
  else .ok ()

/-- What a conditional write finds keeps it from being applied. -/
def conflicts (conditional : Bool) (expected : Option Bytes) (version : Option Bytes) : Bool :=
  conditional &&
    match expected, version with
    | none, none => false
    | none, some _ => true
    | some _, none => true
    | some e, some v => e != v

variable (codec : CursorCodec)

/-- The checks of a scan, and the last key its cursor names. -/
def scanStart (plugin keyPrefix cursor : Bytes) (limit maxBytes : Int) :
    Except String Bytes :=
  if plugin = [] then .error "plugin is required"
  else if limit < 1 ∨ 256 < limit ∨ maxBytes < 1 then .error "invalid scan bounds"
  else decodeCursor codec plugin keyPrefix cursor

/-- The size of an entry on a page. -/
def PageEntry.size (e : PageEntry) : Nat := e.key.length + e.value.length + e.version.length

/-- The loop that fills a page: its entries, and whether an entry was left over. -/
def fillPage (limit maxBytes : Int) :
    List PageEntry → Nat → List PageEntry → Except String (List PageEntry × Bool)
  | out, _, [] => .ok (out, false)
  | out, used, entry :: rest =>
    if out = [] ∧ maxBytes < entry.size then .error "first scan entry exceeds byte budget"
    else if limit ≤ out.length ∨ maxBytes < used + entry.size then .ok (out, true)
    else fillPage limit maxBytes (out ++ [entry]) (used + entry.size) rest

/-- The page and the cursor of its last key, if an entry was left over. -/
def finishPage (plugin keyPrefix : Bytes) :
    List PageEntry × Bool → Outcome
  | (out, more) =>
    match more, out.getLast? with
    | true, some last => .page out (encodeCursor codec plugin keyPrefix last.key)
    | _, _ => .page out []

/-! ## In memory -/

/-- A Go map from strings. -/
abbrev GoMap (β : Type) : Type := AList (fun _ : Bytes => β)

structure Memory where
  /-- The values of each plugin by key. -/
  data : GoMap (GoMap Bytes)
  /-- Their versions, under the same keys. -/
  versions : GoMap (GoMap Bytes)
  /-- The last version given out. -/
  counter : UInt64
  /-- The bytes of all keys and values. -/
  total : Int

namespace Memory

def empty : Memory := ⟨∅, ∅, 0, 0⟩

variable (s : Memory)

/-- `s.data[plugin]`. -/
def dataOf (plugin : Bytes) : GoMap Bytes := (s.data.lookup plugin).getD ∅

/-- `s.versions[plugin]`. -/
def versionsOf (plugin : Bytes) : GoMap Bytes := (s.versions.lookup plugin).getD ∅

variable (plugin key : Bytes)

/-- `s.data[plugin][key]`. -/
def value? : Option Bytes := (s.dataOf plugin).lookup key

/-- `s.versions[plugin][key]`: the empty string where there is none. -/
def version : Bytes :=
  ((s.versionsOf plugin).lookup key).getD []

def getVersioned : Result :=
  if plugin = [] ∨ key = [] then .error "plugin and key are required"
  else .ok (.got ((s.value? plugin key).getD []) (s.version plugin key)
    (s.value? plugin key).isSome)

/-- The total after a write over the old value. -/
def totalAfter (total : Int) (key value : Bytes) (old : Option Bytes) : Int :=
  match old with
  | some old => total + entrySize key value - entrySize key old
  | none => total + entrySize key value

variable (plugin key value : Bytes)

def setMemory (expected : Option Bytes)
    (conditional : Bool) : Result × Memory :=
  let old := s.value? plugin key
  if conflicts conditional expected (old.map fun _ => s.version plugin key) then
    (.ok (.stored false []), s)
  else if old.isNone ∧ lim.maxKeysPerPlugin ≤ (s.dataOf plugin).entries.length then
    (.error s!"plugin already holds {lim.maxKeysPerPlugin} keys, the per-plugin limit", s)
  else
    let total := totalAfter s.total key value old
    if lim.maxTotalBytes < total then
      (.error s!"store would exceed its {lim.maxTotalBytes} byte limit", s)
    else if s.counter = ~~~0 then (.error ErrVersionExhausted, s)
    else
      let counter := s.counter + 1
      let version := formatUint counter
      (.ok (.stored true version),
        { data := s.data.insert plugin ((s.dataOf plugin).insert key value)
          versions := s.versions.insert plugin ((s.versionsOf plugin).insert key version), counter
          total })

def set (expected : Option Bytes)
    (conditional : Bool) : Result × Memory :=
  match validateWrite lim plugin key value with
  | .error err => (.error err, s)
  | .ok () => setMemory lim s plugin key value expected conditional

/-- A key that is there leaves; the last one of a plugin takes its maps along. -/
def remove : Memory :=
  let data := (s.dataOf plugin).erase key
  let versions := (s.versionsOf plugin).erase key
  let total := s.total - entrySize key value
  if data.entries.length = 0 then
    { s with data := s.data.erase plugin, versions := s.versions.erase plugin, total }
  else
    { s with data := s.data.insert plugin data, versions := s.versions.insert plugin versions,
             total }

def delete : Result × Memory :=
  if plugin = [] ∨ key = [] then (.error "plugin and key are required", s)
  else
    match s.value? plugin key with
    | some value => (.ok .deleted, s.remove plugin key value)
    | none => (.ok .deleted, s)

def compareAndDelete (plugin key expected : Bytes) : Result × Memory :=
  if expected = [] then (.error "plugin, key, and expected version are required", s)
  else if plugin = [] ∨ key = [] then (.error "state store not configured", s)
  else if s.version plugin key ≠ expected then (.ok (.comparedAndDeleted false), s)
  else
    (.ok (.comparedAndDeleted true), s.remove plugin key ((s.value? plugin key).getD []))

/-- `sort.Strings` of the keys of a map. -/
def sortedKeys (m : GoMap Bytes) : List Bytes := m.keys.insertionSort (· ≤ ·)

def keys : List Bytes :=
  if plugin = [] then [] else sortedKeys (s.dataOf plugin)

def scanMemory (plugin keyPrefix last : Bytes)
    (limit maxBytes : Int) : Result := do
  let keys := (s.dataOf plugin).keys.filter fun key => keyPrefix.isPrefixOf key && last < key
  let entries := (keys.insertionSort (· ≤ ·)).map fun key =>
    { key, value := (s.value? plugin key).getD [], version := s.version plugin key }
  return finishPage codec plugin keyPrefix (← fillPage limit maxBytes [] 0 entries)

def scan (plugin keyPrefix cursor : Bytes)
    (limit maxBytes : Int) : Result := do
  let last ← scanStart codec plugin keyPrefix cursor limit maxBytes
  scanMemory codec s plugin keyPrefix last limit maxBytes

/-- One call on the memory backend. -/
def step : Op → Result × Memory
  | .getVersioned plugin key => (s.getVersioned plugin key, s)
  | .set plugin key value => s.set lim plugin key value none false
  | .compareAndSet plugin key value expected => s.set lim plugin key value expected true
  | .delete plugin key => s.delete plugin key
  | .compareAndDelete plugin key expected => s.compareAndDelete plugin key expected
  | .keys plugin => (.ok (.keys (s.keys plugin)), s)
  | .scan plugin keyPrefix cursor limit maxBytes =>
    (s.scan codec plugin keyPrefix cursor limit maxBytes, s)
  | .len plugin => (.ok (.len (s.dataOf plugin).entries.length), s)
  | .totalBytes => (.ok (.totalBytes s.total), s)

end Memory

/-! ## In a database -/

/-- A bucket without buckets in it: its entries, in the order of their keys. -/
abbrev Bucket : Type := OrdMap Bytes Bytes

/-- The library bbolt, as far as the store depends on it. -/
structure Bolt where
  /-- `MaxKeySize`. -/
  maxKeySize : Nat
  /-- `MaxValueSize`. -/
  maxValueSize : Nat
  /-- `Put`. -/
  put : Bucket → Bytes → Bytes → Except String Bucket
  /-- The error of a commit that fails. -/
  commitError : String
  put_of_fits {bucket : Bucket} {key value : Bytes} (fits : key ≠ [] ∧ key.length ≤ maxKeySize ∧
    value.length ≤ maxValueSize) : put bucket key value = .ok (bucket.insert key value)
  put_of_not_fits {key value : Bytes} (unfit : ¬ (key ≠ [] ∧ key.length ≤ maxKeySize ∧
    value.length ≤ maxValueSize)) (bucket : Bucket) : ∃ err, put bucket key value = .error err
  /-- The names and the counters of the metadata fit. -/
  metadata_fits : 16 ≤ maxKeySize ∧ 8 ≤ maxValueSize
  /-- The size of an entry is far from wrapping. -/
  size_lt : maxKeySize + maxValueSize < 2 ^ 62

/-- bbolt with the sizes it documents. -/
def documentedBolt : Bolt where
  maxKeySize := 32768
  maxValueSize := 2147483646
  put bucket key value :=
    if key ≠ [] ∧ key.length ≤ 32768 ∧ value.length ≤ 2147483646 then .ok (bucket.insert key value)
    else .error "invalid entry"
  commitError := "commit"
  put_of_fits fits := if_pos fits
  put_of_not_fits unfit _ := ⟨_, if_neg unfit⟩
  metadata_fits := by decide
  size_lt := by decide

/-- The database of a store. -/
structure Database where
  /-- The library it was opened with. -/
  bolt : Bolt
  /-- The version counter and the total, beside what other releases keep there. -/
  metadata : Bucket
  /-- The records of each plugin. -/
  plugins : OrdMap Bytes Bucket
  /-- The number of keys of each plugin that has any. -/
  pluginCounts : Bucket

def keyCounter : Bytes := utf8 "counter"
def keyTotalBytes : Bytes := utf8 "total_bytes"

namespace Database

/-- The database before it is initialized. -/
def fresh (bolt : Bolt) : Database := ⟨bolt, ∅, ∅, ∅⟩

/-- `db.Update`: an error rolls back, and so does a commit that fails. -/
def update {α : Type} (commits : Bool) (db : Database)
    (tx : Database → Except String (α × Database)) : Except String α × Database :=
  match tx db with
  | .error err => (.error err, db)
  | .ok (a, db') => if commits then (.ok a, db') else (.error db.bolt.commitError, db)

variable (db : Database)

/-- The record of a key; a bucket or a key that is missing has none. -/
def record? (plugin key : Bytes) : Option Bytes := do
  (← db.plugins.find? plugin).find? key

/-- `decodeRecord` of a record that is there. -/
def readRecord : Option Bytes → Except String (Option (UInt64 × Bytes))
  | none => .ok none
  | some raw =>
    match decodeRecord raw with
    | none => .error "invalid state record"
    | some r => .ok (some r)

def getVersioned (plugin key : Bytes) : Result :=
  if plugin = [] ∨ key = [] then .error "plugin and key are required"
  else do
    match ← Attempt.context "read state" (readRecord (db.record? plugin key)) with
    | none => return .got [] [] false
    | some (version, value) => return .got value (formatUint version) true

/-- The total after a write over the old value. -/
def totalAfter (total : UInt64) (key value : Bytes) (old : Option Bytes) : UInt64 :=
  (match old with
    | some old => total - UInt64.ofNat (entrySize key old)
    | none => total) + UInt64.ofNat (entrySize key value)

/-- The transaction of `set`. -/
def setTx (plugin key value : Bytes) (expected : Option Bytes)
    (conditional : Bool) (db : Database) : Except String ((Bool × UInt64) × Database) := do
  let old ← readRecord (db.record? plugin key)
  if conflicts conditional expected (old.map fun r => formatUint r.1) then
    return ((false, 0), db)
  else
    let count := readUint64 (db.pluginCounts.find? plugin)
    if (db.plugins.find? plugin).isSome ∧ (db.pluginCounts.find? plugin).isNone then
      .error "missing plugin key-count metadata"
    else if old.isNone ∧ UInt64.ofNat lim.maxKeysPerPlugin ≤ count then
      .error s!"plugin already holds {lim.maxKeysPerPlugin} keys, the per-plugin limit"
    else
      let bucket := (db.plugins.find? plugin).getD ∅
      let total := totalAfter (readUint64 (db.metadata.find? keyTotalBytes)) key value
        (old.map Prod.snd)
      if UInt64.ofNat lim.maxTotalBytes < total then
        .error s!"store would exceed its {lim.maxTotalBytes} byte limit"
      else
        let counter := readUint64 (db.metadata.find? keyCounter)
        if counter = ~~~0 then .error ErrVersionExhausted
        else
          let version := counter + 1
          let bucket ← db.bolt.put bucket key (encodeRecord version value)
          let pluginCounts ←
            if old.isNone then db.bolt.put db.pluginCounts plugin (putUint64 (count + 1))
            else .ok db.pluginCounts
          let metadata ← db.bolt.put db.metadata keyCounter (putUint64 version)
          let metadata ← db.bolt.put metadata keyTotalBytes (putUint64 total)
          return ((true, version),
            { db with metadata, plugins := db.plugins.insert plugin bucket, pluginCounts })

variable (commits : Bool) (db : Database)

def set (plugin key value : Bytes)
    (expected : Option Bytes) (conditional : Bool) : Result × Database :=
  match validateWrite lim plugin key value with
  | .error err => (.error err, db)
  | .ok () =>
    let (result, db') := update commits db (setTx lim plugin key value expected conditional)
    (result.map fun r => .stored r.1 (formatUint r.2), db')

/-- A record leaves, and the metadata follows; the last record of a plugin takes the
bucket and the count along. -/
def removeTx (plugin key value : Bytes) (bucket : Bucket) (db : Database) :
    Except String Database := do
  let bucket := bucket.erase key
  let total := readUint64 (db.metadata.find? keyTotalBytes) - UInt64.ofNat (entrySize key value)
  let metadata ← db.bolt.put db.metadata keyTotalBytes (putUint64 total)
  let countRaw := db.pluginCounts.find? plugin
  if (countRaw.map List.length).getD 0 ≠ 8 ∨ readUint64 countRaw = 0 then
    .error "invalid plugin key-count metadata"
  else
    let count := readUint64 countRaw - 1
    if count = 0 then
      return { db with metadata, plugins := db.plugins.erase plugin
                       pluginCounts := db.pluginCounts.erase plugin }
    else
      let pluginCounts ← db.bolt.put db.pluginCounts plugin (putUint64 count)
      return { db with metadata, plugins := db.plugins.insert plugin bucket, pluginCounts }

/-- The transaction of `Delete`. -/
def deleteTx (plugin key : Bytes) (db : Database) : Except String (Unit × Database) := do
  match db.plugins.find? plugin with
  | none => return ((), db)
  | some bucket =>
    match ← readRecord (bucket.find? key) with
    | none => return ((), db)
    | some (_, value) => return ((), ← removeTx plugin key value bucket db)

def delete (plugin key : Bytes) : Result × Database :=
  if plugin = [] ∨ key = [] then (.error "plugin and key are required", db)
  else
    let (result, db') := update commits db (deleteTx plugin key)
    (result.map fun _ => .deleted, db')

/-- The transaction of `CompareAndDelete`: a record that cannot be read is no match. -/
def compareAndDeleteTx (plugin key expected : Bytes) (db : Database) :
    Except String (Bool × Database) := do
  match db.plugins.find? plugin with
  | none => return (false, db)
  | some bucket =>
    match (bucket.find? key).bind decodeRecord with
    | none => return (false, db)
    | some (version, value) =>
      if formatUint version ≠ expected then return (false, db)
      else return (true, ← removeTx plugin key value bucket db)

def compareAndDelete (plugin key expected : Bytes) :
    Result × Database :=
  if expected = [] then (.error "plugin, key, and expected version are required", db)
  else if plugin = [] ∨ key = [] then (.error "state store not configured", db)
  else
    let (result, db') := update commits db (compareAndDeleteTx plugin key expected)
    (result.map .comparedAndDeleted, db')

def bucketOf (plugin : Bytes) : Bucket := (db.plugins.find? plugin).getD ∅

def keys (plugin : Bytes) : List Bytes :=
  if plugin = [] then [] else (db.bucketOf plugin).keys

/-- An entry the cursor of a bucket stands at. -/
def pageEntry (e : Sigma fun _ : Bytes => Bytes) : Except String PageEntry :=
  match decodeRecord e.2 with
  | none => .error "invalid state record"
  | some (version, value) => .ok { key := e.1, value, version := formatUint version }

/-- The loop of a scan over the entries from the cursor on. -/
def fillPageTx (limit maxBytes : Int) (keyPrefix : Bytes) :
    List PageEntry → Nat → List (Sigma fun _ : Bytes => Bytes) →
      Except String (List PageEntry × Bool)
  | out, _, [] => .ok (out, false)
  | out, used, e :: rest =>
    if keyPrefix.isPrefixOf e.1 then do
      let entry ← pageEntry e
      if out = [] ∧ maxBytes < entry.size then .error "first scan entry exceeds byte budget"
      else if limit ≤ out.length ∨ maxBytes < used + entry.size then .ok (out, true)
      else fillPageTx limit maxBytes keyPrefix (out ++ [entry]) (used + entry.size) rest
    else .ok (out, false)

/-- The entries a scan starts at: after the last key, or at the prefix. -/
def seekFrom (bucket : Bucket) (keyPrefix last : Bytes) : List (Sigma fun _ : Bytes => Bytes) :=
  if last = [] then bucket.seek keyPrefix else bucket.seekAfter last

def scan (plugin keyPrefix cursor : Bytes)
    (limit maxBytes : Int) : Result := do
  let last ← scanStart codec plugin keyPrefix cursor limit maxBytes
  return finishPage codec plugin keyPrefix
    (← fillPageTx limit maxBytes keyPrefix [] 0 (seekFrom (db.bucketOf plugin) keyPrefix last))

/-- One call on the database; `commits` says whether a commit would succeed. -/
def step :
    Op → Result × Database
  | .getVersioned plugin key => (db.getVersioned plugin key, db)
  | .set plugin key value => db.set lim commits plugin key value none false
  | .compareAndSet plugin key value expected => db.set lim commits plugin key value expected true
  | .delete plugin key => db.delete commits plugin key
  | .compareAndDelete plugin key expected => db.compareAndDelete commits plugin key expected
  | .keys plugin => (.ok (.keys (db.keys plugin)), db)
  | .scan plugin keyPrefix cursor limit maxBytes =>
    (db.scan codec plugin keyPrefix cursor limit maxBytes, db)
  | .len plugin => (.ok (.len (db.bucketOf plugin).size), db)
  | .totalBytes =>
    (.ok (.totalBytes (readUint64 (db.metadata.find? keyTotalBytes)).toInt64.toInt), db)

/-! ## Opening a database -/

/-- The running totals of `validateDatabase`. -/
structure Tally where
  total : UInt64 := 0
  highestVersion : UInt64 := 0
  actualCount : UInt64 := 0

/-- One record of a plugin's bucket. -/
def tallyRecord (declared : UInt64) (t : Tally) (key raw : Bytes) :
    Except String Tally :=
  if key = [] then .error "plugin contains an invalid entry"
  else
    match decodeRecord raw with
    | none => .error "plugin key contains an invalid record"
    | some (version, text) =>
      let size := UInt64.ofNat (entrySize key text)
      if lim.maxValueBytes < text.length then
        .error s!"plugin key exceeds its {lim.maxValueBytes} byte value limit"
      else if ~~~0 - t.total < size then .error "state size overflow"
      else if declared < t.actualCount + 1 then .error "plugin key-count accounting mismatch"
      else
        .ok { total := t.total + size
              highestVersion := if t.highestVersion < version then version else t.highestVersion
              actualCount := t.actualCount + 1 }

/-- One plugin's bucket. -/
def tallyPlugin (counts : Bucket) (t : Tally) (plugin : Bytes) (bucket : Bucket) :
    Except String Tally :=
  if plugin = [] then .error "invalid plugin bucket"
  else
    let countRaw := counts.find? plugin
    if (countRaw.map List.length).getD 0 ≠ 8 then .error "plugin has missing key-count metadata"
    else if UInt64.ofNat lim.maxKeysPerPlugin < readUint64 countRaw then
      .error s!"plugin exceeds its {lim.maxKeysPerPlugin} key limit"
    else
      bucket.entries.foldlM (fun t e => tallyRecord lim (readUint64 countRaw) t e.1 e.2)
        { t with actualCount := 0 }

/-- One record of the key counts. -/
def checkCount (plugins : OrdMap Bytes Bucket) (plugin raw : Bytes) : Except String Unit :=
  match plugins.find? plugin with
  | none => .error "invalid plugin key-count metadata"
  | some bucket =>
    if plugin = [] ∨ raw.length ≠ 8 then .error "invalid plugin key-count metadata"
    else if UInt64.ofNat bucket.size ≠ readUint64 (some raw) then
      .error "plugin key-count accounting mismatch"
    else .ok ()

def validateDatabase : Except String Unit := do
  let counterRaw := db.metadata.find? keyCounter
  let totalRaw := db.metadata.find? keyTotalBytes
  if (counterRaw.map List.length).getD 0 ≠ 8 ∨ (totalRaw.map List.length).getD 0 ≠ 8 then
    .error "invalid state metadata"
  else
    let t ← db.plugins.entries.foldlM (fun t e => tallyPlugin lim db.pluginCounts t e.1 e.2) {}
    db.pluginCounts.entries.forM fun e => checkCount db.plugins e.1 e.2
    if t.total ≠ readUint64 totalRaw then .error "state byte accounting mismatch"
    else if UInt64.ofNat lim.maxTotalBytes < t.total then
      .error s!"state exceeds its {lim.maxTotalBytes} byte limit"
    else if readUint64 counterRaw < t.highestVersion then
      .error "state version counter is behind a stored record"
    else .ok ()

/-- A metadata value that is missing is set to zero. -/
def ensureZero (bolt : Bolt) (metadata : Bucket) (key : Bytes) : Except String Bucket :=
  match metadata.find? key with
  | none => bolt.put metadata key (putUint64 0)
  | some _ => .ok metadata

/-- `initialize`. -/
def initializeStore : Except String Database := do
  let metadata ← ensureZero db.bolt db.metadata keyCounter
  let metadata ← ensureZero db.bolt metadata keyTotalBytes
  let db := { db with metadata }
  validateDatabase lim db
  return db

end Database

end ToranaEdge.PluginState
