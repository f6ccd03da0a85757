import ToranaEdge.PluginState.Store

/-! # What a store holds

The ledger is what both backends keep: for every plugin its keys, each with a value
and the version it was written with, and the counter.  Totals and key counts are
not part of it; they are read off.  A database stands for a ledger when it is the
one `Ledger.database` spells out. -/

namespace ToranaEdge.PluginState

open OrdMap (find?_insert_ne find?_insert_self find?_erase_ne find?_erase_self weight_insert)

/-! ## The ledger -/

structure Record where
  version : UInt64
  value : Bytes
  deriving DecidableEq

structure Ledger where
  plugins : OrdMap Bytes (OrdMap Bytes Record)
  counter : UInt64

namespace Ledger

def empty : Ledger := ⟨∅, 0⟩

variable (L : Ledger)

def pluginOf (p : Bytes) : OrdMap Bytes Record := (L.plugins.find? p).getD ∅

variable (p k : Bytes)

def find? : Option Record := (L.pluginOf p).find? k

/-- The sum of the key and value lengths of one plugin. -/
def bytes (m : OrdMap Bytes Record) : Nat := m.weight fun k r => entrySize k r.value

/-- The sum of the key and value lengths over all plugins. -/
def total : Nat := L.plugins.weight fun _ m => bytes m

/-- A write takes the next version. -/
def write (p k v : Bytes) : Ledger where
  plugins := L.plugins.insert p ((L.pluginOf p).insert k ⟨L.counter + 1, v⟩)
  counter := L.counter + 1

/-- The last key of a plugin takes the plugin along. -/
def remove : Ledger where
  plugins :=
    if ((L.pluginOf p).erase k).size = 0 then L.plugins.erase p
    else L.plugins.insert p ((L.pluginOf p).erase k)
  counter := L.counter

/-- The version a key holds, as a caller sees it. -/
def versionOf : Option Bytes :=
  (L.find? p k).map fun r => formatUint r.version

/-- A write under the limits; nothing where it is refused.  `room` is whatever else the
backend asks of the entry. -/
def set (lim : Limits) (room : Bool) (L : Ledger) (p k v : Bytes) (expected : Option Bytes)
    (conditional : Bool) : Option ((Bool × UInt64) × Ledger) :=
  if conflicts conditional expected (L.versionOf p k) then some ((false, 0), L)
  else if (L.find? p k = none ∧ lim.maxKeysPerPlugin ≤ (L.pluginOf p).size) ∨
      lim.maxTotalBytes < (L.write p k v).total ∨ L.counter = ~~~0 ∨ room = false then none
  else some ((true, L.counter + 1), L.write p k v)

/-- A key that is not there is removed without a trace. -/
def delete : Ledger :=
  if (L.find? p k).isSome then L.remove p k else L

def compareAndDelete (p k expected : Bytes) : Bool × Ledger :=
  if L.versionOf p k = some expected then (true, L.remove p k) else (false, L)

/-- An entry as a page shows it. -/
def pageEntry (e : Sigma fun _ : Bytes => Record) : PageEntry :=
  { key := e.1, value := e.2.value, version := formatUint e.2.version }

/-- The entries of a plugin a scan still has to show. -/
def after (p keyPrefix last : Bytes) : List PageEntry :=
  ((L.pluginOf p).entries.filter fun e => keyPrefix.isPrefixOf e.1 && decide (last < e.1)).map
    pageEntry

def scan (codec : CursorCodec) (L : Ledger) (p keyPrefix cursor : Bytes) (limit maxBytes : Int) :
    Option Outcome := do
  let last ← (scanStart codec p keyPrefix cursor limit maxBytes).toOption
  let page ← (fillPage limit maxBytes [] 0 (L.after p keyPrefix last)).toOption
  return finishPage codec p keyPrefix page

/-- A write as a call; it needs the backend to commit. -/
def write? (lim : Limits) (room commits : Bool) (L : Ledger) (p k v : Bytes)
    (expected : Option Bytes) (conditional : Bool) : Option Outcome × Ledger :=
  match validateWrite lim p k v, commits, L.set lim room p k v expected conditional with
  | .ok (), true, some (out, L') =>
    (some (.stored out.1 (if out.1 then formatUint out.2 else [])), L')
  | _, _, _ => (none, L)

def delete? (commits : Bool) (L : Ledger) (p k : Bytes) : Option Outcome × Ledger :=
  if p = [] ∨ k = [] then (none, L)
  else if commits = true then (some .deleted, L.delete p k)
  else (none, L)

def compareAndDelete? (commits : Bool) (L : Ledger) (p k expected : Bytes) :
    Option Outcome × Ledger :=
  if expected = [] then (none, L)
  else if p = [] ∨ k = [] then (none, L)
  else if commits = true then
    (some (.comparedAndDeleted (L.compareAndDelete p k expected).1),
      (L.compareAndDelete p k expected).2)
  else (none, L)

/-- A call on the ledger: nothing where it fails.  `room` and `commits` are the
backend's. -/
def step (lim : Limits) (codec : CursorCodec) (room : Bytes → Bytes → Bytes → Bool)
    (commits : Bool) (L : Ledger) : Op → Option Outcome × Ledger
  | .getVersioned p k =>
    (if p = [] ∨ k = [] then none else some (match L.find? p k with
        | none => .got [] [] false
        | some r => .got r.value (formatUint r.version) true), L)
  | .set p k v => L.write? lim (room p k v) commits p k v none false
  | .compareAndSet p k v expected => L.write? lim (room p k v) commits p k v expected true
  | .delete p k => L.delete? commits p k
  | .compareAndDelete p k expected => L.compareAndDelete? commits p k expected
  | .keys p => (some (.keys (if p = [] then [] else (L.pluginOf p).keys)), L)
  | .scan p keyPrefix cursor limit maxBytes => (L.scan codec p keyPrefix cursor limit maxBytes, L)
  | .len p => (some (.len (L.pluginOf p).size), L)
  | .totalBytes => (some (.totalBytes L.total), L)

/-! ## Reading a ledger that was updated -/

section update

variable (L : Ledger) {p p' k k' v : Bytes}

lemma pluginOf_write_self : (L.write p k v).pluginOf p =
    (L.pluginOf p).insert k ⟨L.counter + 1, v⟩ := by
  simp [pluginOf, write]

lemma pluginOf_write_ne (h : p' ≠ p) : (L.write p k v).pluginOf p' = L.pluginOf p' := by
  simp [pluginOf, write, h]

lemma pluginOf_remove_self : (L.remove p k).pluginOf p = (L.pluginOf p).erase k := by
  unfold pluginOf remove
  split
  next h => rw [find?_erase_self]; exact (OrdMap.eq_empty_of_size h).symm
  next h => rw [find?_insert_self]; rfl

lemma pluginOf_remove_ne (h : p' ≠ p) : (L.remove p k).pluginOf p' = L.pluginOf p' := by
  unfold pluginOf remove
  split
  · rw [find?_erase_ne _ h]
  · rw [find?_insert_ne _ _ h]

lemma find?_write (p' k' : Bytes) : (L.write p k v).find? p' k' =
    if p' = p ∧ k' = k then some ⟨L.counter + 1, v⟩ else L.find? p' k' := by
  unfold find?
  by_cases hp : p' = p
  · subst hp
    rw [pluginOf_write_self]
    by_cases hk : k' = k
    · rw [if_pos ⟨rfl, hk⟩, hk, find?_insert_self]
    · rw [if_neg fun h => hk h.2, find?_insert_ne _ _ hk]
  · rw [if_neg fun h => hp h.1, pluginOf_write_ne L hp]

lemma find?_remove (p' k' : Bytes) : (L.remove p k).find? p' k' =
    if p' = p ∧ k' = k then none else L.find? p' k' := by
  unfold find?
  by_cases hp : p' = p
  · subst hp
    rw [pluginOf_remove_self]
    by_cases hk : k' = k
    · rw [if_pos ⟨rfl, hk⟩, hk, find?_erase_self]
    · rw [if_neg fun h => hk h.2, find?_erase_ne _ hk]
  · rw [if_neg fun h => hp h.1, pluginOf_remove_ne L hp]

lemma plugins_find?_of_find? {r : Record} (h : L.find? p k = some r) :
    L.plugins.find? p = some (L.pluginOf p) := by
  cases hp : L.plugins.find? p with
  | none =>
    rw [find?, pluginOf, hp] at h
    cases h
  | some m => rw [pluginOf, hp]; rfl

lemma plugins_write_cases {m : OrdMap Bytes Record}
    (h : (L.write p k v).plugins.find? p' = some m) :
    p' = p ∧ m = (L.pluginOf p).insert k ⟨L.counter + 1, v⟩ ∨ L.plugins.find? p' = some m := by
  by_cases hp : p' = p
  · subst hp
    rw [write, find?_insert_self] at h
    exact .inl ⟨rfl, (Option.some.inj h).symm⟩
  · rw [write, find?_insert_ne _ _ hp] at h
    exact .inr h

lemma plugins_remove_cases {m : OrdMap Bytes Record}
    (h : (L.remove p k).plugins.find? p' = some m) :
    p' = p ∧ m = (L.pluginOf p).erase k ∧ m.size ≠ 0 ∨ L.plugins.find? p' = some m := by
  unfold remove at h
  by_cases hp : p' = p
  · subst hp
    split at h
    · rw [find?_erase_self] at h
      cases h
    next hsize =>
      rw [find?_insert_self] at h
      cases h
      exact .inl ⟨rfl, rfl, hsize⟩
  split at h
  · rw [find?_erase_ne _ hp] at h
    exact .inr h
  · rw [find?_insert_ne _ _ hp] at h
    exact .inr h

/-- Replacing the keys of one plugin. -/
lemma total_insert (m : OrdMap Bytes Record) :
    (L.plugins.insert p m).weight (fun _ m => bytes m) + bytes (L.pluginOf p) =
      L.total + bytes m := by
  have hweight := weight_insert (fun _ => bytes) (m := L.plugins) (k := p) (b := m)
  have hold : ((L.plugins.find? p).map bytes).getD 0 = bytes (L.pluginOf p) := by
    unfold pluginOf
    cases L.plugins.find? p <;> rfl
  rw [← hold]
  exact hweight

/-- The length of the entry a key holds. -/
def heldSize (p k : Bytes) : Nat := ((L.find? p k).map fun r => entrySize k r.value).getD 0

lemma total_write : (L.write p k v).total + L.heldSize p k = L.total + entrySize k v := by
  have hplugin := L.total_insert (p := p) ((L.pluginOf p).insert k ⟨L.counter + 1, v⟩)
  have hentry : bytes ((L.pluginOf p).insert k ⟨L.counter + 1, v⟩) + L.heldSize p k =
      bytes (L.pluginOf p) + entrySize k v :=
    weight_insert (fun k (r : Record) => entrySize k r.value)
  have htotal : (L.write p k v).total = (L.plugins.insert p ((L.pluginOf p).insert k
      ⟨L.counter + 1, v⟩)).weight (fun _ m => bytes m) := rfl
  omega

lemma total_remove {r : Record} (h : L.find? p k = some r) :
    (L.remove p k).total + entrySize k r.value = L.total := by
  have hentry : bytes ((L.pluginOf p).erase k) + entrySize k r.value = bytes (L.pluginOf p) :=
    OrdMap.weight_erase_of_some (fun k (r : Record) => entrySize k r.value) h
  unfold total remove
  split
  next hsize =>
    have hbytes : bytes ((L.pluginOf p).erase k) = 0 := by
      rw [OrdMap.eq_empty_of_size hsize]
      rfl
    have hplugin := OrdMap.weight_erase_of_some (fun _ m => bytes m)
      (L.plugins_find?_of_find? h)
    show (L.plugins.erase p).weight (fun _ m => bytes m) + _ = _
    omega
  next hsize =>
    have hplugin := L.total_insert (p := p) ((L.pluginOf p).erase k)
    have htotal : L.total = L.plugins.weight fun _ m => bytes m := rfl
    show (L.plugins.insert p _).weight (fun _ m => bytes m) + _ = _
    omega

end update

/-! ## Ledgers a store can hold -/

/-- The limits are kept and every version was handed out. -/
structure Sound (lim : Limits) (L : Ledger) : Prop where
  plugin : ∀ p m, L.plugins.find? p = some m → p ≠ [] ∧ m.size ≤ lim.maxKeysPerPlugin
  record : ∀ p k r, L.find? p k = some r →
    k ≠ [] ∧ r.value.length ≤ lim.maxValueBytes ∧ r.version ≠ 0 ∧ r.version ≤ L.counter
  total_le : L.total ≤ lim.maxTotalBytes

lemma sound_empty (lim : Limits) : Sound lim empty where
  plugin p m h := by cases h
  record p k r h := by cases h
  total_le := Nat.zero_le _

lemma next_version {c : UInt64} (h : c ≠ ~~~0) : c < c + 1 ∧ c + 1 ≠ 0 := by
  have hc : c.toNat ≠ 18446744073709551615 := by
    intro hc
    exact h (UInt64.toNat_inj.mp hc)
  have hlt := c.toNat_lt
  have hadd : (c + 1).toNat = c.toNat + 1 := by
    show (c.toNat + 1) % 2 ^ 64 = _
    omega
  constructor
  · rw [UInt64.lt_iff_toNat_lt]
    omega
  · intro hzero
    rw [hzero] at hadd
    have : (0 : UInt64).toNat = 0 := rfl
    omega

variable {lim : Limits} {L L' : Ledger} {p k v : Bytes} {room conditional : Bool}
  {expected : Option Bytes} {out : Bool × UInt64}

lemma Sound.write (hs : Sound lim L) (hp : p ≠ []) (hk : k ≠ []) (hv : v.length ≤ lim.maxValueBytes)
    (hkeys : L.find? p k = none → (L.pluginOf p).size < lim.maxKeysPerPlugin)
    (htotal : (L.write p k v).total ≤ lim.maxTotalBytes) (hcounter : L.counter ≠ ~~~0) :
    Sound lim (L.write p k v) where
  plugin p' m h := by
    rcases L.plugins_write_cases h with ⟨rfl, rfl⟩ | h
    · refine ⟨hp, ?_⟩
      cases hfind : L.find? p' k with
      | none =>
        rw [OrdMap.size_insert_of_none hfind]
        exact hkeys hfind
      | some r =>
        rw [OrdMap.size_insert_of_some hfind]
        exact (hs.plugin p' _ (L.plugins_find?_of_find? hfind)).2
    · exact hs.plugin p' m h
  record p' k' r h := by
    have hnext := next_version hcounter
    by_cases hpk : p' = p ∧ k' = k
    · rw [find?_write, if_pos hpk] at h
      cases h
      obtain ⟨rfl, rfl⟩ := hpk
      exact ⟨hk, hv, hnext.2, UInt64.le_refl _⟩
    rw [find?_write, if_neg hpk] at h
    obtain ⟨hkey, hvalue, hzero, hle⟩ := hs.record p' k' r h
    exact ⟨hkey, hvalue, hzero, UInt64.le_trans hle (UInt64.le_of_lt hnext.1)⟩
  total_le := htotal

lemma Sound.remove {r : Record} (hs : Sound lim L) (hfind : L.find? p k = some r) :
    Sound lim (L.remove p k) where
  plugin p' m h := by
    have hold := hs.plugin p _ (L.plugins_find?_of_find? hfind)
    have hsize := OrdMap.size_erase_of_some hfind
    rcases L.plugins_remove_cases h with ⟨rfl, rfl, -⟩ | h
    · exact ⟨hold.1, by omega⟩
    · exact hs.plugin p' m h
  record p' k' r' h := by
    rw [find?_remove] at h
    split at h
    · cases h
    · exact hs.record p' k' r' h
  total_le := by
    have := L.total_remove hfind
    have := hs.total_le
    omega

/-- No plugin without a key. -/
def Populated (L : Ledger) : Prop := ∀ p m, L.plugins.find? p = some m → 0 < m.size

lemma populated_empty : Populated empty := by
  intro p m h
  cases h

lemma Populated.write (h : Populated L) : Populated (L.write p k v) := by
  intro p' m hm
  rcases L.plugins_write_cases hm with ⟨rfl, rfl⟩ | hm
  · exact OrdMap.size_pos (find?_insert_self _ _ _)
  · exact h p' m hm

lemma Populated.remove (h : Populated L) : Populated (L.remove p k) := by
  intro p' m hm
  rcases L.plugins_remove_cases hm with ⟨rfl, rfl, hsize⟩ | hm
  · exact Nat.pos_of_ne_zero hsize
  · exact h p' m hm

/-! ## What a call can do -/

/-- A write that is applied. -/
structure Applied (lim : Limits) (room : Bool) (L : Ledger) (p k v : Bytes)
    (expected : Option Bytes) (conditional : Bool) : Prop where
  plugin : p ≠ []
  key : k ≠ []
  value : v.length ≤ lim.maxValueBytes
  keys : L.find? p k = none → (L.pluginOf p).size < lim.maxKeysPerPlugin
  total : (L.write p k v).total ≤ lim.maxTotalBytes
  counter : L.counter ≠ ~~~0
  room : room = true
  current : conflicts conditional expected (L.versionOf p k) = false

/-- How a call can move a ledger. -/
inductive Moves (lim : Limits) (room : Bytes → Bytes → Bytes → Bool) (L : Ledger) : Ledger → Prop
  | keep : Moves lim room L L
  | write {p k v : Bytes} {expected : Option Bytes} {conditional : Bool}
      (applied : Applied lim (room p k v) L p k v expected conditional) :
      Moves lim room L (L.write p k v)
  | remove {p k : Bytes} {r : Record} (held : L.find? p k = some r) :
      Moves lim room L (L.remove p k)

variable {room : Bytes → Bytes → Bytes → Bool}

lemma Sound.moves (hs : Sound lim L) (h : Moves lim room L L') : Sound lim L' := by
  cases h with
  | keep => exact hs
  | write h => exact hs.write h.plugin h.key h.value h.keys h.total h.counter
  | remove hheld => exact hs.remove hheld

lemma Populated.moves (h : Populated L) (hmoves : Moves lim room L L') : Populated L' := by
  cases hmoves with
  | keep => exact h
  | write => exact h.write
  | remove => exact h.remove

lemma of_validateWrite (h : validateWrite lim p k v = .ok ()) :
    p ≠ [] ∧ k ≠ [] ∧ v.length ≤ lim.maxValueBytes := by
  obtain ⟨hne, h⟩ := Attempt.guard_eq_ok.mp h
  obtain ⟨hvalue, -⟩ := Attempt.guard_eq_ok.mp h
  rw [not_or] at hne
  exact ⟨hne.1, hne.2, by omega⟩

/-- A write as a call. -/
def writeOp (p k v : Bytes) (expected : Option Bytes) : Bool → Op
  | false => .set p k v
  | true => .compareAndSet p k v expected

/-- **What a call does**, said once: what it returns and the ledger it leaves. -/
inductive Effect (lim : Limits) (codec : CursorCodec) (room : Bytes → Bytes → Bytes → Bool)
    (L : Ledger) : Op → Option Outcome → Ledger → Prop
  | failed (op : Op) : Effect lim codec room L op none L
  | missing (p k : Bytes) : Effect lim codec room L (.getVersioned p k) (some (.got [] [] false)) L
  | got {p k : Bytes} {r : Record} (held : L.find? p k = some r) :
      Effect lim codec room L (.getVersioned p k)
        (some (.got r.value (formatUint r.version) true)) L
  | conflict (p k v : Bytes) (expected : Option Bytes) (conditional : Bool) :
      Effect lim codec room L (writeOp p k v expected conditional) (some (.stored false [])) L
  | stored {p k v : Bytes} {expected : Option Bytes} {conditional : Bool}
      (applied : Applied lim (room p k v) L p k v expected conditional) :
      Effect lim codec room L (writeOp p k v expected conditional)
        (some (.stored true (formatUint (L.counter + 1)))) (L.write p k v)
  | absent {p k : Bytes} (free : L.find? p k = none) :
      Effect lim codec room L (.delete p k) (some .deleted) L
  | deleted {p k : Bytes} {r : Record} (held : L.find? p k = some r) :
      Effect lim codec room L (.delete p k) (some .deleted) (L.remove p k)
  | changed (p k expected : Bytes) :
      Effect lim codec room L (.compareAndDelete p k expected) (some (.comparedAndDeleted false)) L
  | comparedAndDeleted {p k : Bytes} {r : Record} (held : L.find? p k = some r) :
      Effect lim codec room L (.compareAndDelete p k (formatUint r.version))
        (some (.comparedAndDeleted true)) (L.remove p k)
  | keys (p : Bytes) (ks : List Bytes) : Effect lim codec room L (.keys p) (some (.keys ks)) L
  | page {p keyPrefix cursor : Bytes} {limit maxBytes : Int} {out : Outcome}
      (scanned : L.scan codec p keyPrefix cursor limit maxBytes = some out) :
      Effect lim codec room L (.scan p keyPrefix cursor limit maxBytes) (some out) L
  | len (p : Bytes) (n : Nat) : Effect lim codec room L (.len p) (some (.len n)) L
  | totalBytes (n : Int) : Effect lim codec room L .totalBytes (some (.totalBytes n)) L

lemma Effect.moves {codec : CursorCodec} {op : Op}
    {out : Option Outcome} (h : Effect lim codec room L op out L') : Moves lim room L L' := by
  cases h with
  | stored happlied => exact .write happlied
  | deleted hheld | comparedAndDeleted hheld => exact .remove hheld
  | _ => exact .keep

section

variable (lim : Limits) (codec : CursorCodec) (room : Bytes → Bytes → Bytes → Bool)
  (commits : Bool) (L : Ledger)

/-- A write that is not refused finds a conflict, or is applied. -/
lemma write?_effect (p k v : Bytes) (expected : Option Bytes) (conditional : Bool) :
    Effect lim codec room L (writeOp p k v expected conditional)
      (L.write? lim (room p k v) commits p k v expected conditional).1
      (L.write? lim (room p k v) commits p k v expected conditional).2 := by
  unfold write?
  cases hvalid : validateWrite lim p k v with
  | error err => exact .failed _
  | ok u =>
  cases commits with
  | false => exact .failed _
  | true =>
  cases hset : L.set lim (room p k v) p k v expected conditional with
  | none => exact .failed _
  | some result =>
  unfold set at hset
  split at hset
  · cases hset
    exact .conflict p k v expected conditional
  next hconflict =>
  split at hset
  · cases hset
  next hrefused =>
  cases hset
  rw [not_or, not_or, not_or] at hrefused
  obtain ⟨hkeys, htotal, hcounter, hroom⟩ := hrefused
  obtain ⟨hp, hk, hv⟩ := of_validateWrite hvalid
  refine .stored ⟨hp, hk, hv, fun hnone => ?_, by omega, hcounter, by simpa using hroom,
    by simpa using hconflict⟩
  by_contra hsize
  exact hkeys ⟨hnone, by omega⟩

lemma step_effect (op : Op) : Effect lim codec room L op
      (L.step lim codec room commits op).1 (L.step lim codec room commits op).2 := by
  cases op with
  | getVersioned p k =>
    show Effect lim codec room L _ (if p = [] ∨ k = [] then none else some _) L
    split
    · exact .failed _
    cases hfind : L.find? p k with
    | none => exact .missing p k
    | some r => exact .got hfind
  | set p k v => exact write?_effect lim codec room commits L p k v none false
  | compareAndSet p k v expected => exact write?_effect lim codec room commits L p k v expected true
  | delete p k =>
    show Effect lim codec room L _ (L.delete? commits p k).1 (L.delete? commits p k).2
    unfold delete? delete
    split_ifs with hp hcommits hsome
    · exact .failed _
    · exact .deleted (Option.isSome_iff_exists.mp hsome).choose_spec
    · exact .absent (by simpa using hsome)
    · exact .failed _
  | compareAndDelete p k expected =>
    show Effect lim codec room L _ (L.compareAndDelete? commits p k expected).1
      (L.compareAndDelete? commits p k expected).2
    unfold compareAndDelete? compareAndDelete
    split_ifs with hexpected hp hcommits hversion
    · exact .failed _
    · exact .failed _
    · obtain ⟨r, hr, rfl⟩ := Option.map_eq_some_iff.mp hversion
      exact .comparedAndDeleted hr
    · exact .changed p k expected
    · exact .failed _
  | keys p => exact .keys p _
  | scan p keyPrefix cursor limit maxBytes =>
    show Effect lim codec room L _ (L.scan codec p keyPrefix cursor limit maxBytes) L
    cases hscan : L.scan codec p keyPrefix cursor limit maxBytes with
    | none => exact .failed _
    | some out => exact .page hscan
  | len p => exact .len p _
  | totalBytes => exact .totalBytes _

lemma step_moves (op : Op) : Moves lim room L (L.step lim codec room commits op).2 :=
  (step_effect lim codec room commits L op).moves

end

end Ledger

end ToranaEdge.PluginState
