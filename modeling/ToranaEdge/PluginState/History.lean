import ToranaEdge.Lib.Versioned
import ToranaEdge.PluginState.Mirror
import ToranaEdge.PluginState.Reopen

/-! # Histories of a store

Calls of a store are atomic, so an interleaving of callers is one list of calls.
What the calls did to the keys is read off their results, and the ledger behind the
store is the versioned map those changes lead to. -/

namespace ToranaEdge.PluginState

open Ledger Versioned Attempt List Option UInt64 Function

/-! ## Stores and runs -/

inductive Store where
  | memory (s : Memory)
  | bolt (db : Database)

namespace Store

/-- One call; `commits` says whether a commit would succeed. -/
def step (lim : Limits) (codec : CursorCodec) (commits : Bool) (st : Store) (op : Op) :
    Result × Store :=
  match st with
  | .memory s => ((s.step lim codec op).1, .memory (s.step lim codec op).2)
  | .bolt db => ((db.step lim codec commits op).1, .bolt (db.step lim codec commits op).2)

def getVersioned (st : Store) (plugin key : Bytes) : Result :=
  match st with
  | .memory s => s.getVersioned plugin key
  | .bolt db => db.getVersioned plugin key

end Store

/-- A store as `New` returns it: empty in memory, or on a file that was accepted. -/
inductive Opened (lim : Limits) : Store → Prop
  | memory : Opened lim (.memory .empty)
  | bolt {db db' : Database} (kept : Kept db) (opened : Database.initializeStore lim db = .ok db') :
      Opened lim (.bolt db')

/-- A call that returned. -/
structure Call where
  op : Op
  result : Result

inductive Run (lim : Limits) (codec : CursorCodec) (start : Store) : List Call → Store → Prop
  | nil : Run lim codec start [] start
  | snoc {calls : List Call} {st : Store} (h : Run lim codec start calls st) (commits : Bool)
      (op : Op) : Run lim codec start (calls ++ [⟨op, (st.step lim codec commits op).1⟩])
        (st.step lim codec commits op).2

/-- What a call did to the keys, as its result tells. -/
def change (op : Op) (out : Option Outcome) : Change (Bytes × Bytes) Bytes :=
  match op, out with
  | .set p k v, some (.stored true _) => .write (p, k) v
  | .compareAndSet p k v _, some (.stored true _) => .write (p, k) v
  | .delete p k, some .deleted => .erase (p, k)
  | .compareAndDelete p k _, some (.comparedAndDeleted true) => .erase (p, k)
  | _, _ => .keep

def Call.change (c : Call) : Change (Bytes × Bytes) Bytes :=
  PluginState.change c.op c.result.toOption

/-- The versions a result shows. -/
def Outcome.versions : Outcome → List Bytes
  | .got _ version true => [version]
  | .stored true version => [version]
  | .page entries _ => entries.map PageEntry.version
  | _ => []

lemma Outcome.versions_seen (out : Outcome) : out.seen.versions = out.versions := by
  rcases out with _ | ⟨_ | _, _⟩ | _ | _ | _ | _ | _ | _ <;> rfl

variable {out : Outcome}

lemma Outcome.eq_of_seen {version : Bytes} (h : out.seen = .stored true version) :
    out = .stored true version := by
  rcases out with _ | ⟨_ | _, _⟩ | _ | _ | _ | _ | _ | _ <;> first | exact h | cases h

/-! ## The ledger as a versioned map -/

/-- A version as it is spelled. -/
def spell (n : ℕ) : Bytes := formatUint (UInt64.ofNat n)

variable {w : Bytes}

namespace Ledger

variable {lim : Limits} {codec : CursorCodec} {L : Ledger} {p k v : Bytes}

def view (L : Ledger) : Versioned (Bytes × Bytes) Bytes Bytes where
  entry key := (L.find? key.1 key.2).map fun r => (formatUint r.version, r.value)
  counter := L.counter.toNat

lemma view_entry (L : Ledger) (p k : Bytes) :
    L.view.entry (p, k) = (L.find? p k).map fun r => (formatUint r.version, r.value) := rfl

lemma toNat_next {c : UInt64} (h : c ≠ ~~~0) : (c + 1).toNat = c.toNat + 1 := by
  have hlt := next_version h
  rw [lt_iff_toNat_lt, UInt64.toNat_add] at hlt
  rw [UInt64.toNat_add]
  have hone : (1 : UInt64).toNat = 1 := rfl
  omega

/-- One key of the view is changed. -/
lemma view_entry_of {L' : Ledger} {r : Option Record} (h : ∀ p' k', L'.find? p' k' =
      if p' = p ∧ k' = k then r else L.find? p' k') : L'.view.entry =
        update L.view.entry (p, k) (r.map fun r => (formatUint r.version, r.value)) := by
  funext ⟨p', k'⟩
  by_cases hkey : p' = p ∧ k' = k
  · rw [view_entry, h, if_pos hkey, hkey.1, hkey.2, update_self]
  · rw [view_entry, h, if_neg hkey, update_of_ne (by simpa using hkey), view_entry]

lemma view_write (h : L.counter ≠ ~~~0) :
    (L.write p k v).view = L.view.apply spell (.write (p, k) v) := by
  show Versioned.mk (L.write p k v).view.entry _ = Versioned.mk _ _
  rw [view_entry_of (find?_write L)]
  exact congrArg _ (toNat_next h)

lemma view_remove : (L.remove p k).view = L.view.apply spell (.erase (p, k)) := by
  show Versioned.mk (L.remove p k).view.entry _ = Versioned.mk _ _
  rw [view_entry_of (find?_remove L)]
  rfl

/-- Erasing a key that is not there changes nothing. -/
lemma view_erase_none (h : L.find? p k = none) : L.view.apply spell (.erase (p, k)) = L.view := by
  have hentry : update L.view.entry (p, k) none = L.view.entry := by
    rw [update_eq_self_iff, view_entry, h]
    rfl
  show Versioned.mk _ _ = _
  rw [hentry]

lemma Sound.drawn (hs : Sound lim L) : Drawn spell L.view := by
  rintro ⟨p, k⟩ v b h
  obtain ⟨r, hr, heq⟩ := map_eq_some_iff.mp h
  cases heq
  have hle := (hs.record p k r hr).2.2.2
  exact ⟨r.version.toNat, le_iff_toNat_le.mp hle, by rw [spell, UInt64.ofNat_toNat]⟩

section effect

variable {room : Bytes → Bytes → Bytes → Bool} {op : Op} {out : Option Outcome} {L' : Ledger}

section

variable (h : Effect lim codec room L op out L')
include h

/-- **The ledger moves as its result tells.** -/
theorem Effect.view : L'.view = L.view.apply spell (change op out) := by
  cases h with
  | failed => cases op <;> rfl
  | conflict p k v expected conditional => cases conditional <;> rfl
  | @stored p k v expected conditional happlied =>
    cases conditional <;> exact view_write happlied.counter
  | absent hfree => exact (view_erase_none hfree).symm
  | deleted | comparedAndDeleted => exact view_remove
  | _ => rfl

lemma Effect.seen : out.map Outcome.seen = out := by
  cases h with
  | page hscan => rw [← hscan, seen_scan]
  | _ => rfl

/-- What is not applied changes nothing. -/
lemma Effect.unapplied
    (hout : out ∈ [none, some (.stored false []), some (.comparedAndDeleted false)]) : L' = L := by
  cases h with
  | stored | deleted | comparedAndDeleted => simp at hout
  | _ => rfl

end

/-- What a result shows is in the ledger, or was just written. -/
lemma Effect.shows {out : Outcome} (h : Effect lim codec room L op (some out) L')
    (hscan : ∀ p keyPrefix cursor limit maxBytes, op ≠ .scan p keyPrefix cursor limit maxBytes)
    (hw : w ∈ out.versions) : (∃ key b, L.view.entry key = some (w, b)) ∨ out = .stored true w := by
  cases h with
  | @got p k r hheld =>
    cases mem_singleton.mp hw
    exact .inl ⟨(p, k), r.value, by rw [view_entry, hheld]; rfl⟩
  | stored =>
    cases mem_singleton.mp hw
    exact .inr rfl
  | page => exact (hscan _ _ _ _ _ rfl).elim
  | _ => cases hw

/-- The version a write takes. -/
lemma Effect.stored_version (h : Effect lim codec room L op (some (.stored true w)) L') :
    ∃ p k v expected conditional, Applied lim (room p k v) L p k v expected conditional ∧
      op = writeOp p k v expected conditional ∧ w = spell (L.view.counter + 1) := by
  cases h with
  | stored happlied =>
    refine ⟨_, _, _, _, _, happlied, rfl, ?_⟩
    rfl
  | page hscan =>
    obtain ⟨_, _, _, _, -, -, hpage, -⟩ := scan_eq_some hscan
    cases hpage

lemma Effect.deleted_version {expected : Bytes}
    (h : Effect lim codec room L op (some (.comparedAndDeleted true)) L')
    (hop : op = .compareAndDelete p k expected) : L.versionOf p k = some expected := by
  cases h with
  | comparedAndDeleted hr =>
    cases hop
    rw [versionOf, hr, map_some]
  | page => cases hop

end effect

end Ledger

/-! ## The ledger behind a store -/

/-- The ledger a store holds. -/
inductive Holds (lim : Limits) (L : Ledger) : Store → Prop
  | memory {s : Memory} (mirrors : Mirrors s L) (sound : Sound lim L) : Holds lim L (.memory s)
  | bolt {rest : Database} (sound : Sound lim L) (named : Named rest.bolt L) :
      Holds lim L (.bolt (L.database rest))

/-- An error, or a write or deletion that was not applied. -/
def Unapplied : Result → Prop
  | .error _ | .ok (.stored false _) | .ok (.comparedAndDeleted false) => True
  | _ => False

variable {commits : Bool} {codec : CursorCodec} {lim : Limits}

namespace Holds

variable {lim : Limits} {codec : CursorCodec} {L : Ledger} {st : Store}

section

variable (h : Holds lim L st)
include h

lemma sound : Sound lim L := by
  cases h with
  | memory _ hs | bolt hs _ => exact hs

/-- **A call on a store is a call on its ledger.** -/
theorem step (codec : CursorCodec) (commits : Bool) (op : Op) :
    ∃ room c, Holds lim (L.step lim codec room c op).2 (st.step lim codec commits op).2 ∧
      (AlignedCursor codec op → (st.step lim codec commits op).1.toOption.map Outcome.seen =
        (L.step lim codec room c op).1) := by
  cases h with
  | @memory s hm hs =>
    have hfollows : Mirrors.Follows (s.step lim codec op) _ := hm.step_follows op
    refine ⟨_, true, .memory hfollows.2 (hs.moves (step_moves ..)), fun _ => ?_⟩
    show (s.step lim codec op).1.toOption.map Outcome.seen = _
    rw [hfollows.1, (step_effect ..).seen]
  | @bolt rest hs hn =>
  obtain ⟨hdb, hresult⟩ := @step_database rest lim codec L hs hn commits op
  have hmoves := step_moves lim codec (room rest.bolt L) commits L op
  refine ⟨room rest.bolt L, commits, ?_, hresult⟩
  show Holds lim _ (.bolt ((L.database rest).step lim codec commits op).2)
  rw [hdb]
  exact .bolt (hs.moves hmoves) (hn.moves hmoves)

/-- The result tells the change, whatever cursor a scan had. -/
lemma change_eq (commits : Bool) (op : Op) : ∃ L', Holds lim L' (st.step lim codec commits op).2 ∧
      L'.view = L.view.apply spell (change op (st.step lim codec commits op).1.toOption) := by
  obtain ⟨room, c, hholds, hresult⟩ := h.step codec commits op
  refine ⟨_, hholds, ?_⟩
  rw [(step_effect lim codec room c L op).view]
  have hseen : ∀ out : Option Outcome, change op (out.map Outcome.seen) = change op out := by
    intro out
    rcases out with _ | out
    · rfl
    cases op <;> cases out <;> try rfl
    all_goals
      rename_i applied _
      cases applied <;> rfl
  cases op with
  | scan p keyPrefix cursor limit maxBytes => rfl
  | _ => rw [← hresult trivial, hseen]

lemma getVersioned {p k : Bytes} (hp : p ≠ []) (hk : k ≠ []) :
    st.getVersioned p k = .ok (match L.find? p k with
      | none => .got [] [] false
      | some r => .got r.value (formatUint r.version) true) := by
  have hne : ¬ (p = [] ∨ k = []) := by simp [hp, hk]
  cases h with
  | @memory s hm hs =>
    show s.getVersioned p k = _
    rw [Memory.getVersioned, if_neg hne, hm.value, hm.version_eq, versionOf]
    cases L.find? p k <;> rfl
  | @bolt rest hs hn =>
  have hget := @getVersioned_database rest lim L hs p k
  rw [if_neg hne] at hget
  exact toOption_eq_some.mp hget

/-- A scan shows entries the plugin holds. -/
lemma scan_shows {p keyPrefix cursor : Bytes} {limit maxBytes : Int}
    (hout : (st.step lim codec commits (.scan p keyPrefix cursor limit maxBytes)).1 = .ok out) :
    ∃ es next, out = .page es next ∧
      ∀ e ∈ es, ∃ r, L.find? p e.key = some r ∧ e.version = formatUint r.version := by
  -- either backend fills the page from entries of the plugin
  have hfill : ∃ (m : List (Sigma fun _ : Bytes => Record)) (page : List PageEntry × Bool),
      (∀ e ∈ m, e ∈ (L.pluginOf p).entries) ∧
      fillPage limit maxBytes [] 0 (m.map pageEntry) = .ok page ∧
      out = finishPage codec p keyPrefix page := by
    cases h with
    | @memory s hm hs =>
      obtain ⟨last, -, hscan⟩ := bind_eq_ok.mp hout
      unfold Memory.scanMemory at hscan
      simp only [hm.scanMemory_entries] at hscan
      obtain ⟨page, hpage, hscan⟩ := bind_eq_ok.mp hscan
      cases hscan
      exact ⟨_, page, fun e he => mem_of_mem_filter he, hpage, rfl⟩
    | @bolt rest hs hn =>
    obtain ⟨last, -, page, hpage, hscan⟩ := bind₂_eq_ok.mp hout
    cases hscan
    rw [bucketOf_database, seekFrom_map, fillPageTx_eq] at hpage
    · exact ⟨_, page, fun e he =>
        mem_of_mem_filter ((takeWhile_sublist _).subset he), hpage, rfl⟩
    · intro e he
      have hfind : L.find? p e.1 = some e.2 := OrdMap.mem_entries_iff.mp (mem_of_mem_filter he)
      exact (hs.record p e.1 e.2 hfind).2.2.1
  obtain ⟨m, ⟨es, more⟩, hm, hpage, rfl⟩ := hfill
  obtain ⟨taken, left, hsplit, rfl, -⟩ := fillPage_eq_ok hpage
  have hentries : ∀ e ∈ es, ∃ r, L.find? p e.key = some r ∧ e.version = formatUint r.version := by
    intro e he
    have hmem : e ∈ m.map pageEntry := by
      rw [hsplit]
      exact mem_append_left _ he
    obtain ⟨x, hx, rfl⟩ := mem_map.mp hmem
    exact ⟨x.2, OrdMap.mem_entries_iff.mp (hm x hx), rfl⟩
  obtain ⟨next, hnext, -⟩ := finishPage_eq codec p keyPrefix es more
  exact ⟨es, next, hnext, hentries⟩

/-- A call that succeeds, as an effect on the ledger. -/
lemma effect {op : Op} (hout : (st.step lim codec commits op).1 = .ok out)
    (halign : AlignedCursor codec op) :
    ∃ room L', Effect lim codec room L op (some out.seen) L' := by
  obtain ⟨room, c, -, hresult⟩ := h.step codec commits op
  have hseen := hresult halign
  rw [hout] at hseen
  exact ⟨room, _, hseen ▸ step_effect lim codec room c L op⟩

/-- What a result shows is in the ledger, or was just written. -/
lemma shows {op : Op} (hout : (st.step lim codec commits op).1 = .ok out) (hw : w ∈ out.versions) :
    (∃ key b, L.view.entry key = some (w, b)) ∨ out = .stored true w := by
  cases op with
  | scan p keyPrefix cursor limit maxBytes =>
    obtain ⟨es, next, rfl, hes⟩ := h.scan_shows hout
    obtain ⟨e, he, rfl⟩ := mem_map.mp hw
    obtain ⟨r, hr, hversion⟩ := hes e he
    exact .inl ⟨(p, e.key), r.value, by rw [view_entry, hr, hversion]; rfl⟩
  | _ =>
  obtain ⟨room, L', heffect⟩ := h.effect hout trivial
  rw [← out.versions_seen] at hw
  exact (heffect.shows (by nofun) hw).imp_right Outcome.eq_of_seen

end

end Holds

/-! ## What is not applied changes nothing -/

lemma Memory.step_unapplied {s : Memory} {op : Op} (h : Unapplied (s.step lim codec op).1) :
    (s.step lim codec op).2 = s := by
  have hset : ∀ p k v expected conditional, Unapplied (s.set lim p k v expected conditional).1 →
      (s.set lim p k v expected conditional).2 = s := by
    intro p k v expected conditional
    unfold Memory.set
    cases validateWrite lim p k v with
    | error err => exact fun _ => rfl
    | ok u =>
    unfold setMemory
    dsimp only
    split_ifs <;> first | exact fun _ => rfl | exact False.elim
  cases op with
  | set p k v => exact hset p k v none false h
  | compareAndSet p k v expected => exact hset p k v expected true h
  | delete p k =>
    revert h
    show Unapplied (s.delete p k).1 → (s.delete p k).2 = s
    unfold delete
    split_ifs
    · exact fun _ => rfl
    · cases s.value? p k with
      | none => exact fun _ => rfl
      | some value => exact False.elim
  | compareAndDelete p k expected =>
    revert h
    show Unapplied (s.compareAndDelete p k expected).1 → (s.compareAndDelete p k expected).2 = s
    unfold compareAndDelete
    split_ifs <;> first | exact fun _ => rfl | exact False.elim
  | getVersioned | keys | scan | len | totalBytes => rfl

lemma Unapplied.seen {r : Result} (h : Unapplied r) : r.toOption.map Outcome.seen ∈
      [none, some (.stored false []), some (.comparedAndDeleted false)] := by
  rcases r with _ | ⟨_ | ⟨_ | _, _⟩ | _ | ⟨_ | _⟩ | _ | _ | _ | _⟩ <;>
    first | exact h.elim | simp [Except.toOption, Outcome.seen]

lemma Holds.unapplied {L : Ledger} {st : Store} (h : Holds lim L st) {op : Op}
    (hr : Unapplied (st.step lim codec commits op).1) : (st.step lim codec commits op).2 = st := by
  cases h with
  | @memory s hm hs => exact congrArg Store.memory (Memory.step_unapplied hr)
  | @bolt rest hs hn =>
  obtain ⟨hdb, hresult⟩ := @step_database rest lim codec L hs hn commits op
  show Store.bolt ((L.database rest).step lim codec commits op).2 = _
  cases op with
  | scan => rfl
  | _ => rw [hdb, (step_effect ..).unapplied (hresult trivial ▸ hr.seen)]

/-! ## Runs -/

section runs

variable {lim : Limits} {codec : CursorCodec} {L L₀ : Ledger} {start st : Store} {calls : List Call}

lemma Opened.holds (h : Opened lim st) : ∃ L, Holds lim L st := by
  cases h with
  | memory => exact ⟨empty, .memory mirrors_empty (sound_empty lim)⟩
  | bolt hkept hopened =>
    obtain ⟨L, rest, rfl, hs, hn⟩ := ledger_of_initializeStore hkept hopened
    exact ⟨L, .bolt hs hn⟩

/-- What a run leaves behind: a ledger, and calls that agree with it. -/
structure Known (L₀ : Ledger) (calls : List Call) (L : Ledger) : Prop where
  view : L.view = L₀.view.run spell (calls.map Call.change)
  shown : ∀ c ∈ calls, ∀ out, c.result = .ok out → ∀ w ∈ out.versions,
    ∃ n, n ≤ L.view.counter ∧ w = spell n
  stored : ∀ before c after, calls = before ++ c :: after → ∀ w, c.result = .ok (.stored true w) →
    w = spell ((L₀.view.run spell (before.map Call.change)).counter + 1)

lemma Holds.stored (h : Holds lim L st) {op : Op}
    (hout : (st.step lim codec commits op).1 = .ok (.stored true w)) :
    ∃ (room : Bytes → Bytes → Bytes → Bool) (p k v : Bytes) (expected : Option Bytes)
      (conditional : Bool), Applied lim (room p k v) L p k v expected conditional ∧
      op = writeOp p k v expected conditional ∧ w = spell (L.view.counter + 1) := by
  cases op with
  | scan p keyPrefix cursor limit maxBytes =>
    obtain ⟨es, next, hpage, -⟩ := h.scan_shows hout
    cases hpage
  | _ =>
    obtain ⟨room, L', heffect⟩ := h.effect hout trivial
    exact ⟨room, heffect.stored_version⟩

/-- **What a run knows**, by induction over its calls. -/
theorem Run.known (h₀ : Holds lim L₀ start) (h : Run lim codec start calls st) :
    ∃ L, Holds lim L st ∧ Known L₀ calls L := by
  induction h with
  | nil =>
    refine ⟨L₀, h₀, rfl, by simp, ?_⟩
    intro before c after hsplit
    simp at hsplit
  | @snoc calls st hrun commits op ih =>
  obtain ⟨L, hholds, hknown⟩ := ih
  obtain ⟨L', hholds', hview⟩ := @hholds.change_eq lim codec L st commits op
  have hcounter : L.view.counter ≤ L'.view.counter := by
    rw [hview]
    exact counter_le_apply _
  refine ⟨L', hholds', ?_, ?_, ?_⟩
  · rw [map_append, map_singleton, run_snoc, ← hknown.view]
    exact hview
  · intro c hc out hout w hw
    rcases mem_append.mp hc with hc | hc
    · obtain ⟨n, hn, hspell⟩ := hknown.shown c hc out hout w hw
      exact ⟨n, by omega, hspell⟩
    cases mem_singleton.mp hc
    rcases hholds.shows hout hw with ⟨key, b, hentry⟩ | rfl
    · obtain ⟨n, hn, hspell⟩ := hholds.sound.drawn key w b hentry
      exact ⟨n, by omega, hspell⟩
    obtain ⟨room, p, k, v, expected, conditional, -, rfl, hspell⟩ := hholds.stored hout
    refine ⟨_, ?_, hspell⟩
    replace hout : (st.step lim codec commits _).1 = .ok (.stored true w) := hout
    rw [hview, hout]
    cases conditional <;> exact Nat.le_refl _
  · intro before c after hsplit w hw
    rcases eq_nil_or_concat after with rfl | ⟨after, last, rfl⟩
    · obtain ⟨rfl, hlast⟩ := append_inj' hsplit rfl
      cases hlast
      obtain ⟨_, _, _, _, _, _, -, -, hspell⟩ := hholds.stored hw
      rw [← hknown.view, hspell]
    · rw [concat_eq_append, ← cons_append, ← append_assoc] at hsplit
      exact hknown.stored before c after (append_inj' hsplit rfl).1 w hw

/-- The key was written with that version, in the run or before it, and nothing touched
it since. -/
def WrittenWith (start : Store) (calls : List Call) (p k version value : Bytes) : Prop :=
  (start.getVersioned p k = .ok (.got value version true) ∧
      ∀ c ∈ calls, ¬ c.change.Touches (p, k)) ∨
    ∃ before c after, calls = before ++ c :: after ∧ c.change = .write (p, k) value ∧
      c.result = .ok (.stored true version) ∧ ∀ c' ∈ after, ¬ c'.change.Touches (p, k)

lemma stored_of_change {c : Call} {key : Bytes × Bytes} {b : Bytes}
    (h : c.change = .write key b) : ∃ w, c.result = .ok (.stored true w) := by
  obtain ⟨op, result⟩ := c
  cases op <;> rcases result with _ | ⟨_ | ⟨_ | _, _⟩ | _ | ⟨_ | _⟩ | _ | _ | _ | _⟩ <;>
    first | exact ⟨_, rfl⟩ | cases h

variable {p k version value : Bytes}

lemma Holds.got {L : Ledger} (h : Holds lim L st)
    (hentry : L.view.entry (p, k) = some (version, value)) :
    st.getVersioned p k = .ok (.got value version true) := by
  obtain ⟨r, hr, heq⟩ := map_eq_some_iff.mp hentry
  cases heq
  have hp := (h.sound.plugin p _ (L.plugins_find?_of_find? hr)).1
  rw [h.getVersioned hp (h.sound.record p k r hr).1, hr]

lemma Known.writtenWith (h₀ : Holds lim L₀ start) (h : Known L₀ calls L)
    (hentry : L.view.entry (p, k) = some (version, value)) :
    WrittenWith start calls p k version value := by
  rw [h.view] at hentry
  rcases entry_run hentry with ⟨hstart, huntouched⟩ | ⟨before, after, hsplit, hversion, huntouched⟩
  · exact .inl ⟨h₀.got hstart, fun c hc => huntouched _ (mem_map_of_mem hc)⟩
  obtain ⟨before, rest, rfl, rfl, hrest⟩ := map_eq_append_iff.mp hsplit
  obtain ⟨c, after, rfl, hchange, rfl⟩ := map_eq_cons_iff.mp hrest
  obtain ⟨w, hw⟩ := stored_of_change hchange
  have hspell := h.stored before c after rfl w hw
  rw [hversion, ← hspell]
  exact .inr ⟨before, c, after, rfl, hchange, hw, fun c' hc' => huntouched _ (mem_map_of_mem hc')⟩

/-- **Compare-and-set never loses an update.**  Whatever calls came before on a store
that was opened, in whatever order: a write that is applied takes a version greater
than all that were returned; a conditional write or deletion is applied only while
the key holds the value written with the expected version, untouched since, or is
absent as expected; and a call that fails or is not applied changes nothing. -/
theorem compareAndSet_no_lost_update (hopened : Opened lim start)
    (hrun : Run lim codec start calls st) (commits : Bool) (op : Op) :
    (∀ w, (st.step lim codec commits op).1 = .ok (.stored true w) → ∃ n : UInt64,
      w = formatUint n ∧ ∀ c ∈ calls, ∀ out, c.result = .ok out → ∀ w' ∈ out.versions,
        ∃ m : UInt64, w' = formatUint m ∧ m < n) ∧
    (∀ p k v expected w, op = .compareAndSet p k v (some expected) →
      (st.step lim codec commits op).1 = .ok (.stored true w) →
      ∃ value, st.getVersioned p k = .ok (.got value expected true) ∧
        WrittenWith start calls p k expected value) ∧
    (∀ p k expected, op = .compareAndDelete p k expected →
      (st.step lim codec commits op).1 = .ok (.comparedAndDeleted true) →
      ∃ value, st.getVersioned p k = .ok (.got value expected true) ∧
        WrittenWith start calls p k expected value) ∧ (∀ p k v w, op = .compareAndSet p k v none →
      (st.step lim codec commits op).1 = .ok (.stored true w) →
      st.getVersioned p k = .ok (.got [] [] false)) ∧
    (Unapplied (st.step lim codec commits op).1 → (st.step lim codec commits op).2 = st) := by
  obtain ⟨L₀, h₀⟩ := hopened.holds
  obtain ⟨L, hholds, hknown⟩ := hrun.known h₀
  have hheld : ∀ p k expected, L.versionOf p k = some expected →
      ∃ value, st.getVersioned p k = .ok (.got value expected true) ∧
        WrittenWith start calls p k expected value := by
    intro p k expected hversion
    obtain ⟨r, hr, rfl⟩ := map_eq_some_iff.mp hversion
    have hentry : L.view.entry (p, k) = some (formatUint r.version, r.value) := by
      rw [view_entry, hr]
      rfl
    exact ⟨r.value, hholds.got hentry, hknown.writtenWith h₀ hentry⟩
  refine ⟨?_, ?_, ?_, ?_, hholds.unapplied⟩
  · intro w hw
    obtain ⟨room, p, k, v, expected, conditional, happlied, -, hspell⟩ := hholds.stored hw
    have hnext := toNat_next happlied.counter
    refine ⟨L.counter + 1, ?_, ?_⟩
    · exact hspell
    · intro c hc out hout w' hw'
      obtain ⟨m, hm, hspell'⟩ := hknown.shown c hc out hout w' hw'
      have hlt := L.counter.toNat_lt
      change m ≤ L.counter.toNat at hm
      refine ⟨ofNat m, hspell', ?_⟩
      rw [lt_iff_toNat_lt, toNat_ofNat_of_lt' (show m < 2 ^ 64 by omega)]
      omega
  · rintro p k v expected w rfl hw
    obtain ⟨_, _, _, _, _, _ | _, happlied, ⟨⟩, -⟩ := hholds.stored hw
    have hcurrent := happlied.current
    cases hversion : L.versionOf p k with
    | none =>
      rw [hversion] at hcurrent
      cases hcurrent
    | some version =>
    rw [hversion] at hcurrent
    obtain rfl : expected = version := by simpa [conflicts] using hcurrent
    exact hheld p k _ hversion
  · rintro p k expected rfl hw
    obtain ⟨room, L', heffect⟩ := hholds.effect hw trivial
    exact hheld p k _ (heffect.deleted_version rfl)
  · rintro p k v w rfl hw
    obtain ⟨_, _, _, _, _, _ | _, happlied, ⟨⟩, -⟩ := hholds.stored hw
    have hcurrent := happlied.current
    cases hfind : L.find? p k with
    | none => rw [hholds.getVersioned happlied.plugin happlied.key, hfind]
    | some r =>
      rw [versionOf, hfind] at hcurrent
      cases hcurrent

/-- The calls some operations make, each with whether its commit succeeds, and the store
they leave. -/
def sampleRun (start : Store) (ops : List (Bool × Op)) : List Call × Store :=
  ops.foldl (fun r op =>
    let out := r.2.step (.new ⟨0, 0, 0⟩) plainCodec op.1 op.2
    (r.1 ++ [⟨op.2, out.1⟩], out.2)) ([], start)

/-- A write to one key, conditional on version 1. -/
def overwrite (value : String) : Op :=
  .compareAndSet (utf8 "p") (utf8 "k") (utf8 value) (some (utf8 "1"))

/-- Two writers read version 1 of the key; the second to come is refused and changes
nothing. -/
theorem compareAndSet_no_lost_update_stale :
    let write := (true, Op.set (utf8 "p") (utf8 "k") (utf8 "a"))
    let st := (sampleRun (.memory .empty) [write]).2
    let st' := (sampleRun (.memory .empty) [write, (true, overwrite "b")]).2
    ((st.step (.new ⟨0, 0, 0⟩) plainCodec true (overwrite "b")).1 =
        .ok (.stored true (utf8 "2")) ∧
      ∃ value, st.getVersioned (utf8 "p") (utf8 "k") = .ok (.got value (utf8 "1") true)) ∧
    (st'.step (.new ⟨0, 0, 0⟩) plainCodec true (overwrite "c")).1 = .ok (.stored false []) ∧
      (st'.step (.new ⟨0, 0, 0⟩) plainCodec true (overwrite "c")).2 = st' :=
  ⟨(and_iff_left_of_imp fun happlied =>
      ((compareAndSet_no_lost_update .memory (.snoc .nil true _) true _).2.1 _ _ _ _ _ rfl
        happlied).imp fun _ h => h.1).mpr (by decide +kernel),
    (and_iff_left_of_imp fun hrefused =>
      (compareAndSet_no_lost_update .memory (.snoc (.snoc .nil true _) true _) true _).2.2.2.2
        (by exact (congrArg Unapplied hrefused).mpr trivial)).mpr (by decide +kernel)⟩

/-- How an entry of the abstract map is read. -/
def shownEntry : Option (Bytes × Bytes) → Outcome
  | none => .got [] [] false
  | some (version, value) => .got value version true

/-- **Both backends implement the versioned map.**  From any store that was opened, after
every run, a read shows what the abstract map holds once the calls that reported
success are replayed on it; so a call never shows on a key it does not name. -/
theorem getVersioned_replays (hopened : Opened lim start) :
    ∃ V₀ : Versioned (Bytes × Bytes) Bytes Bytes, ∀ calls st, Run lim codec start calls st →
      ∀ p k, p ≠ [] → k ≠ [] → st.getVersioned p k =
        .ok (shownEntry ((V₀.run spell (calls.map Call.change)).entry (p, k))) := by
  obtain ⟨L₀, h₀⟩ := hopened.holds
  refine ⟨L₀.view, fun calls st hrun p k hp hk => ?_⟩
  obtain ⟨L, hholds, hknown⟩ := hrun.known h₀
  rw [hholds.getVersioned hp hk, ← hknown.view, view_entry]
  cases L.find? p k <;> rfl

/-- Reads after an overwrite whose commit failed and the deletion of another key. -/
theorem getVersioned_replays_failedCommit :
    let r := sampleRun (.bolt (empty.database (.fresh documentedBolt)))
      [(true, .set (utf8 "p") (utf8 "k") (utf8 "a")), (true, .set (utf8 "p") (utf8 "l") (utf8 "b")),
        (false, .set (utf8 "p") (utf8 "k") (utf8 "c")), (true, .delete (utf8 "p") (utf8 "l"))]
    (r.2.getVersioned (utf8 "p") (utf8 "k") = .ok (.got (utf8 "a") (utf8 "1") true) ∧
      r.2.getVersioned (utf8 "p") (utf8 "l") = .ok (.got [] [] false)) ∧
    ∃ V₀ : Versioned (Bytes × Bytes) Bytes Bytes, ∀ k ∈ [utf8 "k", utf8 "l"],
      r.2.getVersioned (utf8 "p") k =
        .ok (shownEntry ((V₀.run spell (r.1.map Call.change)).entry (utf8 "p", k))) :=
  ⟨by decide +kernel,
    (getVersioned_replays (.bolt kept_fresh (initializeStore_fresh _ documentedBolt))).imp
      fun _ h k hk => h _ _ (.snoc (.snoc (.snoc (.snoc .nil _ _) _ _) _ _) _ _) _ _ (by decide)
        (by rintro rfl; revert hk; decide)⟩

end runs

end ToranaEdge.PluginState
