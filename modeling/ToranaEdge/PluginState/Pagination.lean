import Mathlib.Data.Set.Finite.List
import ToranaEdge.Lib.Paging
import ToranaEdge.PluginState.Accounts
import ToranaEdge.PluginState.Equivalence

/-! # Following the cursors of a scan

A reader scans from the empty cursor and follows the cursors it gets, while others
use the store between two pages.  Each page is taken from the ledger of its moment,
past the key its cursor names, so `Paged` says what the reader has seen. -/

namespace ToranaEdge.PluginState

open Ledger List OrdMap

/-! ## Traversals -/

/-- The arguments of a scan but for its cursor. -/
structure Query where
  plugin : Bytes
  keyPrefix : Bytes
  limit : Int
  maxBytes : Int

/-- A page and the store it was read from. -/
structure Page where
  store : Store
  entries : List PageEntry
  next : Bytes

def shownKeys (pages : List Page) : List Bytes :=
  (pages.flatMap Page.entries).map PageEntry.key

def Present (st : Store) (p k : Bytes) : Prop :=
  ∃ v version, st.getVersioned p k = .ok (.got v version true)

namespace Query

def scan (q : Query) (cursor : Bytes) : Op :=
  .scan q.plugin q.keyPrefix cursor q.limit q.maxBytes

/-- Bounds `Scan` accepts, and names that a cursor brings back. -/
structure Valid (q : Query) : Prop where
  plugin : q.plugin ≠ []
  plugin_utf8 : ValidUTF8 q.plugin
  prefix_utf8 : ValidUTF8 q.keyPrefix
  limit : 1 ≤ q.limit ∧ q.limit ≤ 256
  maxBytes : 1 ≤ q.maxBytes

/-- The keys to be shown are UTF-8, and each entry fits on a page. -/
def Fits (q : Query) (st : Store) : Prop :=
  ∀ k v version, st.getVersioned q.plugin k = .ok (.got v version true) → q.keyPrefix <+: k →
    ValidUTF8 k ∧ ((k.length + v.length + version.length : Nat) : Int) ≤ q.maxBytes

/-- The keys to be shown. -/
def keysOf (q : Query) (st : Store) : Set Bytes := {k | q.keyPrefix <+: k ∧ Present st q.plugin k}

end Query

/-- The pages of a reader that follows its cursors; any calls may happen before a page. -/
inductive Traversal (lim : Limits) (codec : CursorCodec) (q : Query) (start : Store) :
    List Page → Store → Bytes → Prop
  | nil : Traversal lim codec q start [] start []
  | page {pages : List Page} {st st' : Store} {cursor : Bytes} {calls : List Call} {commits : Bool}
      {entries : List PageEntry} {next : Bytes} (h : Traversal lim codec q start pages st cursor)
      (unfinished : pages = [] ∨ cursor ≠ []) (run : Run lim codec st calls st') (fits : q.Fits st')
      (scanned : (st'.step lim codec commits (q.scan cursor)).1 = .ok (.page entries next)) :
      Traversal lim codec q start (pages ++ [⟨st', entries, next⟩]) st' next

/-! ## One page -/

section

variable {lim : Limits} {codec : CursorCodec} {L : Ledger} {q : Query} {st : Store}
  {cursor last : Bytes} {passed : Set Bytes}

/-- Where a cursor stands. -/
inductive Position (codec : CursorCodec) (q : Query) : Bytes → Bytes → Set Bytes → Prop
  | start : Position codec q [] [] ∅
  | past (last : Bytes) (utf8 : ValidUTF8 last) (starts : q.keyPrefix <+: last) :
      Position codec q (encodeCursor codec q.plugin q.keyPrefix last) last (Set.Iic last)

section

variable (h : Position codec q cursor last passed)
include h

lemma Position.aligned (hq : q.Valid) : AlignedCursor codec (q.scan cursor) := by
  refine Faithful.aligned ?_ _ _ _ _
  cases h with
  | start => exact .inl rfl
  | past last utf8 starts => exact .inr ⟨_, _, _, rfl, hq.prefix_utf8, utf8, starts⟩

lemma Position.scanStart_eq (hq : q.Valid) :
    scanStart codec q.plugin q.keyPrefix cursor q.limit q.maxBytes = .ok last := by
  have hbounds : ¬ (q.limit < 1 ∨ 256 < q.limit ∨ q.maxBytes < 1) := by
    have := hq.limit
    have := hq.maxBytes
    omega
  rw [scanStart, if_neg hq.plugin, if_neg hbounds, decodeCursor]
  cases h with
  | start => rfl
  | past last utf8 starts =>
  rw [encodeCursor, if_neg (codec.encode_ne_nil _), codec.decode_encode]
  show (if throughJSON q.plugin ≠ q.plugin ∨ throughJSON q.keyPrefix ≠ q.keyPrefix
    then _ else Except.ok (throughJSON last)) = _
  rw [hq.plugin_utf8, hq.prefix_utf8, utf8, if_neg (by simp)]

lemma Position.not_mem_iff {k : Bytes} (hk : k ≠ []) : k ∉ passed ↔ last < k := by
  cases h with
  | start =>
    obtain ⟨b, k, rfl⟩ := exists_cons_of_ne_nil hk
    simp
  | past last utf8 starts => rw [Set.mem_Iic, not_le]

end

lemma Holds.read_iff (h : Holds lim L st) (hq : q.Valid) {k v version : Bytes} :
    st.getVersioned q.plugin k = .ok (.got v version true) ↔
      ∃ r, L.find? q.plugin k = some r ∧ v = r.value ∧ version = formatUint r.version := by
  by_cases hk : k = []
  · have hnone : L.find? q.plugin k = none := by
      cases hfind : L.find? q.plugin k with
      | none => rfl
      | some r => exact absurd hk (h.sound.record _ _ _ hfind).1
    rw [hnone, hk]
    cases st <;> simp [Store.getVersioned, Memory.getVersioned, Database.getVersioned]
  rw [h.getVersioned hq.plugin hk]
  cases L.find? q.plugin k with
  | none => simp
  | some r => simp [eq_comm]

lemma Holds.present_iff (h : Holds lim L st) (hq : q.Valid) {k : Bytes} :
    Present st q.plugin k ↔ ∃ r, L.find? q.plugin k = some r := by
  simp only [Present, h.read_iff hq]
  exact ⟨fun ⟨_, _, r, hr, _⟩ => ⟨r, hr⟩, fun ⟨r, hr⟩ => ⟨_, _, r, hr, rfl, rfl⟩⟩

lemma mem_after_iff {p keyPrefix : Bytes} {e : PageEntry} :
    e ∈ L.after p keyPrefix last ↔ keyPrefix <+: e.key ∧ last < e.key ∧
      ∃ r, L.find? p e.key = some r ∧ e = pageEntry ⟨e.key, r⟩ := by
  simp only [Ledger.after, mem_map, mem_filter, Bool.and_eq_true, decide_eq_true_eq,
    isPrefixOf_iff_prefix]
  constructor
  · rintro ⟨x, ⟨hx, hstarts, hlt⟩, rfl⟩
    exact ⟨hstarts, hlt, x.2, mem_entries_iff.mp hx, rfl⟩
  · rintro ⟨hstarts, hlt, r, hr, he⟩
    exact ⟨⟨e.key, r⟩, ⟨mem_entries_iff.mpr hr, hstarts, hlt⟩, he.symm⟩

lemma keys_after_sorted (L : Ledger) (p keyPrefix last : Bytes) :
    ((L.after p keyPrefix last).map PageEntry.key).Pairwise (· < ·) := by
  rw [Ledger.after, map_map, pairwise_map]
  exact (pairwise_map.mp (L.pluginOf p).keys_sorted).filter _

lemma fillPage_fits {limit maxBytes : Int} {es : List PageEntry}
    (h : ∀ e ∈ es, (e.size : Int) ≤ maxBytes) (out : List PageEntry) (used : Nat) :
    ∃ page, fillPage limit maxBytes out used es = .ok page := by
  induction es generalizing out used with
  | nil => exact ⟨_, rfl⟩
  | cons e es ih =>
  have he := h e (by simp)
  rw [fillPage, if_neg (by omega)]
  split
  · exact ⟨_, rfl⟩
  · exact ih (fun x hx => h x (mem_cons_of_mem _ hx)) _ _

/-- **A scan from a position returns a page** of what is past it. -/
theorem Position.scan (h : Position codec q cursor last passed) (hq : q.Valid)
    (hholds : Holds lim L st) (hfits : q.Fits st) (commits : Bool) :
    ∃ es left next, (st.step lim codec commits (q.scan cursor)).1 = .ok (.page es next) ∧
      L.after q.plugin q.keyPrefix last = es ++ left ∧
      es.length ≤ q.limit ∧ pageBytes es ≤ q.maxBytes ∧
      (left = [] ∧ next = [] ∨ ∃ e, es.getLast? = some e ∧
        next = encodeCursor codec q.plugin q.keyPrefix e.key) := by
  have hsizes : ∀ e ∈ L.after q.plugin q.keyPrefix last, (e.size : Int) ≤ q.maxBytes := by
    intro e he
    obtain ⟨hstarts, -, r, hr, heq⟩ := mem_after_iff.mp he
    have hread := (hholds.read_iff hq).mpr ⟨r, hr, rfl, rfl⟩
    rw [heq]
    exact (hfits _ _ _ hread hstarts).2
  obtain ⟨page, hpage⟩ := @fillPage_fits q.limit _ _ hsizes [] 0
  have hscan : L.scan codec q.plugin q.keyPrefix cursor q.limit q.maxBytes =
      some (finishPage codec q.plugin q.keyPrefix page) := by
    rw [Ledger.scan, h.scanStart_eq hq]
    show (fillPage q.limit q.maxBytes [] 0 (L.after q.plugin q.keyPrefix last)).toOption >>= _ = _
    rw [hpage]
    rfl
  obtain ⟨last', es, left, next, hstart, hsplit, hout, hlimit, hbytes, hcursor⟩ :=
    scan_eq_some hscan
  rw [h.scanStart_eq hq] at hstart
  cases hstart
  refine ⟨es, left, next, ?_, hsplit, hlimit, hbytes, ?_⟩
  · obtain ⟨room, c, -, hresult⟩ := hholds.step codec commits (q.scan cursor)
    have hsame := (hresult (h.aligned hq)).trans (hscan.trans (congrArg some hout))
    obtain ⟨out, hok, hseen⟩ := Option.map_eq_some_iff.mp hsame
    rw [Attempt.toOption_eq_some.mp hok]
    rcases out with _ | ⟨_ | _, _⟩ | _ | _ | _ | _ | _ | _ <;> cases hseen
    rfl
  · rcases hcursor with hdone | ⟨-, hlast⟩
    · exact .inl hdone
    · exact .inr hlast

/-! ## All pages -/

/-- A page with the keys it was taken from. -/
def Query.paged (q : Query) (page : Page) : Set Bytes × List Bytes :=
  (q.keysOf page.store, page.entries.map PageEntry.key)

lemma Query.shown_paged (q : Query) (pages : List Page) :
    Paged.shown (pages.map q.paged) = shownKeys pages := by
  rw [Paged.shown, shownKeys, flatMap_map, map_flatMap]
  rfl

lemma shownKeys_snoc (pages : List Page) (page : Page) :
    shownKeys (pages ++ [page]) = shownKeys pages ++ page.entries.map PageEntry.key := by
  simp [shownKeys]

/-- What holds of a reader between two pages; it is done, or its cursor has a position. -/
structure Reading (lim : Limits) (codec : CursorCodec) (q : Query) (pages : List Page)
    (cursor : Bytes) (passed : Set Bytes) : Prop where
  paged : Paged (pages.map q.paged) passed
  bounded : ∀ page ∈ pages, page.entries.length ≤ q.limit ∧ pageBytes page.entries ≤ q.maxBytes
  short : ∀ k ∈ shownKeys pages, k.length ≤ lim.maxTotalBytes
  position : (pages ≠ [] ∧ cursor = [] ∧ passed = Set.univ ∧
      pages.length ≤ (shownKeys pages).length + 1) ∨
    (pages = [] ∨ cursor ≠ []) ∧ pages.length ≤ (shownKeys pages).length ∧
      ∃ last, Position codec q cursor last passed

lemma length_le_total {p k : Bytes} {r : Record} (h : L.find? p k = some r) :
    k.length ≤ L.total := by
  have hkey := le_weight (f := fun k r => entrySize k r.value) h
  have hplugin := le_weight (f := fun _ m => bytes m) (L.plugins_find?_of_find? h)
  have hsize : k.length ≤ entrySize k r.value := Nat.le_add_right _ _
  exact hsize.trans (hkey.trans hplugin)

/-- The step: one more page. -/
lemma Reading.page {pages : List Page} {entries : List PageEntry} {next : Bytes} {commits : Bool}
    (h : Reading lim codec q pages cursor passed) (hq : q.Valid) (hholds : Holds lim L st)
    (hunfinished : pages = [] ∨ cursor ≠ []) (hfits : q.Fits st)
    (hscan : (st.step lim codec commits (q.scan cursor)).1 = .ok (.page entries next)) :
    ∃ passed, Reading lim codec q (pages ++ [⟨st, entries, next⟩]) next passed := by
  rcases h.position with ⟨hpages, hcursor, -⟩ | ⟨-, hcount, last, hpos⟩
  · exact absurd hunfinished (by simp [hpages, hcursor])
  obtain ⟨es, left, next', hpage, hsplit, hlimit, hbytes, hend⟩ := hpos.scan hq hholds hfits commits
  cases hscan.symm.trans hpage
  have hsorted := keys_after_sorted L q.plugin q.keyPrefix last
  rw [hsplit, map_append] at hsorted
  have hkeys : ∀ k, k ∈ entries.map PageEntry.key ++ left.map PageEntry.key ↔
      k ∈ q.keysOf st ∧ k ∉ passed := by
    intro k
    rw [← map_append, ← hsplit]
    simp only [mem_map, mem_after_iff, Query.keysOf, hholds.present_iff hq]
    constructor
    · rintro ⟨e, ⟨hstarts, hlt, r, hr, -⟩, rfl⟩
      exact ⟨⟨hstarts, r, hr⟩, (hpos.not_mem_iff (hholds.sound.record _ _ _ hr).1).mpr hlt⟩
    · rintro ⟨⟨hstarts, r, hr⟩, hnew⟩
      have hlt := (hpos.not_mem_iff (hholds.sound.record _ _ _ hr).1).mp hnew
      exact ⟨pageEntry ⟨k, r⟩, ⟨hstarts, hlt, r, hr, rfl⟩, rfl⟩
  have hbounded : ∀ page ∈ pages ++ [(⟨st, entries, next⟩ : Page)],
      page.entries.length ≤ q.limit ∧ pageBytes page.entries ≤ q.maxBytes := by
    intro page hpage
    rcases mem_append.mp hpage with hpage | hpage
    · exact h.bounded page hpage
    · cases mem_singleton.mp hpage
      exact ⟨hlimit, hbytes⟩
  have hfound : ∀ e ∈ entries, q.keyPrefix <+: e.key ∧ ∃ r, L.find? q.plugin e.key = some r := by
    intro e he
    have hmem : e ∈ L.after q.plugin q.keyPrefix last := by
      rw [hsplit]
      exact mem_append_left _ he
    obtain ⟨hstarts, -, r, hr, -⟩ := mem_after_iff.mp hmem
    exact ⟨hstarts, r, hr⟩
  have hshort : ∀ k ∈ shownKeys (pages ++ [⟨st, entries, next⟩]), k.length ≤ lim.maxTotalBytes := by
    intro k hk
    rw [shownKeys_snoc, mem_append] at hk
    rcases hk with hk | hk
    · exact h.short k hk
    obtain ⟨e, he, rfl⟩ := mem_map.mp hk
    obtain ⟨-, r, hr⟩ := hfound e he
    exact (length_le_total hr).trans hholds.sound.total_le
  have hlengths : (shownKeys (pages ++ [⟨st, entries, next⟩])).length =
      (shownKeys pages).length + entries.length := by
    rw [shownKeys_snoc, length_append, length_map]
  rcases hend with ⟨rfl, rfl⟩ | ⟨e, hlast, rfl⟩
  · rw [map_nil, append_nil] at hsorted
    simp only [map_nil, append_nil] at hkeys
    refine ⟨Set.univ, ?_, hbounded, hshort, .inl ⟨by simp, rfl, rfl, ?_⟩⟩
    · rw [map_append]
      exact h.paged.last hsorted hkeys
    · rw [length_append, length_singleton]
      omega
  have he := mem_of_getLast? hlast
  obtain ⟨hstarts, r, hr⟩ := hfound e he
  have hread := (hholds.read_iff hq).mpr ⟨r, hr, rfl, rfl⟩
  refine ⟨Set.Iic e.key, ?_, hbounded, hshort, .inr ⟨.inr (codec.encode_ne_nil _), ?_, e.key, ?_⟩⟩
  · rw [map_append]
    refine h.paged.through hsorted hkeys ?_
    rw [getLast?_map, hlast]
    rfl
  · have := length_pos_of_mem he
    rw [length_append, length_singleton]
    omega
  · exact .past _ (hfits _ _ _ hread hstarts).1 hstarts

/-- The run: every traversal is such a reading. -/
lemma Traversal.reading {start : Store} {pages : List Page} (hq : q.Valid)
    (h₀ : Holds lim L start) (h : Traversal lim codec q start pages st cursor) :
    (∃ L, Holds lim L st) ∧ ∃ passed, Reading lim codec q pages cursor passed := by
  induction h with
  | nil =>
    refine ⟨⟨L, h₀⟩, ∅, .nil, ?_, ?_, .inr ⟨.inl rfl, le_rfl, [], .start⟩⟩
    · exact fun page hpage => by cases hpage
    · exact fun k hk => by cases hk
  | page h unfinished run fits scanned ih =>
  obtain ⟨⟨L', hholds⟩, passed, hreading⟩ := ih
  obtain ⟨L'', hholds'⟩ := run.held hholds
  exact ⟨⟨L'', hholds'⟩, hreading.page hq hholds' unfinished fits scanned⟩

/-- **Following the cursors visits each key once**: the reader is done after a bounded
number of pages, each within its bounds, and every page is there to be read; the keys
have the prefix and increase across pages; and a key that is there at every page was
returned once by the time no cursor is returned. -/
theorem scan_visits_each_key_once {start st₀ : Store} {calls : List Call}
    (hopened : Opened lim start) (hrun : Run lim codec start calls st₀) (hq : q.Valid) :
    (∃ n, ∀ pages st cursor, Traversal lim codec q st₀ pages st cursor → pages.length ≤ n) ∧
    ∀ pages st cursor, Traversal lim codec q st₀ pages st cursor →
      (∀ calls st' commits, pages = [] ∨ cursor ≠ [] → Run lim codec st calls st' → q.Fits st' →
        ∃ es next, (st'.step lim codec commits (q.scan cursor)).1 = .ok (.page es next)) ∧
      (∀ page ∈ pages, page.entries.length ≤ q.limit ∧ pageBytes page.entries ≤ q.maxBytes) ∧
      (∀ k ∈ shownKeys pages, q.keyPrefix <+: k) ∧ (shownKeys pages).Pairwise (· < ·) ∧
      (pages ≠ [] → cursor = [] → ∀ k, q.keyPrefix <+: k →
        (∀ page ∈ pages, Present page.store q.plugin k) → (shownKeys pages).count k = 1) := by
  obtain ⟨L₀, hstart⟩ := hopened.holds
  obtain ⟨L, h₀⟩ := hrun.held hstart
  constructor
  · -- the keys shown are distinct, and there are finitely many that are short enough
    have : Finite UInt8 := .of_injective UInt8.toFin fun a b h => UInt8.toFin_inj.mp h
    have hfinite := finite_length_le UInt8 lim.maxTotalBytes
    refine ⟨hfinite.toFinset.card + 1, fun pages st cursor h => ?_⟩
    obtain ⟨-, passed, hreading⟩ := h.reading hq h₀
    have hsorted := hreading.paged.sorted
    rw [q.shown_paged] at hsorted
    have hcard : (shownKeys pages).length ≤ hfinite.toFinset.card := by
      rw [← toFinset_card_of_nodup (hsorted.imp ne_of_lt)]
      refine Finset.card_le_card fun k hk => ?_
      rw [Set.Finite.mem_toFinset]
      exact hreading.short k (mem_toFinset.mp hk)
    rcases hreading.position with ⟨-, -, -, hcount⟩ | ⟨-, hcount, -⟩ <;> omega
  · intro pages st cursor h
    obtain ⟨⟨L', hst⟩, passed, hreading⟩ := h.reading hq h₀
    have hsorted := hreading.paged.sorted
    rw [q.shown_paged] at hsorted
    refine ⟨?_, hreading.bounded, ?_, hsorted, ?_⟩
    · intro calls st' commits hunfinished hrun' hfits
      obtain ⟨L'', hst'⟩ := hrun'.held hst
      rcases hreading.position with ⟨hpages, hcursor, -⟩ | ⟨-, -, last, hpos⟩
      · exact absurd hunfinished (by simp [hpages, hcursor])
      · obtain ⟨es, left, next, hscan, -⟩ := hpos.scan hq hst' hfits commits
        exact ⟨es, next, hscan⟩
    · intro k hk
      rw [shownKeys, map_flatMap] at hk
      obtain ⟨page, hpage, hk⟩ := mem_flatMap.mp hk
      exact (hreading.paged.held _ (mem_map_of_mem hpage) k hk).1
    · intro hpages hcursor k hstarts hpresent
      rcases hreading.position with ⟨-, -, rfl, -⟩ | ⟨hunfinished, -⟩
      · have hmem := hreading.paged.covered k trivial (by
          intro page hpage
          obtain ⟨page, hmem, rfl⟩ := mem_map.mp hpage
          exact ⟨hstarts, hpresent page hmem⟩)
        rw [q.shown_paged] at hmem
        exact count_eq_one_of_mem (hsorted.imp ne_of_lt) hmem
      · exact absurd hunfinished (by simp [hpages, hcursor])

end

/-- A store in memory with two keys, both with the prefix that is no UTF-8. -/
def twoKeys : Store :=
  .memory ((brokenPrefix.take 2).foldl (fun s op => (s.step (.new ⟨0, 0, 0⟩) plainCodec op).2) .empty)

/-- Both keys are UTF-8, the first page shows one of them, and the cursor it returns is
refused. -/
theorem brokenPrefix_stops : let cursor := encodeCursor plainCodec (utf8 "p") [0xc3] [0xc3, 0xa9]
    let q : Query := ⟨utf8 "p", [0xc3], 1, 100⟩
    let answer := fun op => (twoKeys.step (.new ⟨0, 0, 0⟩) plainCodec true op).1.toOption
    answer (.keys (utf8 "p")) = some (.keys [[0xc3, 0xa9], [0xc3, 0xab]]) ∧
      ValidUTF8 [0xc3, 0xa9] ∧ ValidUTF8 [0xc3, 0xab] ∧
      answer (q.scan []) = some (.page [⟨[0xc3, 0xa9], utf8 "a", utf8 "1"⟩] cursor) ∧
      answer (q.scan cursor) = none := by
  decide +kernel

/-- A reader of one key at a time. -/
def oneByOne : Query := ⟨utf8 "p", utf8 "", 1, 100⟩

lemma mem_keys_of_got {s : Memory} {p k v version : Bytes}
    (h : s.getVersioned p k = .ok (.got v version true)) : k ∈ (s.dataOf p).keys := by
  unfold Memory.getVersioned at h
  split at h
  · cases h
  · injection h with h
    injection h with _ _ hfound
    exact AList.lookup_isSome.mp hfound

lemma fits_twoKeys : oneByOne.Fits twoKeys := by
  intro k v version hread _
  have hmem : k ∈ [[0xc3, 0xab], [0xc3, 0xa9]] := mem_keys_of_got hread
  have hvalues : ∀ k ∈ [[0xc3, 0xab], [0xc3, 0xa9]],
      ∃ e ∈ [(utf8 "a", utf8 "1"), (utf8 "b", utf8 "2")],
      twoKeys.getVersioned oneByOne.plugin k = .ok (.got e.1 e.2 true) ∧ ValidUTF8 k ∧
        ((k.length + e.1.length + e.2.length : Nat) : Int) ≤ oneByOne.maxBytes := by decide +kernel
  obtain ⟨e, -, hvalue, hsize⟩ := hvalues k hmem
  cases hread.symm.trans hvalue
  exact hsize

/-- Two pages with one key each. -/
theorem scan_visits_each_key_once_twoPages : ∃ pages st,
    Traversal (.new ⟨0, 0, 0⟩) plainCodec oneByOne twoKeys pages st [] ∧ pages.length = 2 ∧
      ∀ k ∈ [[0xc3, 0xa9], [0xc3, 0xab]], (shownKeys pages).count k = 1 := by
  have hfirst : (twoKeys.step (.new ⟨0, 0, 0⟩) plainCodec true (oneByOne.scan [])).1 =
      .ok (.page [⟨[0xc3, 0xa9], utf8 "a", utf8 "1"⟩]
        (encodeCursor plainCodec (utf8 "p") [] [0xc3, 0xa9])) := by decide +kernel
  have hsecond : (twoKeys.step (.new ⟨0, 0, 0⟩) plainCodec true
      (oneByOne.scan (encodeCursor plainCodec (utf8 "p") [] [0xc3, 0xa9]))).1 =
      .ok (.page [⟨[0xc3, 0xab], utf8 "b", utf8 "2"⟩] []) := by decide +kernel
  have hpages := Traversal.page (.page .nil (.inl rfl) .nil fits_twoKeys hfirst)
    (.inr (by decide +kernel)) .nil fits_twoKeys hsecond
  have hcount := ((scan_visits_each_key_once .memory ((Run.nil.snoc true _).snoc true _)
    ⟨by decide +kernel, by decide +kernel, by decide +kernel, by decide, by decide⟩).2 _ _ _
      hpages).2.2.2.2 (by simp) rfl
  have hpresent : ∀ k ∈ [[0xc3, 0xa9], [0xc3, 0xab]], Present twoKeys (utf8 "p") k := by
    simp only [forall_mem_cons, not_mem_nil, false_imp_iff, implies_true, and_true]
    exact ⟨⟨utf8 "a", utf8 "1", by decide +kernel⟩, ⟨utf8 "b", utf8 "2", by decide +kernel⟩⟩
  refine ⟨_, _, hpages, rfl, fun k hk => hcount k nil_prefix fun page hpage => ?_⟩
  have hstore : page.store = twoKeys := by
    revert page
    simp
  rw [hstore]
  exact hpresent k hk

end ToranaEdge.PluginState
