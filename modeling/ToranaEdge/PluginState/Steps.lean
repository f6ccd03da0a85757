import ToranaEdge.PluginState.Bolt

/-! # Calls on the database are calls on the ledger -/

namespace ToranaEdge.PluginState

open Ledger List Attempt Database OrdMap Outcome

/-- A call's results as a caller sees them: a write that is not applied has no version. -/
def Outcome.seen : Outcome → Outcome
  | .stored false _ => .stored false []
  | out => out

/-- The last key a cursor names has the prefix of the scan. -/
def AlignedCursor (codec : CursorCodec) : Op → Prop
  | .scan p keyPrefix cursor limit maxBytes =>
    ∀ last, scanStart codec p keyPrefix cursor limit maxBytes = .ok last →
      last = [] ∨ keyPrefix <+: last
  | _ => True

/-- The bytes of some entries on a page. -/
def pageBytes (es : List PageEntry) : Nat := (es.map PageEntry.size).sum

variable {limit maxBytes : Int}

/-- **A page** is the front of what is left to show: as long as the bounds allow, and
not empty unless nothing is left. -/
theorem fillPage_eq_ok {out es page : List PageEntry} {used : Nat}
    {more : Bool} (h : fillPage limit maxBytes out used es = .ok (page, more)) :
    ∃ taken left, es = taken ++ left ∧ page = out ++ taken ∧ (more = true ↔ left ≠ []) ∧
      (taken ≠ [] → page.length ≤ limit ∧ used + pageBytes taken ≤ maxBytes) ∧
      (out = [] → used = 0 → 1 ≤ limit → es ≠ [] → taken ≠ []) := by
  induction es generalizing out used with
  | nil =>
    cases h
    exact ⟨[], [], rfl, by simp, by simp, by simp, by simp⟩
  | cons e es ih =>
  obtain ⟨hfirst, h⟩ := guard_eq_ok.mp h
  rcases ite_eq_iff.mp h with ⟨hfull, h⟩ | ⟨hroom, h⟩
  · cases h
    refine ⟨[], e :: es, rfl, by simp, by simp, by simp, ?_⟩
    -- the first entry of a page is refused or fits
    rintro rfl rfl hlimit -
    rw [not_and] at hfirst
    have := hfirst rfl
    simp only [length_nil] at hfull
    omega
  obtain ⟨taken, left, rfl, rfl, hmore, hbounds, -⟩ := ih h
  refine ⟨e :: taken, left, rfl, by simp, hmore, fun _ => ?_, by simp⟩
  have hbytes : pageBytes (e :: taken) = e.size + pageBytes taken := by simp [pageBytes]
  by_cases htaken : taken = []
  · subst htaken
    simp only [pageBytes, map_nil, sum_nil, append_nil, length_append,
      length_singleton, map_cons, sum_cons] at hroom ⊢
    omega
  · obtain ⟨hlength, hused⟩ := hbounds htaken
    exact ⟨hlength, by omega⟩

namespace Ledger

variable {rest : Database} {lim : Limits} {codec : CursorCodec} {L : Ledger}
  {p k v keyPrefix : Bytes} {commits : Bool}

/-! ## Pages -/

/-- The entries of a bucket whose records can all be read. -/
lemma fillPageTx_eq {es : List (Sigma fun _ : Bytes => Record)}
    (hread : ∀ e ∈ es, e.2.version ≠ 0) (out : List PageEntry) (used : Nat) :
    fillPageTx limit maxBytes keyPrefix out used (es.map fun e => ⟨e.1, e.2.encode⟩) =
      fillPage limit maxBytes out used
        ((es.takeWhile fun e => keyPrefix.isPrefixOf e.1).map pageEntry) := by
  induction es generalizing out used with
  | nil => rfl
  | cons e es ih =>
  obtain ⟨hhead, hrest⟩ := forall_mem_cons.mp hread
  rw [map_cons, fillPageTx]
  by_cases hprefix : keyPrefix.isPrefixOf e.1 = true
  · have hentry : Database.pageEntry ⟨e.1, e.2.encode⟩ = .ok (pageEntry e) := by
      unfold Database.pageEntry
      rw [show decodeRecord e.2.encode = _ from decodeRecord_encodeRecord hhead e.2.value]
      rfl
    rw [if_pos hprefix, hentry, takeWhile_cons, if_pos hprefix, map_cons, fillPage]
    show (if _ then _ else if _ then _ else _) = _
    rw [ih hrest]
  · rw [if_neg hprefix, takeWhile_cons, if_neg hprefix]
    rfl

lemma seekFrom_map (m : OrdMap Bytes Record) (keyPrefix last : Bytes) :
    seekFrom (m.map Record.encode) keyPrefix last = (m.entries.filter fun e =>
        if last = [] then decide (keyPrefix ≤ e.1) else decide (last < e.1)).map
          fun e => ⟨e.1, e.2.encode⟩ := by
  have hfilter : ∀ q : Bytes → Bool, (m.map Record.encode).entries.filter (fun e => q e.1) =
      (m.entries.filter fun e => q e.1).map fun e => ⟨e.1, e.2.encode⟩ := by
    intro q
    show (m.entries.map _).filter _ = _
    rw [filter_map]
    rfl
  unfold seekFrom
  by_cases hlast : last = []
  · simp only [if_pos hlast]
    rw [seek_eq_filter]
    exact hfilter fun key => decide (keyPrefix ≤ key)
  simp only [if_neg hlast]
  rw [← hfilter fun key => decide (last < key)]
  refine (seekAfter_eq_filter _ last).trans ?_
  exact filter_congr fun e _ => decide_eq_decide.mpr Iff.rfl

/-- From an aligned cursor on, the entries with the prefix are one run. -/
lemma takeWhile_seek (m : OrdMap Bytes Record) {last : Bytes} (hkeys : ∀ e ∈ m.entries, e.1 ≠ [])
    (halign : last = [] ∨ keyPrefix <+: last) : ((m.entries.filter fun e =>
        if last = [] then decide (keyPrefix ≤ e.1) else decide (last < e.1)).takeWhile
          fun e => keyPrefix.isPrefixOf e.1) =
      m.entries.filter fun e => keyPrefix.isPrefixOf e.1 && decide (last < e.1) := by
  have hfrom : ∀ e, (if last = [] then decide (keyPrefix ≤ e) else decide (last < e)) = true →
      keyPrefix ≤ e := by
    intro e he
    by_cases hlast : last = []
    · rw [if_pos hlast, decide_eq_true_eq] at he
      exact he
    · rw [if_neg hlast, decide_eq_true_eq] at he
      exact (le_of_starts (halign.resolve_left hlast)).trans he.le
  rw [(runs_eq_filter ?_).1, filter_filter]
  · refine filter_congr fun e he => ?_
    rw [Bool.and_eq_decide, Bool.and_eq_decide, decide_eq_decide, isPrefixOf_iff_prefix]
    refine and_congr_right fun hstarts => ?_
    by_cases hlast : last = []
    · subst hlast
      have hpos : ([] : Bytes) < e.1 := by
        cases hkey : e.1 with
        | nil => exact absurd hkey (hkeys e he)
        | cons c rest => exact Lex.nil
      simp [hpos, le_of_starts hstarts]
    · rw [if_neg hlast]
  · refine (m.sorted.filter _).imp_of_mem fun {a b} ha _ hab hb => ?_
    rw [ isPrefixOf_iff_prefix] at hb ⊢
    exact starts_of_between (hfrom a.1 (mem_filter.mp ha).2) hab hb

lemma scan_database (hs : Sound lim L) {cursor : Bytes}
    (halign : AlignedCursor codec (.scan p keyPrefix cursor limit maxBytes)) :
    ((L.database rest).scan codec p keyPrefix cursor limit maxBytes).toOption =
      L.scan codec p keyPrefix cursor limit maxBytes := by
  unfold Database.scan scan
  cases hstart : scanStart codec p keyPrefix cursor limit maxBytes with
  | error err => rfl
  | ok last =>
  have hrecord : ∀ e ∈ (L.pluginOf p).entries, e.1 ≠ [] ∧ e.2.version ≠ 0 := by
    intro e he
    have hfind : L.find? p e.1 = some e.2 := mem_entries_iff.mp he
    exact ⟨(hs.record _ _ _ hfind).1, (hs.record _ _ _ hfind).2.2.1⟩
  have hpage : fillPageTx limit maxBytes keyPrefix [] 0
      (seekFrom ((L.database rest).bucketOf p) keyPrefix last) =
        fillPage limit maxBytes [] 0 (L.after p keyPrefix last) := by
    rw [bucketOf_database, seekFrom_map, fillPageTx_eq, takeWhile_seek]
    · rfl
    · exact fun e he => (hrecord e he).1
    · exact halign last hstart
    · exact fun e he => (hrecord e (mem_of_mem_filter he)).2
  show (fillPageTx limit maxBytes keyPrefix [] 0
      (seekFrom ((L.database rest).bucketOf p) keyPrefix last) >>= _).toOption =
    ((fillPage limit maxBytes [] 0 (L.after p keyPrefix last)).toOption >>= _)
  rw [hpage]
  cases fillPage limit maxBytes [] 0 (L.after p keyPrefix last) with
  | error err | ok page => rfl

/-! ## Calls -/

lemma getVersioned_database (hs : Sound lim L) (p k : Bytes) :
    ((L.database rest).getVersioned p k).toOption = if p = [] ∨ k = [] then none
      else some (match L.find? p k with
        | none => .got [] [] false
        | some r => .got r.value (formatUint r.version) true) := by
  unfold getVersioned
  split
  · rfl
  · rw [readRecord_database hs]
    cases L.find? p k <;> rfl

/-- A call on the database that does what the ledger does. -/
def Follows (rest : Database) (x : Result × Database) (spec : Option Outcome × Ledger) : Prop :=
  x.2 = spec.2.database rest ∧ x.1.toOption.map seen = spec.1

lemma set_database (hs : Sound lim L) (commits : Bool) (p k v : Bytes)
    (expected : Option Bytes) (conditional : Bool) :
    Follows rest ((L.database rest).set lim commits p k v expected conditional)
      (L.write? lim (room rest.bolt L p k v) commits p k v expected conditional) := by
  unfold Database.set write?
  cases validateWrite lim p k v with
  | error err => exact ⟨rfl, rfl⟩
  | ok _ =>
  have htx := @setTx_database rest lim L hs p k v expected conditional
  cases hset : L.set lim (room rest.bolt L p k v) p k v expected conditional with
  | none =>
    rw [hset] at htx
    cases hresult : setTx lim p k v expected conditional (L.database rest) with
    | ok out =>
      rw [hresult] at htx
      cases htx
    | error err =>
      rw [update, hresult]
      cases commits <;> exact ⟨rfl, rfl⟩
  | some out =>
  rw [hset] at htx
  have hresult := toOption_eq_some.mp htx
  obtain ⟨⟨applied, version⟩, L'⟩ := out
  rw [update, hresult]
  cases commits with
  | false => exact ⟨rfl, rfl⟩
  | true =>
  refine ⟨rfl, ?_⟩
  cases applied with
  | false | true => rfl

lemma delete_database (hs : Sound lim L) (hnamed : Named rest.bolt L) (commits : Bool)
    (p k : Bytes) : Follows rest ((L.database rest).delete commits p k) (L.delete? commits p k) := by
  unfold Database.delete delete?
  by_cases hp : p = [] ∨ k = []
  · rw [if_pos hp, if_pos hp]
    exact ⟨rfl, rfl⟩
  · rw [if_neg hp, if_neg hp, update, deleteTx_database hs hnamed p k]
    cases commits <;> exact ⟨rfl, rfl⟩

lemma compareAndDelete_database (hs : Sound lim L) (hnamed : Named rest.bolt L) (commits : Bool)
    (p k expected : Bytes) : Follows rest ((L.database rest).compareAndDelete commits p k expected)
      (L.compareAndDelete? commits p k expected) := by
  unfold Database.compareAndDelete compareAndDelete?
  by_cases hexpected : expected = []
  · rw [if_pos hexpected, if_pos hexpected]
    exact ⟨rfl, rfl⟩
  rw [if_neg hexpected, if_neg hexpected]
  by_cases hp : p = [] ∨ k = []
  · rw [if_pos hp, if_pos hp]
    exact ⟨rfl, rfl⟩
  rw [if_neg hp, if_neg hp, update, compareAndDeleteTx_database hs hnamed p k expected]
  cases commits <;> exact ⟨rfl, rfl⟩

/-- The page, and the cursor of its last key where an entry was left over. -/
lemma finishPage_eq (codec : CursorCodec) (p keyPrefix : Bytes) (out : List PageEntry)
    (more : Bool) : ∃ next, finishPage codec p keyPrefix (out, more) = .page out next ∧
      (next = [] ∧ (more = false ∨ out = []) ∨ more = true ∧ ∃ last, out.getLast? = some last ∧
        next = encodeCursor codec p keyPrefix last.key) := by
  cases more with
  | false => exact ⟨[], rfl, by simp⟩
  | true =>
  cases hlast : out.getLast? with
  | none => exact ⟨[], by simp [finishPage, hlast], by simpa using hlast⟩
  | some last =>
    exact ⟨encodeCursor codec p keyPrefix last.key, by simp [finishPage, hlast], by simp⟩

lemma seen_scan (codec : CursorCodec) (L : Ledger) (p keyPrefix cursor : Bytes)
    (limit maxBytes : Int) : (L.scan codec p keyPrefix cursor limit maxBytes).map seen =
      L.scan codec p keyPrefix cursor limit maxBytes := by
  unfold scan
  cases (scanStart codec p keyPrefix cursor limit maxBytes).toOption with
  | none => rfl
  | some last =>
  show ((fillPage limit maxBytes [] 0 (L.after p keyPrefix last)).toOption >>= _).map _ =
    ((fillPage limit maxBytes [] 0 (L.after p keyPrefix last)).toOption >>= _)
  cases (fillPage limit maxBytes [] 0 (L.after p keyPrefix last)).toOption with
  | none => rfl
  | some page =>
    obtain ⟨next, hnext, -⟩ := finishPage_eq codec p keyPrefix page.1 page.2
    exact congrArg some (by rw [hnext]; rfl)

lemma of_scanStart {p cursor last : Bytes}
    (h : scanStart codec p keyPrefix cursor limit maxBytes = .ok last) :
    p ≠ [] ∧ 1 ≤ limit ∧ limit ≤ 256 ∧ 1 ≤ maxBytes ∧
      decodeCursor codec p keyPrefix cursor = .ok last := by
  obtain ⟨hp, h⟩ := guard_eq_ok.mp h
  rcases ite_eq_iff.mp h with ⟨-, h⟩ | ⟨hbounds, h⟩
  · cases h
  · exact ⟨hp, by omega, by omega, by omega, h⟩

/-- **A page of the ledger**: the front of what is left to show, within the bounds, with
the cursor of its last key unless it shows all. -/
theorem scan_eq_some {p cursor : Bytes} {out : Outcome}
    (h : L.scan codec p keyPrefix cursor limit maxBytes = some out) :
    ∃ last es left next, scanStart codec p keyPrefix cursor limit maxBytes = .ok last ∧
      L.after p keyPrefix last = es ++ left ∧ out = .page es next ∧
      es.length ≤ limit ∧ pageBytes es ≤ maxBytes ∧
      (left = [] ∧ next = [] ∨ left ≠ [] ∧ ∃ e, es.getLast? = some e ∧
        next = encodeCursor codec p keyPrefix e.key) := by
  obtain ⟨last, hlast, h⟩ := Option.bind_eq_some_iff.mp h
  obtain ⟨⟨es, more⟩, hfill, h⟩ := Option.bind_eq_some_iff.mp h
  have hstart := toOption_eq_some.mp hlast
  obtain ⟨-, hlimit, -, hbytes, -⟩ := of_scanStart hstart
  obtain ⟨taken, left, hsplit, rfl, hmore, hbounds, hprogress⟩ :=
    fillPage_eq_ok (toOption_eq_some.mp hfill)
  obtain ⟨next, hnext, hcursor⟩ := finishPage_eq codec p keyPrefix es more
  cases h
  refine ⟨last, es, left, next, hstart, hsplit, hnext, ?_, ?_, ?_⟩
  · by_cases hes : es = []
    · rw [hes]
      exact Int.le_trans (by decide) hlimit
    · exact (hbounds hes).1
  · by_cases hes : es = []
    · rw [hes]
      exact Int.le_trans (by decide) hbytes
    · have := (hbounds hes).2
      omega
  · by_cases hleft : left = []
    · refine .inl ⟨hleft, ?_⟩
      rcases hcursor with ⟨hnil, -⟩ | ⟨htrue, -⟩
      · exact hnil
      · exact absurd hleft (hmore.mp htrue)
    refine .inr ⟨hleft, ?_⟩
    have htrue := hmore.mpr hleft
    rcases hcursor with ⟨-, hfalse | hempty⟩ | ⟨-, hlast⟩
    · rw [htrue] at hfalse
      cases hfalse
    · refine absurd hempty (hprogress rfl rfl hlimit ?_)
      rw [hsplit, hempty]
      simpa using hleft
    · exact hlast

/-- **A call on the database of a sound ledger** leaves the database of the ledger the
call leads to, and returns what the ledger does. -/
theorem step_database (hs : Sound lim L) (hnamed : Named rest.bolt L) (commits : Bool) (op : Op) :
    ((L.database rest).step lim codec commits op).2 =
        ((L.step lim codec (room rest.bolt L) commits op).2.database rest) ∧
      (AlignedCursor codec op → ((L.database rest).step lim codec commits op).1.toOption.map
        seen = (L.step lim codec (room rest.bolt L) commits op).1) := by
  cases op with
  | getVersioned p k =>
    refine ⟨rfl, fun _ => ?_⟩
    show ((L.database rest).getVersioned p k).toOption.map seen = ite _ _ _
    rw [getVersioned_database hs]
    split
    · rfl
    · cases L.find? p k <;> rfl
  | set p k v =>
    exact (set_database hs commits p k v none false).imp_right fun h _ => h
  | compareAndSet p k v expected =>
    exact (set_database hs commits p k v expected true).imp_right fun h _ => h
  | delete p k =>
    exact (delete_database hs hnamed commits p k).imp_right fun h _ => h
  | compareAndDelete p k expected =>
    exact (compareAndDelete_database hs hnamed commits p k expected).imp_right fun h _ => h
  | keys p =>
    refine ⟨rfl, fun _ => ?_⟩
    show some (keys ((L.database rest).keys p)) = some (Outcome.keys _)
    rw [Database.keys, bucketOf_database, keys_map]
  | scan p keyPrefix cursor limit maxBytes =>
    refine ⟨rfl, fun halign => ?_⟩
    show ((L.database rest).scan codec p keyPrefix cursor limit maxBytes).toOption.map seen =
      L.scan codec p keyPrefix cursor limit maxBytes
    rw [scan_database hs halign, seen_scan]
  | len p =>
    refine ⟨rfl, fun _ => ?_⟩
    show some (len ((L.database rest).bucketOf p).size) = some (len _)
    rw [bucketOf_database, size_map]
  | totalBytes =>
    refine ⟨rfl, fun _ => ?_⟩
    show some (totalBytes _) = some (totalBytes _)
    rw [readTotal_database]
    exact congrArg (some <| totalBytes ·) (Int64.toInt_ofNat_of_lt (total_lt hs))

end Ledger

end ToranaEdge.PluginState
