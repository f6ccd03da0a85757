import ToranaEdge.PluginState.History

/-! # The two backends side by side

The same calls on both backends have the same results, as long as bbolt takes every
entry and the last key of a cursor has the prefix it is used with.  The second fails
for a prefix that is not UTF-8: the cursor then carries another prefix. -/

namespace ToranaEdge.PluginState

open Ledger List

/-! ## The same calls -/

/-- The results of calls that all commit. -/
def results (lim : Limits) (codec : CursorCodec) : Store → List Op → List Result
  | _, [] => []
  | st, op :: ops =>
    (st.step lim codec true op).1 :: results lim codec (st.step lim codec true op).2 ops

/-- The same values, found and applied flags and versions, or an error on both sides. -/
def Agree (r r' : Result) : Prop := r.toOption.map Outcome.seen = r'.toOption.map Outcome.seen

instance (r r' : Result) : Decidable (Agree r r') := inferInstanceAs (Decidable (_ = _))

/-- The cursors some results returned. -/
def cursors (earlier : List Result) : List Bytes :=
  earlier.filterMap fun
    | .ok (.page _ cursor) => some cursor
    | _ => none

/-- Keys are UTF-8 and not too long for bbolt; a cursor is empty or came from an earlier
scan. -/
def Proper (bolt : Bolt) (earlier : List Result) : Op → Prop
  | .set _ k _ | .compareAndSet _ k _ _ => ValidUTF8 k ∧ k.length ≤ bolt.maxKeySize
  | .scan _ _ cursor _ _ => cursor = [] ∨ cursor ∈ cursors earlier
  | _ => True

/-- The names of the plugins that are written are not too long for bbolt either, and the
prefixes are UTF-8. -/
def Restrained (bolt : Bolt) : Op → Prop
  | .set p _ _ | .compareAndSet p _ _ _ => p.length ≤ bolt.maxKeySize
  | .scan _ keyPrefix _ _ _ => ValidUTF8 keyPrefix
  | _ => True

/-- Calls that are proper one after the other. -/
def ProperRun (bolt : Bolt) (lim : Limits) (codec : CursorCodec) :
    List Result → Store → List Op → Prop
  | _, _, [] => True
  | earlier, st, op :: ops =>
    Proper bolt earlier op ∧
      ProperRun bolt lim codec (earlier ++ [(st.step lim codec true op).1])
        (st.step lim codec true op).2 ops

variable (bolt : Bolt)

instance (earlier : List Result) (op : Op) : Decidable (Proper bolt earlier op) := by
  cases op <;> unfold Proper <;> infer_instance

instance (op : Op) : Decidable (Restrained bolt op) := by
  cases op <;> unfold Restrained <;> infer_instance

instance (lim : Limits) (codec : CursorCodec) (earlier : List Result) (st : Store) (ops : List Op) :
    Decidable (ProperRun bolt lim codec earlier st ops) := by
  induction ops generalizing earlier st with
  | nil => exact isTrue trivial
  | cons op ops ih =>
    have := ih (earlier ++ [(st.step lim codec true op).1]) (st.step lim codec true op).2
    exact inferInstanceAs (Decidable (_ ∧ _))

/-! ## Cursors -/

/-- A cursor that names a key with its prefix, both as JSON leaves them. -/
def Faithful (codec : CursorCodec) (cursor : Bytes) : Prop :=
  cursor = [] ∨ ∃ p keyPrefix last, cursor = encodeCursor codec p keyPrefix last ∧
    ValidUTF8 keyPrefix ∧ ValidUTF8 last ∧ keyPrefix <+: last

section

variable {bolt} {lim : Limits} {codec : CursorCodec} {L : Ledger}

lemma Faithful.aligned {cursor : Bytes} (h : Faithful codec cursor) (p keyPrefix : Bytes)
    (limit maxBytes : Int) : AlignedCursor codec (.scan p keyPrefix cursor limit maxBytes) := by
  intro last hlast
  replace hlast := (of_scanStart hlast).2.2.2.2
  unfold decodeCursor at hlast
  rcases h with rfl | ⟨p', keyPrefix', last', rfl, hvalid, hlast', hstarts⟩
  · cases hlast
    exact .inl rfl
  unfold encodeCursor at hlast
  rw [if_neg (codec.encode_ne_nil _), codec.decode_encode] at hlast
  rcases ite_eq_iff.mp hlast with ⟨-, h'⟩ | ⟨hsame, hlast⟩
  · cases h'
  rw [not_or, not_not, not_not] at hsame
  cases hlast
  refine .inr ?_
  rw [← hsame.2]
  rw [hvalid, hlast']
  exact hstarts

/-- The keys of the ledger are UTF-8. -/
def Utf8Keys (L : Ledger) : Prop := ∀ p k r, L.find? p k = some r → ValidUTF8 k

lemma Utf8Keys.write (h : Utf8Keys L) {p k v : Bytes} (hk : ValidUTF8 k) :
    Utf8Keys (L.write p k v) := by
  intro p' k' r hr
  rw [find?_write] at hr
  split at hr
  next hkey => exact hkey.2 ▸ hk
  · exact h p' k' r hr

lemma Utf8Keys.remove (h : Utf8Keys L) {p k : Bytes} : Utf8Keys (L.remove p k) := by
  intro p' k' r hr
  rw [find?_remove] at hr
  split at hr
  · cases hr
  · exact h p' k' r hr

/-- The cursor of a page of the ledger. -/
lemma faithful_scan (h : Utf8Keys L) {p keyPrefix cursor : Bytes} {limit maxBytes : Int}
    (hvalid : ValidUTF8 keyPrefix) {es : List PageEntry} {next : Bytes}
    (hscan : L.scan codec p keyPrefix cursor limit maxBytes = some (.page es next)) :
    Faithful codec next := by
  obtain ⟨last, es, left, next, -, hsplit, heq, -, -, hcursor⟩ := scan_eq_some hscan
  cases heq
  rcases hcursor with ⟨-, hnil⟩ | ⟨-, entry, hlast, rfl⟩
  · exact .inl hnil
  have hmem : entry ∈ L.after p keyPrefix last := by
    rw [hsplit]
    exact mem_append_left _ (mem_of_getLast? hlast)
  obtain ⟨e, he, rfl⟩ := mem_map.mp hmem
  obtain ⟨he, hstarts⟩ := mem_filter.mp he
  rw [Bool.and_eq_true, isPrefixOf_iff_prefix] at hstarts
  exact .inr ⟨p, keyPrefix, e.1, rfl, hvalid, h p e.1 e.2 (OrdMap.mem_entries_iff.mp he), hstarts.1⟩

/-! ## Side by side -/

variable {earlier : List Result}

/-- bbolt has room for every entry of a proper call. -/
lemma step_room (hvalue : lim.maxValueBytes + 8 ≤ bolt.maxValueSize) {op : Op}
    (hproper : Proper bolt earlier op) (hrestrained : Restrained bolt op) :
    L.step lim codec (room bolt L) true op = L.step lim codec (fun _ _ _ => true) true op := by
  have hwrite : ∀ p k v expected conditional, k.length ≤ bolt.maxKeySize →
      p.length ≤ bolt.maxKeySize →
      L.write? lim (room bolt L p k v) true p k v expected conditional =
        L.write? lim true true p k v expected conditional := by
    intro p k v expected conditional hk hp
    cases hvalid : validateWrite lim p k v with
    | error err => simp only [write?, hvalid]
    | ok u =>
    obtain ⟨hpne, hkne, hv⟩ := of_validateWrite hvalid
    have hlen : (encodeRecord 0 v).length = 8 + v.length := by
      rw [encodeRecord, length_append, length_putUint64]
    have hentry : Fits bolt k (encodeRecord 0 v) := ⟨hkne, hk, by omega⟩
    have hname : Fits bolt p (putUint64 0) :=
      ⟨hpne, hp, by rw [length_putUint64]; exact bolt.metadata_fits.2⟩
    have hroom : room bolt L p k v = true := by simp [room, hentry, hname]
    rw [hroom]
  cases op with
  | set p k v => exact hwrite p k v none false hproper.2 hrestrained
  | compareAndSet p k v expected => exact hwrite p k v expected true hproper.2 hrestrained
  | _ => rfl

lemma Utf8Keys.effect (h : Utf8Keys L) {op : Op}
    (hproper : Proper bolt earlier op) {room : Bytes → Bytes → Bytes → Bool} {out : Option Outcome}
    {L' : Ledger} (heffect : Effect lim codec room L op out L') : Utf8Keys L' := by
  cases heffect with
  | @stored p k v expected conditional => cases conditional <;> exact h.write hproper.1
  | deleted | comparedAndDeleted => exact h.remove
  | _ => exact h

/-- The induction over the calls: both stores hold the same ledger, and every cursor that
was returned is faithful. -/
lemma results_agree {rest : Database} (hvalue : lim.maxValueBytes + 8 ≤ rest.bolt.maxValueSize)
    {ops : List Op} {s : Memory} (hm : Mirrors s L) (hs : Sound lim L) (hn : Named rest.bolt L)
    (hkeys : Utf8Keys L) (hcursors : ∀ cursor ∈ cursors earlier, Faithful codec cursor)
    (hproper : ProperRun rest.bolt lim codec earlier (.memory s) ops)
    (hrestrained : ∀ op ∈ ops, Restrained rest.bolt op) :
    Forall₂ Agree (results lim codec (.memory s) ops)
      (results lim codec (.bolt (L.database rest)) ops) := by
  induction ops generalizing earlier s L with
  | nil => exact .nil
  | cons op ops ih =>
  obtain ⟨hfirst, hproper⟩ := hproper
  obtain ⟨hrestrainedOp, hrestrained⟩ := forall_mem_cons.mp hrestrained
  have hfollows : Mirrors.Follows (s.step lim codec op) _ := hm.step_follows op
  have heffect := step_effect lim codec (fun _ _ _ => true) true L op
  obtain ⟨hdb, hresult⟩ := @step_database rest lim codec L hs hn true op
  have hmoves := step_moves lim codec (room rest.bolt L) true L op
  rw [step_room hvalue hfirst hrestrainedOp] at hdb hresult hmoves
  have haligned : AlignedCursor codec op := by
    cases op with
    | scan p keyPrefix cursor limit maxBytes =>
      rcases hfirst with rfl | hmem
      · exact Faithful.aligned (.inl rfl) p keyPrefix limit maxBytes
      · exact (hcursors cursor hmem).aligned p keyPrefix limit maxBytes
    | _ => trivial
  refine .cons ?_ ?_
  · show (s.step lim codec op).1.toOption.map Outcome.seen = _
    rw [hfollows.1, heffect.seen]
    exact (hresult haligned).symm
  · show Forall₂ Agree _ (results lim codec (.bolt _) ops)
    rw [hdb]
    refine ih hfollows.2 (hs.moves hmoves) (hn.moves hmoves) (hkeys.effect hfirst heffect) ?_
      hproper hrestrained
    intro cursor hcursor
    rw [cursors, filterMap_append, mem_append] at hcursor
    rcases hcursor with hcursor | hcursor
    · exact hcursors cursor hcursor
    obtain ⟨r, hr, hpage⟩ := mem_filterMap.mp hcursor
    cases mem_singleton.mp hr
    rcases hout : (s.step lim codec op).1 with _ | ⟨_ | _ | _ | _ | _ | ⟨es, next⟩ | _ | _⟩ <;>
      simp only [Store.step, hout] at hpage <;> cases hpage
    rw [← hfollows.1, hout] at heffect
    -- only a scan returns a page
    cases heffect with
    | page hscan => exact faithful_scan hkeys hrestrainedOp hscan

/-- **The two backends are observationally equivalent** on calls that are proper and
restrained, when bbolt takes every value the limit allows. -/
theorem backends_agree {db : Database} {ops : List Op}
    (hopened : Database.initializeStore lim (Database.fresh bolt) = .ok db)
    (hvalue : lim.maxValueBytes + 8 ≤ bolt.maxValueSize)
    (hproper : ProperRun bolt lim codec [] (.memory .empty) ops)
    (hrestrained : ∀ op ∈ ops, Restrained bolt op) :
    Forall₂ Agree (results lim codec (.memory .empty) ops) (results lim codec (.bolt db) ops) := by
  rw [initializeStore_fresh] at hopened
  cases hopened
  refine results_agree hvalue mirrors_empty (sound_empty lim) named_empty ?_ ?_ hproper hrestrained
  · intro p k r hr
    cases hr
  · intro cursor hcursor
    cases hcursor

end

/-- A prefix that is no UTF-8, the first byte of two keys; a third key starts with what
JSON makes of it. -/
def brokenPrefix : List Op :=
  [.set (utf8 "p") [0xc3, 0xa9] (utf8 "a"), .set (utf8 "p") [0xc3, 0xab] (utf8 "b"),
    .set (utf8 "p") [0xef, 0xbf, 0xbd, 0x78] (utf8 "c"), .scan (utf8 "p") [0xc3] [] 1 100,
    .scan (utf8 "p") [0xef, 0xbf, 0xbd]
      (encodeCursor plainCodec (utf8 "p") [0xc3] [0xc3, 0xa9]) 1 100]

/-- With the cursor of such a prefix, the memory backend finds the third key and the
database none. -/
theorem brokenPrefix_diverges :
    ProperRun documentedBolt (.new ⟨0, 0, 0⟩) plainCodec [] (.memory .empty) brokenPrefix ∧
    ¬ Forall₂ Agree (results (.new ⟨0, 0, 0⟩) plainCodec (.memory .empty) brokenPrefix)
      (results (.new ⟨0, 0, 0⟩) plainCodec (.bolt (empty.database (.fresh documentedBolt)))
        brokenPrefix) := by
  decide +kernel

/-- The same keys, in two pages. -/
def twoPages : List Op :=
  brokenPrefix.take 3 ++ [.scan (utf8 "p") [] [] 2 100,
    .scan (utf8 "p") [] (encodeCursor plainCodec (utf8 "p") [] [0xc3, 0xab]) 2 100]

theorem backends_agree_twoPages : Forall₂ Agree
    (results (.new ⟨0, 0, 0⟩) plainCodec (.memory .empty) twoPages)
    (results (.new ⟨0, 0, 0⟩) plainCodec (.bolt (empty.database (.fresh documentedBolt)))
      twoPages) :=
  backends_agree (initializeStore_fresh _ _) (by decide) (by decide +kernel) (by decide +kernel)

end ToranaEdge.PluginState
