import Mathlib.Data.List.Induction
import Mathlib.Data.List.TakeWhile
import ToranaEdge.Wire

/-! # What a plugin prints

The bytes a plugin prints are buffered up to a newline or 64 KiB, and written to
the host's log as lines that start with the plugin's name.  The sink does not
fail. -/

namespace ToranaEdge.PluginLog

open List

/-- A byte that a terminal acts on rather than shows. -/
def isControl (c : UInt8) : Bool := (c < 0x20 && c != 9) || c == 0x7f

def hexDigits : Bytes := utf8 "0123456789abcdef"

def escapeByte (c : UInt8) : Bytes :=
  if isControl c then
    utf8 "\\x" ++ [hexDigits.getD (c.toNat / 16) 0, hexDigits.getD (c.toNat % 16) 0]
  else [c]

def escapeControl (b : Bytes) : Bytes := if b.any isControl then b.flatMap escapeByte else b

lemma escapeControl_eq (b : Bytes) : escapeControl b = b.flatMap escapeByte := by
  unfold escapeControl
  split
  · rfl
  next hnone =>
  have hplain : ∀ c ∈ b, escapeByte c = [c] := by
    intro c hc
    exact if_neg (by simpa using fun h => hnone (any_eq_true.mpr ⟨c, hc, h⟩))
  rw [flatMap_congr hplain, flatMap_singleton']

lemma isControl_escapeControl {b : Bytes} : ∀ c ∈ escapeControl b, isControl c = false := by
  have hbyte : ∀ n < 256, ∀ d ∈ escapeByte (UInt8.ofNat n), isControl d = false := by decide +kernel
  rw [escapeControl_eq]
  intro d hd
  obtain ⟨c, -, hd⟩ := mem_flatMap.mp hd
  rw [← UInt8.ofNat_toNat (x := c)] at hd
  exact hbyte _ c.toNat_lt d hd

/-! ## The writer -/

/-- `prefixWriter`.  `held` is the longest its buffer has been. -/
structure PrefixWriter where
  prefixText : Bytes
  out : Bytes := []
  buf : Bytes := []
  held : Nat := 0

def maxPrefixLineBytes : Nat := 64 <<< 10

def newPrefixWriter (plugin : String) : PrefixWriter where
  prefixText := utf8 "[plugin " ++ utf8 plugin ++ utf8 " stdio] "

namespace PrefixWriter

variable (w : PrefixWriter)

def flushLocked : PrefixWriter :=
  if w.buf = [] then w
  else { w with out := w.out ++ (w.prefixText ++ escapeControl w.buf ++ [10]), buf := [] }

/-- A buffer without room is flushed. -/
def flushFull : PrefixWriter :=
  if maxPrefixLineBytes ≤ w.buf.length then w.flushLocked else w

def copy (p : Bytes) : PrefixWriter :=
  { w with buf := w.buf ++ p, held := max w.held (w.buf.length + p.length) }

variable (w : PrefixWriter)

lemma buf_flushLocked : w.flushLocked.buf = [] := by
  unfold flushLocked
  split
  · assumption
  · rfl

lemma length_flushFull : w.flushFull.buf.length < maxPrefixLineBytes := by
  unfold flushFull
  split
  · rw [buf_flushLocked]
    decide
  · omega

/-- `appendLocked`: the room is checked before each copy, and after it. -/
def appendLocked (w : PrefixWriter) (p : Bytes) : PrefixWriter :=
  if p = [] then w
  else
    appendLocked (w.flushFull.copy (p.take (maxPrefixLineBytes - w.flushFull.buf.length))).flushFull
      (p.drop (maxPrefixLineBytes - w.flushFull.buf.length))
termination_by p.length
decreasing_by
  have hroom := w.length_flushFull
  have hp := length_pos_iff.mpr ‹p ≠ []›
  rw [length_drop]
  omega

/-- `Write`: up to each newline, and then the rest. -/
def write (w : PrefixWriter) (p : Bytes) : PrefixWriter :=
  match _hrest : p.dropWhile (· != 10) with
  | [] => w.appendLocked p
  | _ :: rest => write (w.appendLocked (p.takeWhile (· != 10))).flushLocked rest
termination_by p.length
decreasing_by
  have hle := (dropWhile_sublist (l := p) (· != 10)).length_le
  rw [_hrest, length_cons] at hle
  omega

/-! ## One byte at a time -/

/-- A byte as if it came alone. -/
def put (c : UInt8) : PrefixWriter :=
  if c = 10 then w.flushLocked else (w.copy [c]).flushFull

variable {w} {p : Bytes}

lemma length_put {c : UInt8} : (w.put c).buf.length < maxPrefixLineBytes := by
  unfold put
  split
  · rw [buf_flushLocked]
    decide
  · exact length_flushFull _

section

variable (hw : w.buf.length < maxPrefixLineBytes)
include hw

lemma length_foldl_put : (p.foldl put w).buf.length < maxPrefixLineBytes := by
  induction p generalizing w with
  | nil => exact hw
  | cons c p ih => exact ih length_put

/-- Bytes that fit are copied at once. -/
lemma foldl_put (hp : p ≠ []) (hline : 10 ∉ p) (hfits : w.buf.length + p.length ≤ maxPrefixLineBytes) :
    p.foldl put w = (w.copy p).flushFull := by
  induction p generalizing w with
  | nil => exact absurd rfl hp
  | cons c p ih =>
  obtain ⟨hc, hline⟩ := not_or.mp (mt mem_cons.mpr hline)
  rw [foldl_cons, put, if_neg (Ne.symm hc)]
  cases p with
  | nil => rfl
  | cons d p =>
  have hlength : (w.copy [c]).buf.length = w.buf.length + 1 := length_append
  simp only [length_cons] at hfits
  rw [flushFull, if_neg (by omega), ih (by omega) (by simp) hline (by simp only [length_cons]; omega)]
  have hcopy : (w.copy [c]).copy (d :: p) = w.copy (c :: d :: p) := by
    simp only [copy, append_assoc, singleton_append, length_append, length_cons, length_nil,
      mk.injEq, true_and]
    omega
  rw [hcopy]

lemma appendLocked_eq (hline : 10 ∉ p) : w.appendLocked p = p.foldl put w := by
  fun_induction appendLocked w p with
  | case1 w => rfl
  | case2 w p hp ih =>
  have hfull : w.flushFull = w := if_neg (by omega)
  rw [hfull] at ih ⊢
  have htake : p.take (maxPrefixLineBytes - w.buf.length) ≠ [] := by
    simp only [ne_eq, take_eq_nil_iff, hp, or_false]
    omega
  rw [ih (length_flushFull _) fun h => hline (mem_of_mem_drop h),
    ← foldl_put hw htake (fun h => hline (mem_of_mem_take h)) (by rw [length_take]; omega),
    ← foldl_append, take_append_drop]

lemma write_eq : w.write p = p.foldl put w := by
  fun_induction write w p with
  | case1 w p h =>
    refine appendLocked_eq hw fun hmem => ?_
    simpa using dropWhile_eq_nil_iff.mp h 10 hmem
  | case2 w p c rest h ih =>
  have hline : 10 ∉ p.takeWhile (· != 10) := fun hmem => by simpa using mem_takeWhile_imp hmem
  have hc : c = 10 := by
    have := head?_dropWhile_not (· != 10) p
    rw [h] at this
    simpa using this
  rw [ih (by rw [buf_flushLocked]; decide), appendLocked_eq hw hline]
  conv_rhs => rw [← takeWhile_append_dropWhile (p := (· != 10)) (l := p), h, hc, foldl_append]
  rfl

/-- **Chunks do not matter.** -/
theorem foldl_write (writes : List Bytes) : writes.foldl write w = writes.flatten.foldl put w := by
  induction writes generalizing w with
  | nil => rfl
  | cons p writes ih =>
  rw [foldl_cons, flatten_cons, foldl_append, write_eq hw, ih (length_foldl_put hw)]

end

/-! ## The lines -/

/-- The lines written for the bytes so far, without what they start with. -/
structure Logged (text : Bytes) (w : PrefixWriter) (lines : List Bytes) (bytes : Bytes) : Prop where
  prefixText : w.prefixText = text
  out : w.out = lines.flatMap fun l => text ++ l ++ [10]
  clean : ∀ l ∈ lines, ∀ c ∈ l, isControl c = false
  split : lines.flatten ++ escapeControl w.buf = escapeControl (bytes.filter (· != 10))
  held : w.held ≤ maxPrefixLineBytes

namespace Logged

variable {text bytes : Bytes} {lines : List Bytes}

lemma flushLocked (h : Logged text w lines bytes) :
    ∃ lines, Logged text w.flushLocked lines bytes := by
  unfold PrefixWriter.flushLocked
  split
  · exact ⟨lines, h⟩
  refine ⟨lines ++ [escapeControl w.buf], h.prefixText, ?_, ?_, ?_, h.held⟩
  · simp [h.out, h.prefixText]
  · intro l hl
    rcases mem_append.mp hl with hl | hl
    · exact h.clean l hl
    · rw [mem_singleton.mp hl]
      exact isControl_escapeControl
  · rw [← h.split, flatten_concat]
    exact append_nil _

lemma put (h : Logged text w lines bytes) (hw : w.buf.length < maxPrefixLineBytes) (c : UInt8) :
    ∃ lines, Logged text (w.put c) lines (bytes ++ [c]) := by
  unfold PrefixWriter.put
  split
  next hc => exact flushLocked { h with split := by simpa [hc] using h.split }
  next hc =>
  have hcopy : Logged text (w.copy [c]) lines (bytes ++ [c]) := by
    have hheld := h.held
    have hsplit := h.split
    refine ⟨h.prefixText, h.out, h.clean, ?_, max_le hheld hw⟩
    simp only [escapeControl_eq] at hsplit ⊢
    simp [copy, ← append_assoc, hsplit, hc]
  unfold flushFull
  split
  · exact hcopy.flushLocked
  · exact ⟨lines, hcopy⟩

lemma run (h : Logged text w lines []) (hw : w.buf.length < maxPrefixLineBytes) (bytes : Bytes) :
    ∃ lines, Logged text (bytes.foldl PrefixWriter.put w) lines bytes := by
  induction bytes using reverseRecOn with
  | nil => exact ⟨lines, h⟩
  | append_singleton bytes c ih =>
  obtain ⟨lines, hlines⟩ := ih
  rw [foldl_concat]
  exact hlines.put (length_foldl_put hw) c

end Logged

end PrefixWriter

open PrefixWriter

/-- **Attribution.**  What is written for a sequence of writes depends on their
bytes only: lines of the plugin without control bytes, which together are the
bytes, escaped and without their newlines.  The buffer stays bounded. -/
theorem write_attributed (plugin : String) (hplugin : ∀ c ∈ utf8 plugin, isControl c = false)
    (writes : List Bytes) :
    let start := newPrefixWriter plugin
    let done := (writes.foldl write start).flushLocked
    done.out = (start.write writes.flatten).flushLocked.out ∧ done.held ≤ maxPrefixLineBytes ∧
    ∃ lines : List Bytes, done.out = lines.flatMap (fun l => start.prefixText ++ l ++ [10]) ∧
      (∀ l ∈ lines, ∀ c ∈ start.prefixText ++ l, isControl c = false) ∧
      lines.flatten = escapeControl (writes.flatten.filter (· != 10)) := by
  intro start done
  have hstart : start.buf.length < maxPrefixLineBytes := Nat.zero_lt_succ _
  have hdone : done = (writes.flatten.foldl put start).flushLocked := by rw [← foldl_write hstart]
  have hnew : Logged start.prefixText start [] [] := ⟨rfl, rfl, nofun, rfl, Nat.zero_le _⟩
  obtain ⟨_, hrun⟩ := hnew.run hstart writes.flatten
  obtain ⟨lines, hlines⟩ := hrun.flushLocked
  rw [← hdone] at hlines
  have hsplit : lines.flatten ++ escapeControl done.buf = _ := hlines.split
  have hempty : done.buf = [] := buf_flushLocked _
  rw [hempty] at hsplit
  refine ⟨by rw [hdone, write_eq hstart], hlines.held, lines, hlines.out, ?_,
    (append_nil _).symm.trans hsplit⟩
  intro l hl c hc
  rcases mem_append.mp hc with hc | hc
  · have hends : ∀ c ∈ utf8 "[plugin " ++ utf8 " stdio] ", isControl c = false := by decide +kernel
    simp only [start, newPrefixWriter, mem_append] at hc hends
    rcases hc with (hc | hc) | hc
    · exact hends c (.inl hc)
    · exact hplugin c hc
    · exact hends c (.inr hc)
  · exact hlines.clean l hl c hc

/-- An escape sequence in two writes. -/
theorem write_attributed_escape :
    (([[27], utf8 "m"].foldl write (newPrefixWriter "p")).flushLocked).out =
      ((newPrefixWriter "p").write (utf8 "\x1bm")).flushLocked.out :=
  (write_attributed "p" (by decide +kernel) [[27], utf8 "m"]).1

end ToranaEdge.PluginLog
