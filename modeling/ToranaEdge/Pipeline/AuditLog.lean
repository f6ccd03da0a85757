import ToranaEdge.Lib.Attempt
import ToranaEdge.Lib.Rotation
import ToranaEdge.Wire

/-! # The audit log

`Append` writes one record and its newline.  A write may fail short at any byte and any
system call of a rotation may fail; `Truncate` restores the boundary of the last record,
and a rotation error is kept.  The files of the log are its path and that with a number. -/

namespace ToranaEdge.AuditLog

open Rotation Rotation.Family Attempt List Function

/-! ## The writer -/

structure Config where
  enabled : Bool
  maxFileBytes : Int64
  maxFiles : Int

variable (c : Config)

/-- `Validate`; the checks of the path are left out. -/
def Config.validate : Except String Unit :=
  if !c.enabled then .ok ()
  else if c.maxFileBytes < 0 then .error "audit.max_file_bytes must not be negative"
  else if c.maxFiles < 0 ∨ 100 < c.maxFiles then
    .error "audit.max_files must be between 0 and 100"
  else .ok ()

/-- `maxFileBytes`. -/
def Config.fileBytes : Int64 :=
  if c.maxFileBytes = 0 then 16 * 2 ^ 20 else c.maxFileBytes

/-- `maxFiles`. -/
def Config.files : Nat := if c.maxFiles = 0 then 5 else c.maxFiles.toNat

structure Writer where
  /-- The file of the log and its older generations. -/
  disk : Family UInt8
  /-- The size of the file, as far as the writer knows. -/
  size : Nat := 0
  closed : Bool := false
  /-- The configuration does not enable the log. -/
  disabled : Bool := false
  /-- The rotation error that is returned from then on. -/
  failed : Option String := none

inductive Syscall
  | close | remove | rename (i : Nat) | active | reopen | stat | write | truncate

/-- What the system calls of one `Append` return, and how many bytes `Write` gets to disk. -/
structure Io where
  written : Nat
  error : Syscall → Option String := fun _ => none

def Writer.openActive (w : Writer) (io : Io) : Writer × Option String :=
  match io.error .reopen with
  | some err => (w, some ("open audit path: " ++ err))
  | none =>
    let w := { w with disk := w.disk.append [] }
    match io.error .stat with
    | some err => (w, some ("stat audit path: " ++ err))
    | none => ({ w with size := ((w.disk none).getD []).length }, none)

/-- `Open` on a path without files. -/
def openWriter (io : Io) : Except String Writer := do
  c.validate
  let w : Writer := { disk := fun _ => none, disabled := !c.enabled }
  if w.disabled then .ok w
  else
    match w.openActive io with
    | (_, some err) => .error err
    | (w, none) => .ok w

/-- `rotate`: the error of a system call leaves the files as they are then. -/
def Writer.rotate (w : Writer) (io : Io) : Writer × Option String :=
  match io.error .close, io.error .remove with
  | some err, _ => (w, some ("close audit file for rotation: " ++ err))
  | none, some err => (w, some ("remove oldest audit file: " ++ err))
  | none, none =>
    match shift (fun i => (io.error (.rename i)).map fun err => s!"rotate audit file {i}: " ++ err)
      (Function.update w.disk (some (c.files - 1)) none) (c.files - 2), io.error .active with
    | (disk, some err), _ => ({ w with disk }, some err)
    | (disk, none), some err =>
      ({ w with disk }, some ((if 1 < c.files then "rotate active audit file: "
        else "remove active audit file: ") ++ err))
    | (disk, none), none =>
      { w with disk := if 1 < c.files then disk.rename none (some 1)
                       else Function.update disk none none }.openActive io

/-- The write at the end of `Append`.  Offsets in a file are 63 bits wide. -/
def Writer.write (w : Writer) (line : Bytes) (io : Io) : Writer × Option String :=
  let n := min io.written (2 ^ 63 - 1 - w.size)
  let disk := w.disk.append (line.take n)
  if io.error .write = none ∧ line.length ≤ n then
    ({ w with disk, size := w.size + line.length }, none)
  else
    let err := "append audit record: " ++ (io.error .write).getD "short write"
    match io.error .truncate with
    | some restore => ({ w with disk }, some (err ++ "; restore boundary: " ++ restore))
    | none =>
      ({ w with disk := Function.update disk none ((disk none).map (List.take w.size)) }, some err)

/-- A record with its newline does not fit the active file. -/
def Writer.Full (w : Writer) (line : Bytes) : Prop :=
  0 < w.size ∧ Exceeds c.fileBytes w.size line.length

instance (c : Config) (w : Writer) (line : Bytes) : Decidable (w.Full c line) :=
  inferInstanceAs (Decidable (_ ∧ _))

/-- `Append`, with what `json.Marshal` makes of the record. -/
def Writer.append (w : Writer) (text : Except String Bytes) (io : Io) :
    Writer × Option String :=
  if w.closed then (w, some "audit writer is closed")
  else if w.disabled then (w, none)
  else
    match w.failed, text with
    | some err, _ => (w, some err)
    | none, .error err => (w, some ("encode audit record: " ++ err))
    | none, .ok text =>
      let line := text ++ [10]
      if w.Full c line then
        match w.rotate c io with
        | (w, some err) => ({ w with failed := some err }, some err)
        | (w, none) => w.write line io
      else w.write line io

/-! ## Runs -/

/-- A call that returned. -/
structure Call where
  text : Except String Bytes
  io : Io
  result : Option String

inductive Run (c : Config) (start : Writer) : List Call → Writer → Prop
  | nil : Run c start [] start
  | snoc {calls : List Call} {w : Writer} (h : Run c start calls w) (text : Except String Bytes)
      (io : Io) : Run c start (calls ++ [⟨text, io, (w.append c text io).2⟩]) (w.append c text io).1

/-- The record of a call that returned nil, with its newline. -/
def Call.line? (call : Call) : Option Bytes :=
  if call.result = none then call.text.toOption.map (· ++ [10]) else none

lemma Call.line?_ne_nil (call : Call) : ∀ r ∈ call.line?.toList, r ≠ [] := by
  obtain ⟨text, io, result⟩ := call
  cases text <;> cases result <;> simp [Call.line?]

/-- The record a call took ends the newest block. -/
def Call.Newest (call : Call) (blocks : List (List Bytes)) : Prop :=
  ∀ r ∈ call.line?, (blocks.headD []).getLast? = some r

/-- No rotation fails, and the boundary can be restored. -/
def Io.Sound (io : Io) : Prop := ∀ call, call ≠ .write → io.error call = none

/-- Whole records within the limit, or a single larger one. -/
def Whole (block : List Bytes) : Prop :=
  (block.flatten.length : Int) ≤ c.fileBytes.toInt ∨ block.length = 1

variable {c : Config} {w start : Writer} {io : Io} {line : Bytes} {text : Except String Bytes}
  {records : List Bytes} {blocks : List (List Bytes)} {calls : List Call}

/-- The writer knows the size of the active file. -/
structure Tracks (c : Config) (w : Writer) (records : List Bytes) (blocks : List (List Bytes)) :
    Prop where
  kept : Kept (c.files - 1) (Whole c) records w.disk blocks
  size : w.size = (blocks.headD []).flatten.length
  lines : ∀ r ∈ records, r ≠ []
  active : w.disabled = false ∧ blocks ≠ [] ∧ 1 ≤ c.files ∧ 0 ≤ c.fileBytes.toInt ∨
    w.disabled = true ∧ blocks = []

lemma openActive_sound (hio : io.Sound) (w : Writer) : w.openActive io =
    ({ w with disk := w.disk.append [], size := ((w.disk none).getD []).length }, none) := by
  unfold Writer.openActive
  rw [hio .reopen nofun, hio .stat nofun]
  simp [Family.append]

lemma rotate_sound (hio : io.Sound) (hfiles : 1 ≤ c.files) (h : w.disk.Holds blocks) :
    w.rotate c io =
      ({ w with disk := (w.disk.rotated (c.files - 1)).append [], size := 0 }, none) := by
  unfold Writer.rotate
  have hrename : ∀ i, io.error (.rename i) = none := fun i => hio _ nofun
  simp only [hio .close nofun, hio .remove nofun, hrename, hio .active nofun, openActive_sound hio]
  obtain ⟨k, hk⟩ : ∃ k, c.files = k + 1 := ⟨c.files - 1, by omega⟩
  rw [hk]
  cases k with
  | zero =>
    have hzero : update w.disk (some 0) none = w.disk := update_eq_self_iff.mpr h.2.1.symm
    simp [shift, rotated, hzero]
  | succ k =>
  have hnone := rotated_none w.disk (k + 1)
  have hshift := @shift_eq _ (update w.disk (some (k + 1)) none) k (by simp)
  rw [rotated, hshift] at hnone
  simp [rotated, hshift, hnone]

/-- A write goes through, or leaves the file as it was. -/
lemma write_cases (hio : io.Sound) (hsize : w.size = ((w.disk none).getD []).length)
    (hline : 0 < line.length) : w.size + line.length < 2 ^ 63 ∧ w.write line io =
        ({ w with disk := w.disk.append line, size := w.size + line.length }, none) ∨
      ∃ err, w.write line io = ({ w with disk := w.disk.append [] }, some err) := by
  unfold Writer.write
  by_cases hok : io.error .write = none ∧ line.length ≤ min io.written (2 ^ 63 - 1 - w.size)
  · refine .inl ⟨by omega, ?_⟩
    rw [if_pos hok, take_of_length_le hok.2]
  rw [if_neg hok, hio .truncate nofun]
  simp [Family.append, hsize]

lemma Tracks.write {text : Bytes} (h : Tracks c w records blocks) (hio : io.Sound)
    (henabled : w.disabled = false) (hfull : ¬ w.Full c (text ++ [10])) :
    ∃ blocks', Tracks c (w.write (text ++ [10]) io).1
      (records ++ (Call.line? ⟨.ok text, io, (w.write (text ++ [10]) io).2⟩).toList) blocks' ∧
        Call.Newest ⟨.ok text, io, (w.write (text ++ [10]) io).2⟩ blocks' := by
  have hsize : w.size = ((w.disk none).getD []).length := by
    rw [h.size, h.kept.holds.newest]
  obtain ⟨-, hblocks, hconfig⟩ := h.active.resolve_right (by simp [henabled])
  obtain ⟨block, older, rfl⟩ := exists_cons_of_ne_nil hblocks
  have hline : 0 < (text ++ [10]).length := by simp
  rcases write_cases hio hsize hline with ⟨hroom, hwrite⟩ | ⟨err, hwrite⟩
  · rw [hwrite]
    refine ⟨_, ⟨h.kept.append ?_, by simp [push, h.size], ?_,
      .inl ⟨henabled, by simp [push], hconfig⟩⟩, ?_⟩
    · by_cases hempty : w.size = 0
      · -- lines are not empty, so the block of an empty file is
        have hblock : block = [] := by
          refine eq_nil_iff_forall_not_mem.mpr fun r hr => ?_
          have hrecord : r ∈ records := h.kept.suffix.subset (by simp [history_cons, hr])
          rw [h.size, length_eq_zero_iff] at hempty
          exact h.lines r hrecord (flatten_eq_nil_iff.mp hempty r hr)
        exact .inr (by simp [hblock])
      refine .inl ?_
      have hfits : ¬ Exceeds c.fileBytes w.size (text ++ [10]).length := fun hexceeds =>
        hfull ⟨Nat.pos_of_ne_zero hempty, hexceeds⟩
      rw [exceeds_iff hroom, h.size] at hfits
      simpa using hfits
    · exact forall_mem_append.mpr ⟨h.lines, Call.line?_ne_nil _⟩
    · rintro r ⟨⟩
      exact getLast?_push _
  · have hopen : w.disk none ≠ none := by
      rw [h.kept.holds.1]
      simp
    rw [hwrite, append_nil_of hopen]
    exact ⟨_, by simpa [Call.line?] using h, by rintro r ⟨⟩⟩

/-- **One call** keeps the last records that were taken. -/
theorem Tracks.append (h : Tracks c w records blocks) (hio : io.Sound)
    (text : Except String Bytes) : ∃ blocks', Tracks c (w.append c text io).1
      (records ++ (Call.line? ⟨text, io, (w.append c text io).2⟩).toList) blocks' ∧
        (blocks' ≠ [] → Call.Newest ⟨text, io, (w.append c text io).2⟩ blocks') := by
  have hrefused : ∀ err, ∃ blocks', Tracks c w
      (records ++ (Call.line? ⟨text, io, some err⟩).toList) blocks' ∧
        (blocks' ≠ [] → Call.Newest ⟨text, io, some err⟩ blocks') := fun err =>
    ⟨blocks, by simpa [Call.line?] using h, fun _ r hr => by cases hr⟩
  unfold Writer.append
  by_cases hclosed : w.closed = true
  · rw [if_pos hclosed]
    exact hrefused _
  rw [if_neg hclosed]
  rcases h.active with ⟨henabled, hblocks, hfiles, hbytes⟩ | ⟨hdisabled, hblocks⟩
  · rw [if_neg (by simp [henabled])]
    cases hfailed : w.failed with
    | some err => exact hrefused err
    | none =>
    cases text with
    | error err => exact hrefused _
    | ok text =>
    dsimp only
    by_cases hfull : w.Full c (text ++ [10])
    · rw [if_pos hfull, rotate_sound hio hfiles h.kept.holds]
      have hrotated :
          Tracks c { w with disk := (w.disk.rotated (c.files - 1)).append [], size := 0 }
            records ([] :: blocks.take (c.files - 1)) :=
        ⟨h.kept.rotated (.inl hbytes), rfl, h.lines, .inl ⟨henabled, by simp, hfiles, hbytes⟩⟩
      obtain ⟨blocks', htracks, hnewest⟩ :=
        hrotated.write hio henabled fun hstill => Nat.lt_irrefl 0 hstill.1
      exact ⟨blocks', htracks, fun _ => hnewest⟩
    · rw [if_neg hfull]
      obtain ⟨blocks', htracks, hnewest⟩ := h.write hio henabled hfull
      exact ⟨blocks', htracks, fun _ => hnewest⟩
  · -- a writer that is disabled takes every record and keeps none
    rw [if_pos hdisabled]
    subst hblocks
    refine ⟨[], ⟨⟨h.kept.holds, by simp, by simp, nil_suffix⟩, h.size, ?_, .inr ⟨hdisabled, rfl⟩⟩,
      fun hne => absurd rfl hne⟩
    exact forall_mem_append.mpr ⟨h.lines, Call.line?_ne_nil _⟩

lemma Run.tracks {blocks₀ : List (List Bytes)} (h₀ : Tracks c start [] blocks₀)
    (h : Run c start calls w) (hio : ∀ call ∈ calls, call.io.Sound) :
    ∃ blocks, Tracks c w (calls.filterMap Call.line?) blocks ∧
      (blocks ≠ [] → ∀ call ∈ calls.getLast?, call.Newest blocks) := by
  induction h with
  | nil => exact ⟨blocks₀, h₀, fun _ _ h => by cases h⟩
  | snoc h text io ih =>
  obtain ⟨hcalls, hcall⟩ := forall_mem_append.mp hio
  obtain ⟨blocks, hblocks, -⟩ := ih hcalls
  rw [filterMap_append, getLast?_concat]
  obtain ⟨blocks', htracks, hnewest⟩ := hblocks.append (hcall _ mem_cons_self) text
  refine ⟨blocks', htracks, ?_⟩
  rintro hne _ ⟨⟩
  exact hnewest hne

lemma tracks_openWriter (h : openWriter c io = .ok start) : ∃ blocks, Tracks c start [] blocks := by
  obtain ⟨_, hvalid, h⟩ := bind_eq_ok.mp h
  unfold Config.validate at hvalid
  cases henabled : c.enabled with
  | false =>
    rw [henabled] at h
    cases h
    exact ⟨[], kept_empty .., rfl, by simp, .inr ⟨rfl, rfl⟩⟩
  | true =>
  rw [henabled] at h hvalid
  obtain ⟨hbytes, hvalid⟩ := guard_eq_ok.mp hvalid
  obtain ⟨hfiles, -⟩ := guard_eq_ok.mp hvalid
  have hbytes : 0 ≤ c.fileBytes.toInt := by
    unfold Config.fileBytes
    split
    · decide
    · exact Int64.le_iff_toInt_le.mp (Int64.not_lt.mp hbytes)
  have hfiles : 1 ≤ c.files := by
    unfold Config.files
    split
    · decide
    · omega
  unfold Writer.openActive at h
  cases hreopen : io.error .reopen <;> cases hstat : io.error .stat <;>
    simp only [hreopen, hstat] at h <;> cases h
  refine ⟨[[]], ⟨⟨rfl, rfl, fun _ => rfl⟩, by simp, ?_, suffix_rfl⟩, rfl, by simp, ?_⟩
  · exact forall_mem_singleton.mpr (.inl hbytes)
  · exact .inl ⟨rfl, by simp, hfiles, hbytes⟩

lemma rotate_disabled (c : Config) (w : Writer) (io : Io) :
    (w.rotate c io).1.disabled = w.disabled := by
  unfold Writer.rotate Writer.openActive
  (repeat' split) <;> rfl

/-- A rotation error is kept: nothing is written after it. -/
lemma Run.of_failed {err : String} (hfailed : start.failed = some err)
    (henabled : start.disabled = false) (h : Run c start calls w) :
    w = start ∧ ∀ call ∈ calls, call.result ≠ none := by
  induction h with
  | nil => exact ⟨rfl, by simp⟩
  | @snoc calls w h text io ih =>
  obtain ⟨rfl, hcalls⟩ := ih
  have happend : ∃ err, w.append c text io = (w, some err) := by
    unfold Writer.append
    rw [henabled, hfailed]
    by_cases hclosed : w.closed = true
    · exact ⟨_, if_pos hclosed⟩
    · exact ⟨err, if_neg hclosed⟩
  obtain ⟨err, happend⟩ := happend
  rw [happend]
  exact ⟨rfl, forall_mem_append.mpr ⟨hcalls, by simp⟩⟩

/-- **The audit log keeps whole records.**  However writes fail short, as long as no
rotation fails and the boundary is restored, the files are blocks of whole lines, at most
the configured number, each within the limit or a single line, and hold the last records
whose `Append` returned nil; what the last call wrote ends the active file.  After a
rotation error every call fails and writes nothing. -/
theorem append_whole_records {io₀ : Io} (hopen : openWriter c io₀ = .ok start)
    (hrun : Run c start calls w) :
    ((∀ call ∈ calls, call.io.Sound) → ∃ blocks, blocks.length ≤ c.files ∧
      Kept (c.files - 1) (Whole c) (calls.filterMap Call.line?) w.disk blocks ∧
      (w.disabled = false → ∀ call ∈ calls.getLast?, call.Newest blocks)) ∧
    ∀ line io later w', w.closed = false → w.disabled = false → w.failed = none →
      w.Full c (line ++ [10]) → (w.rotate c io).2 ≠ none →
      Run c (w.append c (.ok line) io).1 later w' →
      w' = (w.append c (.ok line) io).1 ∧ ∀ call ∈ later, call.result ≠ none := by
  constructor
  · intro hio
    obtain ⟨blocks₀, h₀⟩ := tracks_openWriter hopen
    obtain ⟨blocks, hblocks, hnewest⟩ := hrun.tracks h₀ hio
    have hlength := hblocks.kept.length
    rcases hblocks.active with ⟨-, hne, hfiles, -⟩ | ⟨hdisabled, rfl⟩
    · exact ⟨blocks, by omega, hblocks.kept, fun _ => hnewest hne⟩
    · exact ⟨[], Nat.zero_le _, hblocks.kept, by simp [hdisabled]⟩
  · intro line io later w' hclosed henabled hnone hfull hrotate hlater
    obtain ⟨err, herr⟩ := Option.ne_none_iff_exists'.mp hrotate
    have happend :
        (w.append c (.ok line) io).1 = { (w.rotate c io).1 with failed := some err } := by
      unfold Writer.append
      rw [hclosed, henabled, hnone]
      dsimp only
      rw [if_neg Bool.false_ne_true, if_neg Bool.false_ne_true, if_pos hfull]
      obtain ⟨w₁, hw₁⟩ : ∃ w₁, w.rotate c io = (w₁, some err) := ⟨_, Prod.ext rfl herr⟩
      rw [hw₁]
    rw [happend] at hlater ⊢
    exact hlater.of_failed rfl ((rotate_disabled c w io).trans henabled)

/-- The second of three records is cut off after its first byte, in a file of its own,
which the third one then has. -/
theorem append_whole_records_shortWrite : ∃ start calls w blocks,
    openWriter ⟨true, 3, 2⟩ { written := 0 } = .ok start ∧ Run ⟨true, 3, 2⟩ start calls w ∧
      calls.filterMap Call.line? = [[1, 10], [3, 10]] ∧
      Kept 1 (Whole ⟨true, 3, 2⟩) (calls.filterMap Call.line?) w.disk blocks ∧
      w.disk none = some [3, 10] ∧ w.disk (some 1) = some [1, 10] ∧ w.disk (some 2) = none := by
  have hopen : openWriter ⟨true, 3, 2⟩ { written := 0 } =
      .ok { disk := append (fun _ => none) [] } := rfl
  have hrun := Run.snoc (.snoc (.snoc (@Run.nil ⟨true, 3, 2⟩ { disk := append (fun _ => none) [] })
    (.ok [1]) { written := 2 }) (.ok [2]) { written := 1 }) (.ok [3]) { written := 2 }
  have hio : ∀ n, Io.Sound { written := n } := fun n call _ => rfl
  obtain ⟨blocks, -, hblocks, -⟩ := (append_whole_records hopen hrun).1 (by simp [hio])
  exact ⟨_, _, _, blocks, hopen, hrun, by decide, hblocks, by decide, by decide, by decide⟩

end ToranaEdge.AuditLog
