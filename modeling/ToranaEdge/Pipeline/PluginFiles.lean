import Mathlib.Data.List.Induction
import ToranaEdge.Lib.Attempt
import ToranaEdge.Lib.Rotation
import ToranaEdge.Wire

/-! # Files of plugins

`appendLocked` rotates a file that would outgrow its budget.  The family of a file is
the file itself and its generations by number; no other name is in it. -/

namespace ToranaEdge.PluginFiles

open Rotation Rotation.Family Attempt List

structure FileResource where
  maxBytes : Int64
  retainedFiles : Int

abbrev Files := Family UInt8

def maxHostCallPayload : Nat := 64 * 2 ^ 10

variable (fs : Files)

def remove (name : Option ℕ) : Except String Files :=
  if (fs name).isNone then .error "file does not exist" else .ok (Function.update fs name none)

def rotate (retained : Int) : Except String Files :=
  if retained ≤ 0 then remove fs none
  else
    -- a generation that is missing is no error
    .ok ((shift (fun _ => none) (Function.update fs (some retained.toNat) none)
      (retained.toNat - 1)).1.rename none (some 1))

/-- `os.Stat`. -/
def sizeOf : Nat := ((fs none).getD []).length

/-- `Write` on the opened file, whose offsets are 63 bits wide. -/
def write (data : Bytes) : Except String Files :=
  if 2 ^ 63 ≤ sizeOf fs + data.length then .error "file too large" else .ok (fs.append data)

variable (resource : FileResource)

def appendLocked (fs : Files) (data : Bytes) : Except String Files := do
  if resource.maxBytes ≤ 0 then .error "file has no size budget"
  else if resource.maxBytes < Int64.ofNat data.length then
    .error "append exceeds approved file size"
  else
    let fs ← (if Exceeds resource.maxBytes (sizeOf fs) data.length then
      rotate fs resource.retainedFiles else .ok fs)
    write fs data

/-- `Append`; `Sync` writes nothing. -/
def append (fs : Files) (data : Bytes) : Except String Files :=
  if maxHostCallPayload < data.length then .error "append exceeds 64 KiB host-call limit"
  else appendLocked resource fs data

/-- Whole records within the budget of the file. -/
def Within (block : List Bytes) : Prop :=
  (block.flatten.length : Int) ≤ resource.maxBytes.toInt

variable {resource : FileResource} {records : List Bytes} {fs fs' : Files}
  {blocks : List (List Bytes)} {data : Bytes}

lemma rotate_eq_ok (hold : fs none ≠ none) (retained : Int) :
    rotate fs retained = .ok (fs.rotated retained.toNat) := by
  unfold rotate
  by_cases hretained : retained ≤ 0
  · rw [if_pos hretained, Int.toNat_of_nonpos hretained, remove, if_neg (by simpa using hold)]
    rfl
  obtain ⟨k, rfl⟩ : ∃ k : ℕ, retained = (k + 1 : ℕ) := ⟨retained.toNat - 1, by omega⟩
  rfl

/-- **One call** keeps the last records, in files within the budget. -/
theorem append_kept (h : Kept resource.retainedFiles.toNat (Within resource) records fs blocks)
    (happend : append resource fs data = .ok fs') : ∃ blocks',
      Kept resource.retainedFiles.toNat (Within resource) (records ++ [data]) fs' blocks' ∧
        (blocks'.headD []).getLast? = some data := by
  obtain ⟨hpayload, happend⟩ := guard_eq_ok.mp happend
  obtain ⟨-, happend⟩ := guard_eq_ok.mp happend
  obtain ⟨hfits, happend⟩ := guard_eq_ok.mp happend
  obtain ⟨opened, hopened, hwrite⟩ := bind_eq_ok.mp happend
  obtain ⟨hroom, hwrite⟩ := guard_eq_ok.mp hwrite
  cases hwrite
  split at hopened
  next hfull =>
    -- a file that is missing is not full
    have hold : fs none ≠ none := by
      intro hnone
      refine hfits ?_
      simpa [Exceeds, sizeOf, hnone] using hfull
    rw [rotate_eq_ok hold] at hopened
    cases hopened
    have hempty : ((fs.rotated resource.retainedFiles.toNat).append []).append data =
        (fs.rotated resource.retainedFiles.toNat).append data := append_append ..
    rw [← hempty]
    have hdata : (data.length : Int) ≤ resource.maxBytes.toInt := by
      rw [Int64.lt_iff_toInt_lt, Int64.toInt_ofNat_of_lt (by omega)] at hfits
      omega
    refine ⟨_, (h.rotated ?_).append ?_, getLast?_push data⟩
    · show (0 : Int) ≤ resource.maxBytes.toInt
      omega
    · simpa [Within] using hdata
  next hsmall =>
    cases hopened
    refine ⟨_, h.append ?_, getLast?_push data⟩
    have hsize : sizeOf fs = (blocks.headD []).flatten.length := by
      rw [sizeOf, h.holds.newest]
    rw [exceeds_iff (by omega), hsize] at hsmall
    simpa [Within] using hsmall

/-- **Rotation keeps a bounded suffix.**  After any calls of `Append` that succeed, the files
are blocks of whole records within the budget, at most the retained generations besides
the file itself, and hold the last records, the newest at the end of the active file. -/
theorem append_keeps_suffix (h : records.foldlM (append resource) (fun _ => none) = .ok fs) :
    ∃ blocks, Kept resource.retainedFiles.toNat (Within resource) records fs blocks ∧
      (blocks.headD []).getLast? = records.getLast? := by
  induction records using reverseRecOn generalizing fs with
  | nil =>
    cases h
    exact ⟨[], kept_empty .., rfl⟩
  | append_singleton records data ih =>
  rw [foldlM_append] at h
  obtain ⟨before, hbefore, h⟩ := bind_eq_ok.mp h
  obtain ⟨after, hafter, h⟩ := bind_eq_ok.mp h
  cases h
  obtain ⟨blocks, hblocks, -⟩ := ih hbefore
  rw [getLast?_concat]
  exact append_kept hblocks hafter

/-- Three records of two bytes in files of three bytes, one generation retained. -/
theorem append_keeps_suffix_twoFiles : ∃ fs blocks,
    [[1, 2], [3, 4], [5, 6]].foldlM (append ⟨3, 1⟩) (fun _ => none) = .ok fs ∧
      Kept 1 (Within ⟨3, 1⟩) [[1, 2], [3, 4], [5, 6]] fs blocks ∧
      fs none = some [5, 6] ∧ fs (some 1) = some [3, 4] ∧ fs (some 2) = none := by
  have hok : [[1, 2], [3, 4], [5, 6]].foldlM (append ⟨3, 1⟩) (fun _ => none) = .ok _ := rfl
  obtain ⟨blocks, hblocks, -⟩ := append_keeps_suffix hok
  exact ⟨_, blocks, hok, hblocks, by decide, by decide, by decide⟩

end ToranaEdge.PluginFiles
