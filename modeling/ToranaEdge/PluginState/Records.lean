import Mathlib.Data.List.Lex
import ToranaEdge.Lib.OrdMap
import ToranaEdge.Wire

/-! # The records of a plugin's state

Go strings are byte strings here: keys are compared byte by byte, and a version is
the decimal text of a counter.  A record of the database is the version in eight
bytes, big end first, followed by the value.  A scan's cursor is a JSON text, and
JSON replaces what is not UTF-8. -/

namespace ToranaEdge.PluginState

open List

/-! ## Byte strings -/

/-- Bytes in their order, so that byte strings compare as Go strings do. -/
instance byteOrder : LinearOrder UInt8 where
  le_refl a := UInt8.le_refl a
  le_trans _ _ _ := UInt8.le_trans
  le_antisymm _ _ := UInt8.le_antisymm
  le_total a b := UInt8.le_total a b
  lt_iff_le_not_ge a b := by
    rw [UInt8.lt_iff_toNat_lt, UInt8.le_iff_toNat_le, UInt8.le_iff_toNat_le]
    omega
  toDecidableLE := inferInstance

/-- Between a text and a text it starts there are only texts it starts. -/
lemma starts_of_between {s a b : Bytes} (hsa : s ≤ a) (hab : a < b) (hsb : s <+: b) : s <+: a := by
  induction s generalizing a b with
  | nil => exact nil_prefix
  | cons c s ih =>
  obtain ⟨t, rfl⟩ := hsb
  cases a with
  | nil => exact absurd hsa (not_le.mpr Lex.nil)
  | cons d a =>
  have hnot : ¬ (d :: a < c :: s) := not_lt.mpr hsa
  rw [cons_lt_cons_iff] at hnot
  rw [cons_append, cons_lt_cons_iff] at hab
  rcases hab with hlt | ⟨rfl, hab⟩
  · exact absurd (.inl hlt) hnot
  have hsa : s ≤ a := not_lt.mp fun hlt => hnot (.inr ⟨rfl, hlt⟩)
  rw [cons_prefix_cons]
  exact ⟨rfl, ih hsa hab ⟨t, rfl⟩⟩

lemma le_of_starts {s a : Bytes} (h : s <+: a) : s ≤ a := by
  induction s generalizing a with
  | nil =>
    cases a with
    | nil => exact le_refl _
    | cons c a => exact le_of_lt Lex.nil
  | cons c s ih =>
    obtain ⟨t, rfl⟩ := h
    exact cons_le_cons c (ih ⟨t, rfl⟩)

variable (v : UInt64)

/-- `strconv.FormatUint` to the base 10. -/
def formatUint : Bytes := utf8 v.toNat.repr

/-! ## Eight bytes, big end first -/

/-- `binary.BigEndian.PutUint64`. -/
def putUint64 : Bytes :=
  [(v >>> 56).toUInt8, (v >>> 48).toUInt8, (v >>> 40).toUInt8, (v >>> 32).toUInt8,
    (v >>> 24).toUInt8, (v >>> 16).toUInt8, (v >>> 8).toUInt8, v.toUInt8]

/-- `binary.BigEndian.Uint64`. -/
def bigEndian (raw : Bytes) : UInt64 :=
  UInt64.ofNat (raw.foldl (fun n b => 256 * n + b.toNat) 0)

/-- `readUint64`; a missing value reads as zero. -/
def readUint64 (raw : Option Bytes) : UInt64 :=
  match raw with
  | none => 0
  | some raw => if raw.length ≠ 8 then 0 else bigEndian raw

@[simp] lemma length_putUint64 : (putUint64 v).length = 8 := rfl

@[simp] lemma bigEndian_putUint64 : bigEndian (putUint64 v) = v := by
  apply UInt64.toNat_inj.mp
  have hlt := v.toNat_lt
  simp only [bigEndian, putUint64, foldl_cons, foldl_nil, UInt64.toNat_toUInt8,
    UInt64.toNat_shiftRight, UInt64.toNat_ofNat', UInt64.toNat_ofNat, Nat.reduceMod, Nat.reducePow]
  omega

@[simp] lemma readUint64_putUint64 : readUint64 (some (putUint64 v)) = v := by
  rw [readUint64, if_neg (by simp), bigEndian_putUint64]

/-! ## Records -/

def encodeRecord (version : UInt64) (value : Bytes) : Bytes := putUint64 version ++ value

/-- `decodeRecord`: a record without a version is refused. -/
def decodeRecord (raw : Bytes) : Option (UInt64 × Bytes) :=
  if raw.length < 8 then none
  else
    let version := bigEndian (raw.take 8)
    if version = 0 then none else some (version, raw.drop 8)

/-- **A record reads back as it was written.** -/
theorem decodeRecord_encodeRecord {version : UInt64} (h : version ≠ 0) (value : Bytes) :
    decodeRecord (encodeRecord version value) = some (version, value) := by
  have htake : (encodeRecord version value).take 8 = putUint64 version := rfl
  rw [decodeRecord, htake, bigEndian_putUint64]
  exact if_neg h

/-! ## Cursors -/

/-- The length of the rune a text starts with, as `utf8.DecodeRune` finds it; nothing
where its first byte starts no rune. -/
def runeLength : Bytes → Option Nat
  | [] => none
  | a :: rest =>
    let tail (b : UInt8) : Bool := 0x80 ≤ b && b ≤ 0xbf
    if a < 0x80 then some 1
    else
      match rest with
      | b :: rest =>
        if 0xc2 ≤ a && a ≤ 0xdf && tail b then some 2
        else
          match rest with
          | c :: rest =>
            -- no overlong form, and no surrogate
            if tail b && tail c && ((a == 0xe0 && 0xa0 ≤ b) || (0xe1 ≤ a && a ≤ 0xec) ||
                (a == 0xed && b ≤ 0x9f) || a == 0xee || a == 0xef) then some 3
            else
              match rest with
              | d :: _ =>
                if tail b && tail c && tail d && ((a == 0xf0 && 0x90 ≤ b) ||
                    (0xf1 ≤ a && a ≤ 0xf3) || (a == 0xf4 && b ≤ 0x8f)) then some 4
                else none
              | [] => none
          | [] => none
      | [] => none

/-- A text with every byte that starts no rune replaced by U+FFFD. -/
def replaceInvalid : Nat → Bytes → Bytes
  | 0, _ => []
  | _, [] => []
  | fuel + 1, a :: rest =>
    match runeLength (a :: rest) with
    | some n => (a :: rest).take n ++ replaceInvalid fuel ((a :: rest).drop n)
    | none => [0xef, 0xbf, 0xbd] ++ replaceInvalid fuel rest

/-- What a JSON string brings back of a text. -/
def throughJSON (s : Bytes) : Bytes := replaceInvalid s.length s

/-- Valid UTF-8: nothing is replaced. -/
def ValidUTF8 (s : Bytes) : Prop := throughJSON s = s

instance (s : Bytes) : Decidable (ValidUTF8 s) := inferInstanceAs (Decidable (_ = _))

structure CursorToken where
  plugin : Bytes
  keyPrefix : Bytes
  last : Bytes
  deriving DecidableEq

/-- The text of a cursor: JSON in base 64, which is not empty and brings a token back
with its strings as JSON leaves them. -/
structure CursorCodec where
  encode : CursorToken → Bytes
  decode : Bytes → Option CursorToken
  encode_ne_nil : ∀ t, encode t ≠ []
  decode_encode : ∀ t, decode (encode t) =
    some ⟨throughJSON t.plugin, throughJSON t.keyPrefix, throughJSON t.last⟩

/-- A text that tells its end. -/
def escape : Bytes → Bytes
  | [] => [0]
  | b :: bs => 1 :: b :: escape bs

def unescape : Bytes → Option (Bytes × Bytes)
  | 0 :: rest => some ([], rest)
  | 1 :: b :: rest => (unescape rest).map fun r => (b :: r.1, r.2)
  | _ => none

lemma unescape_escape (s rest : Bytes) : unescape (escape s ++ rest) = some (s, rest) := by
  induction s with
  | nil => rfl
  | cons b s ih =>
  show (unescape (escape s ++ rest)).map _ = _
  rw [ih]
  rfl

/-- A codec to run examples with. -/
def plainCodec : CursorCodec where
  encode t := escape t.plugin ++ (escape t.keyPrefix ++ (escape t.last ++ []))
  decode s := do
    let (plugin, s) ← unescape s
    let (keyPrefix, s) ← unescape s
    let (last, _) ← unescape s
    return ⟨throughJSON plugin, throughJSON keyPrefix, throughJSON last⟩
  encode_ne_nil t h := by
    obtain ⟨plugin, keyPrefix, last⟩ := t
    cases plugin <;> cases h
  decode_encode t := by
    simp only [unescape_escape, Option.bind_eq_bind, Option.bind_some, Option.pure_def]

/-- `decodeCursor`: the last key, or nothing where there is no cursor. -/
def decodeCursor (codec : CursorCodec) (plugin keyPrefix cursor : Bytes) : Except String Bytes :=
  if cursor = [] then .ok []
  else
    match codec.decode cursor with
    | none => .error "invalid cursor"
    | some token =>
      if token.plugin ≠ plugin ∨ token.keyPrefix ≠ keyPrefix then .error "invalid cursor"
      else .ok token.last

def encodeCursor (codec : CursorCodec) (plugin keyPrefix last : Bytes) : Bytes :=
  codec.encode ⟨plugin, keyPrefix, last⟩

end ToranaEdge.PluginState
