import Mathlib.Data.List.Basic
import Mathlib.Logic.Basic
import Mathlib.Tactic.Ring

/-! # Length-framed encodings

A record is hashed after being written as a byte string: every variable
part is preceded by its length, optional parts by a tag and a presence
byte.  What such an encoding must give is unique reading: whatever follows,
the record and the rest of the string are determined.

`Readable` states that, relative to a size limit no in-memory object
reaches, and the rules below derive it for compound records from their
parts. -/

namespace Framing

open List

universe u v

abbrev Bytes : Type := List UInt8

/-- No object in memory is this long; a 48-bit address space holds no more. -/
def limit : Nat := 2 ^ 48

/-! ## Fixed-width integers -/

/-- The `k` low bytes of `n`, least significant first. -/
def leBytes : Nat → Nat → Bytes
  | 0, _ => []
  | k + 1, n => UInt8.ofNat n :: leBytes k (n / 256)

@[simp] lemma length_leBytes (k n : Nat) : (leBytes k n).length = k := by
  induction k generalizing n with
  | zero => rfl
  | succ k ih => simp [leBytes, ih]

lemma leBytes_inj {k n m : Nat} (h : leBytes k n = leBytes k m) : n % 256 ^ k = m % 256 ^ k := by
  induction k generalizing n m with
  | zero => simp [Nat.mod_one]
  | succ k ih =>
  simp only [leBytes, cons.injEq] at h
  obtain ⟨hbyte, hrest⟩ := h
  have hlow : n % 256 = m % 256 := by
    have hnat := congrArg UInt8.toNat hbyte
    simpa using hnat
  have hhigh := ih hrest
  rw [Nat.pow_succ', Nat.mod_mul, Nat.mod_mul, hlow, hhigh]

/-- A 64-bit integer, little endian. -/
def le64 (n : Nat) : Bytes := leBytes 8 n

@[simp] lemma length_le64 (n : Nat) : (le64 n).length = 8 := length_leBytes 8 n

lemma le64_inj {n m : Nat} (hn : n < 2 ^ 64) (hm : m < 2 ^ 64) (h : le64 n = le64 m) : n = m := by
  have hmod := leBytes_inj h
  have hpow : (256 : Nat) ^ 8 = 2 ^ 64 := by norm_num
  rw [hpow, Nat.mod_eq_of_lt hn, Nat.mod_eq_of_lt hm] at hmod
  exact hmod

lemma lt_of_lt_limit {n : Nat} (h : n < limit) : n < 2 ^ 64 := by
  unfold limit at h
  omega

/-! ## Unique reading -/

variable {α : Type u}

/-- Within the size limit, an encoded `a` in `dom` followed by anything can be
read in one way only. -/
def Readable (dom : α → Prop) (enc : α → Bytes) : Prop :=
  ∀ ⦃a b : α⦄ ⦃s t : Bytes⦄, dom a → dom b → (enc a ++ s).length < limit →
    enc a ++ s = enc b ++ t → a = b ∧ s = t

section rules

variable {α : Type u} {β : Type v} {domA : α → Prop} {domB : β → Prop}
  {encA : α → Bytes} {encB : β → Bytes}

/-- Encodings of one length that are injective are readable. -/
lemma readable_of_length {n : Nat} (hlen : ∀ a, (encA a).length = n)
    (hinj : ∀ a b, domA a → domA b → encA a = encA b → a = b) : Readable domA encA := by
  intro a b s t ha hb _ h
  obtain ⟨henc, hrest⟩ := append_inj h (by rw [hlen, hlen])
  exact ⟨hinj a b ha hb henc, hrest⟩

lemma Readable.injOn (h : Readable domA encA) {a b : α} (ha : domA a) (hb : domA b)
    (hlen : (encA a).length < limit) (heq : encA a = encA b) : a = b := by
  have hnil : encA a ++ [] = encA b ++ [] := by rw [heq]
  exact (h ha hb (by simpa using hlen) hnil).1

/-- Two readable parts in a row. -/
lemma Readable.append (hA : Readable domA encA) (hB : Readable domB encB) :
    Readable (fun p : α × β => domA p.1 ∧ domB p.2) (fun p => encA p.1 ++ encB p.2) := by
  rintro ⟨a, b⟩ ⟨a', b'⟩ s t ⟨ha, hb⟩ ⟨ha', hb'⟩ hlen h
  simp only [append_assoc] at h hlen
  obtain ⟨rfl, hrest⟩ := hA ha ha' hlen h
  have hlen' : (encB b ++ s).length < limit := by
    simp only [length_append] at hlen ⊢
    omega
  obtain ⟨rfl, hst⟩ := hB hb hb' hlen' hrest
  exact ⟨rfl, hst⟩

/-- Reading a record through what its encoding is written from. -/
lemma Readable.comap (hA : Readable domA encA) (f : β → α) (hdom : ∀ b, domB b → domA (f b))
    (hinj : ∀ b b', domB b → domB b' → f b = f b' → b = b') :
    Readable domB (fun b => encA (f b)) := by
  intro b b' s t hb hb' hlen h
  obtain ⟨hf, hst⟩ := hA (hdom b hb) (hdom b' hb') hlen h
  exact ⟨hinj b b' hb hb' hf, hst⟩

lemma Readable.of_injective (hA : Readable (fun _ => True) encA) {f : β → α}
    (hf : Function.Injective f) : Readable (fun _ => True) fun b => encA (f b) :=
  hA.comap f (fun _ _ => trivial) fun _ _ _ _ h => hf h

/-- Records up to an end that cannot be read as a record of the longer list. -/
lemma Readable.flatMap_end (hA : Readable domA encA) {xs ys : List α} {s t : Bytes}
    (hxs : ∀ x ∈ xs, domA x) (hys : ∀ y ∈ ys, domA y)
    (hsize : (xs.flatMap encA ++ s).length < limit)
    (hs : ∀ y (zs : List α), xs.length < ys.length → s ≠ encA y ++ (zs.flatMap encA ++ t))
    (ht : ∀ x (zs : List α), ys.length < xs.length → t ≠ encA x ++ (zs.flatMap encA ++ s))
    (h : xs.flatMap encA ++ s = ys.flatMap encA ++ t) : xs = ys ∧ s = t := by
  induction xs generalizing ys with
  | nil =>
    cases ys with
    | nil => exact ⟨rfl, h⟩
    | cons y ys =>
      rw [flatMap_cons, append_assoc] at h
      exact absurd h (hs y ys (by simp))
  | cons x xs ih =>
  simp only [flatMap_cons, append_assoc] at h hsize
  cases ys with
  | nil => exact absurd h.symm (ht x xs (by simp))
  | cons y ys =>
  rw [flatMap_cons, append_assoc] at h
  obtain ⟨rfl, hrest⟩ := hA (hxs x (by simp)) (hys y (by simp)) hsize h
  have hsize' : (xs.flatMap encA ++ s).length < limit := by
    rw [length_append] at hsize
    omega
  simp only [length_cons, Nat.add_lt_add_iff_right] at hs ht
  obtain ⟨rfl, hst⟩ := ih (fun x' hx' => hxs x' (by simp [hx']))
    (fun y' hy' => hys y' (by simp [hy'])) hsize' hs ht hrest
  exact ⟨rfl, hst⟩

/-- A whole string of records: the end of the string ends the list. -/
lemma Readable.flatMap_inj (hA : Readable domA encA) (hne : ∀ a, encA a ≠ []) {xs ys : List α}
    (hxs : ∀ x ∈ xs, domA x) (hys : ∀ y ∈ ys, domA y) (hsize : (xs.flatMap encA).length < limit)
    (h : xs.flatMap encA = ys.flatMap encA) : xs = ys := by
  have hend : ∀ y (zs : List α), [] ≠ encA y ++ (zs.flatMap encA ++ []) := by
    intro y zs hnil
    exact hne y (append_eq_nil_iff.mp hnil.symm).1
  exact (hA.flatMap_end hxs hys (by rwa [append_nil]) (fun y zs _ => hend y zs)
    (fun y zs _ => hend y zs) (by rw [h])).1

end rules

/-! ## Frames and fields -/

/-- A part preceded by its length. -/
def framed (p : Bytes) : Bytes := le64 p.length ++ p

lemma framed_ne_nil (p : Bytes) : framed p ≠ [] := by
  simp [framed, le64, leBytes]

@[simp] lemma length_framed (p : Bytes) : (framed p).length = 8 + p.length := by
  simp [framed]

/-- A part after its length, however the length is written. -/
lemma readable_lengthFirst {word : Nat → Bytes} (hlength : ∀ n, (word n).length = 8)
    (hword : ∀ n m, n < 2 ^ 64 → m < 2 ^ 64 → word n = word m → n = m) :
    Readable (fun _ => True) fun p : Bytes => word p.length ++ p := by
  intro p q s t _ _ hlen h
  have hq : (word q.length ++ q ++ t).length < limit := h ▸ hlen
  simp only [append_assoc] at h
  obtain ⟨hcount, hrest⟩ := append_inj h (by rw [hlength, hlength])
  simp only [length_append] at hlen hq
  have hpq : p.length = q.length :=
    hword _ _ (lt_of_lt_limit (by omega)) (lt_of_lt_limit (by omega)) hcount
  exact append_inj hrest hpq

lemma readable_framed : Readable (fun _ => True) framed :=
  readable_lengthFirst length_le64 fun _ _ => le64_inj

/-- A number framed as eight bytes. -/
def framedNat (n : Nat) : Bytes := framed (le64 n)

@[simp] lemma length_framedNat (n : Nat) : (framedNat n).length = 16 := by
  simp [framedNat]

lemma readable_framedNat : Readable (fun n => n < limit) framedNat := by
  refine readable_of_length length_framedNat ?_
  intro n m hn hm h
  have hle : le64 n = le64 m := by
    have hlen : (framed (le64 n)).length < limit := by simp [limit]
    exact readable_framed.injOn trivial trivial hlen h
  exact le64_inj (lt_of_lt_limit hn) (lt_of_lt_limit hm) hle

variable (tag : UInt8)

/-- A value with the field it belongs to and whether it was set. -/
def field (present : Bool) (value : Bytes) : Bytes :=
  [tag, if present then 1 else 0] ++ framed value

lemma field_ne_nil (present : Bool) (value : Bytes) : field tag present value ≠ [] := by
  simp [field]

lemma readable_field : Readable (fun _ => True) (fun f : Bool × Bytes => field tag f.1 f.2) := by
  rintro ⟨p, v⟩ ⟨q, w⟩ s t _ _ hlen h
  simp only [field, cons_append, nil_append, cons.injEq, true_and] at h hlen
  obtain ⟨hpresent, hframe⟩ := h
  have hpq : p = q := by
    cases p <;> cases q <;> simp at hpresent ⊢
  have hlen' : (framed v ++ s).length < limit := by
    simp only [length_cons] at hlen
    omega
  obtain ⟨rfl, hst⟩ := readable_framed trivial trivial hlen' hframe
  exact ⟨by rw [hpq], hst⟩

/-- An optional value as a field; absent values are written empty. -/
def optField (value : Option Bytes) : Bytes :=
  field tag value.isSome (value.getD [])

lemma readable_optField : Readable (fun _ => True) (optField tag) := by
  refine (readable_field tag).of_injective (f := fun v : Option Bytes => (v.isSome, v.getD [])) ?_
  intro v w h
  cases v <;> cases w <;> simp_all

/-- Records preceded by their number. -/
def counted (enc : α → Bytes) (xs : List α) : Bytes :=
  framedNat xs.length ++ xs.flatMap enc

lemma Readable.counted {dom : α → Prop} {enc : α → Bytes} (h : Readable dom enc) :
    Readable (fun xs : List α => xs.length < limit ∧ ∀ x ∈ xs, dom x) (counted enc) := by
  rintro xs ys s t ⟨hxl, hxs⟩ ⟨hyl, hys⟩ hlen heq
  simp only [Framing.counted, append_assoc] at heq hlen
  obtain ⟨hcount, hrest⟩ := readable_framedNat hxl hyl hlen heq
  have hlen' : (xs.flatMap enc ++ s).length < limit := by
    rw [length_append] at hlen
    omega
  exact h.flatMap_end hxs hys hlen' (fun _ _ hlt => absurd hlt (by omega))
    (fun _ _ hlt => absurd hlt (by omega)) hrest

/-- Records that are written with their position. -/
lemma Readable.zipIdx_inj {dom : α → Prop} {enc : α → Bytes} (h : Readable dom enc)
    {xs ys : List α} (hxs : ∀ x ∈ xs, dom x) (hys : ∀ y ∈ ys, dom y) (hxl : xs.length < limit)
    (hyl : ys.length < limit)
    (hsize : (xs.zipIdx.flatMap fun x => framedNat x.2 ++ enc x.1).length < limit)
    (heq : (xs.zipIdx.flatMap fun x => framedNat x.2 ++ enc x.1) =
      ys.zipIdx.flatMap fun y => framedNat y.2 ++ enc y.1) : xs = ys := by
  have hread : Readable (fun x : α × Nat => x.2 < limit ∧ dom x.1)
      fun x => framedNat x.2 ++ enc x.1 :=
    (readable_framedNat.append h).comap Prod.swap (fun _ hx => hx)
      fun _ _ _ _ hab => Prod.swap_injective hab
  have hdom : ∀ l : List α, (∀ x ∈ l, dom x) → l.length < limit →
      ∀ x ∈ l.zipIdx, x.2 < limit ∧ dom x.1 := by
    intro l hl hlen x hx
    have hidx := snd_lt_of_mem_zipIdx hx
    exact ⟨by omega, hl x.1 (fst_mem_of_mem_zipIdx hx)⟩
  have hzip := hread.flatMap_inj (fun x => by simp [framedNat, framed_ne_nil]) (hdom xs hxs hxl)
    (hdom ys hys hyl) hsize heq
  rw [← zipIdx_map_fst 0 xs, hzip, zipIdx_map_fst]

/-! ## A list that is closed by its count

Frames followed by their number and one last field: nothing announces where
the list ends, yet the whole string has one reading, because a field read as
a frame would be longer than the string. -/

lemma take_leBytes {j k : Nat} (h : j ≤ k) (n : Nat) : (leBytes k n).take j = leBytes j n := by
  induction j generalizing k n with
  | zero => rfl
  | succ j ih =>
    obtain ⟨k', rfl⟩ : ∃ k', k = k' + 1 := ⟨k - 1, by omega⟩
    simp [leBytes, ih (Nat.le_of_succ_le_succ h)]

/-- The last field of a string is not a frame followed by three or more bytes. -/
lemma field_ne_framed_append {tag : UInt8} {present : Bool} {value part rest : Bytes}
    (hsize : (field tag present value).length < limit) (hrest : 2 < rest.length) :
    field tag present value ≠ framed part ++ rest := by
  intro h
  have hlen := congrArg length h
  have hsize' : value.length < limit := by
    simp only [field, length_append, length_framed] at hsize
    omega
  simp only [field, length_append, length_framed, length_cons, length_nil] at hlen
  -- bytes 2 to 7 hold the low bytes of one length and the high bytes of the other
  have hbytes : ((field tag present value).drop 2).take 6 =
      ((framed part ++ rest).drop 2).take 6 := by rw [h]
  have hleft : ((field tag present value).drop 2).take 6 = leBytes 6 value.length := by
    simp only [field, framed, cons_append, nil_append, drop_succ_cons, drop_zero, le64]
    rw [take_append_of_le_length (by simp), take_leBytes (by omega)]
  rw [hleft] at hbytes
  have hmod := leBytes_inj hbytes
  have hvalue : value.length % 256 ^ 6 = value.length := by
    unfold limit at hsize'
    omega
  omega

lemma frames_count_field_inj {tag : UInt8} {xs ys : List Bytes} {n m : Nat} {v w : Option Bytes}
    (hn : n < limit) (hm : m < limit)
    (hsize : (xs.flatMap framed ++ (framedNat n ++ optField tag v)).length < limit)
    (h : xs.flatMap framed ++ (framedNat n ++ optField tag v) =
      ys.flatMap framed ++ (framedNat m ++ optField tag w)) : xs = ys ∧ v = w := by
  -- a list that ends while the other goes on makes the last field a frame
  have hend : ∀ {y : Bytes} {zs : List Bytes} {j k : Nat} {a b : Option Bytes},
      (framedNat j ++ optField tag a).length < limit → framedNat j ++ optField tag a ≠
        framed y ++ (zs.flatMap framed ++ (framedNat k ++ optField tag b)) := by
    intro y zs j k a b hlen heq
    obtain ⟨-, hrest⟩ := readable_framed trivial trivial hlen heq
    have hshort : (optField tag a).length < limit := by
      rw [length_append] at hlen
      omega
    cases zs with
    | nil =>
      refine field_ne_framed_append hshort ?_ hrest
      simp [optField, field]
    | cons z zs =>
    rw [flatMap_cons, append_assoc] at hrest
    refine field_ne_framed_append hshort ?_ hrest
    simp
    omega
  have hlast : (framedNat n ++ optField tag v).length < limit := by
    rw [length_append] at hsize
    omega
  have hlast' : (framedNat m ++ optField tag w).length < limit := by
    rw [h, length_append] at hsize
    omega
  obtain ⟨hxy, hrest⟩ := readable_framed.flatMap_end (fun _ _ => trivial) (fun _ _ => trivial) hsize
    (fun _ _ _ => hend hlast) (fun _ _ _ => hend hlast') h
  obtain ⟨-, hfield⟩ := readable_framedNat hn hm hlast hrest
  rw [length_append] at hlast
  exact ⟨hxy, (readable_optField tag).injOn trivial trivial (by omega) hfield⟩

end Framing
