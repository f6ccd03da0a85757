import Mathlib.Data.List.Basic

/-! # Wire values

Byte strings, the one enumeration that both the stream and the request
messages use, and the texts Go makes of scalar values where a digest is
taken over text: `[]byte(s)`, `fmt.Sprint` of an enum, and
`protoreflect.Value.String`. -/

namespace ToranaEdge

open List

/-- Raw bytes (Go `[]byte`). -/
abbrev Bytes : Type := List UInt8

/-! ## Strings and numbers as bytes -/

/-- `[]byte(s)`. -/
def utf8 (s : String) : Bytes := s.toUTF8.data.toList

lemma utf8_inj {s t : String} (h : utf8 s = utf8 t) : s = t :=
  String.toByteArray_inj.mp (ByteArray.ext (Array.ext' h))

lemma repr_inj {m n : Nat} (h : m.repr = n.repr) : m = n := by
  have hdigits : Nat.toDigits 10 m = Nat.toDigits 10 n := String.ofList_injective h
  rw [← Nat.ofDigitChars_toDigits (b := 10) (n := m) (by decide) (by decide), hdigits,
    Nat.ofDigitChars_toDigits (by decide) (by decide)]

/-- A decimal text starts with a digit. -/
lemma repr_eq_cons (n : Nat) : ∃ c cs, n.repr.toList = c :: cs ∧ c.isDigit = true := by
  have hlist : n.repr.toList = Nat.toDigits 10 n := String.toList_ofList
  obtain ⟨c, cs, hcons⟩ :=
    exists_cons_of_ne_nil (ne_nil_of_length_pos (@Nat.length_toDigits_pos 10 n))
  refine ⟨c, cs, by rw [hlist, hcons], ?_⟩
  exact Nat.isDigit_of_mem_toDigits (b := 10) (n := n) (by decide) (by decide)
    (by rw [hcons]; simp)

lemma minus_append_repr_ne (m n : Nat) : "-" ++ m.repr ≠ n.repr := by
  intro h
  obtain ⟨c, cs, hcons, hdigit⟩ := repr_eq_cons n
  have hlist : '-' :: m.repr.toList = c :: cs := by
    rw [← hcons, ← h, String.toList_append]
    rfl
  rw [cons.injEq] at hlist
  rw [← hlist.1] at hdigit
  revert hdigit
  decide

lemma intRepr_inj {a b : Int} (h : a.repr = b.repr) : a = b := by
  cases a with
  | ofNat m =>
    cases b with
    | ofNat n => rw [repr_inj h]
    | negSucc n => exact absurd h.symm (minus_append_repr_ne _ _)
  | negSucc m =>
  cases b with
  | ofNat n => exact absurd h (minus_append_repr_ne _ _)
  | negSucc n =>
    have hrepr : m.succ.repr = n.succ.repr := (String.append_right_inj "-").mp h
    rw [Nat.succ.inj (repr_inj hrepr)]

/-- The decimal digits of a byte, as Go prints it. -/
def decimal (b : UInt8) : Bytes := utf8 b.toNat.repr

def isDigitByte (b : UInt8) : Bool := 48 ≤ b && b ≤ 57

lemma decimal_inj {b c : UInt8} (h : decimal b = decimal c) : b = c :=
  UInt8.toNat_inj.mp (repr_inj (utf8_inj h))

lemma isDigitByte_of_mem_decimal {b d : UInt8} (h : d ∈ decimal b) : isDigitByte d = true := by
  have hall : ∀ n < 256, (utf8 n.repr).all isDigitByte = true := by decide +kernel
  have hb := hall b.toNat b.toNat_lt
  exact all_eq_true.mp hb d h

/-- The part of `fmt.Sprint` of a byte slice after the opening bracket. -/
def sprintRest : Bytes → Bytes
  | [] => [93]
  | [b] => decimal b ++ [93]
  | b :: rest => decimal b ++ 32 :: sprintRest rest

/-- `fmt.Sprint` of a byte slice: the text `[1 2 3]`. -/
def sprintBytes (bs : Bytes) : Bytes := 91 :: sprintRest bs

/-- The digits of a decimal end at the first byte that is none. -/
lemma decimal_append_inj {b c x y : UInt8} {s t : Bytes} (hx : isDigitByte x = false)
    (hy : isDigitByte y = false) (h : decimal b ++ x :: s = decimal c ++ y :: t) :
    b = c ∧ x = y ∧ s = t := by
  have htake : ∀ (d e : UInt8) (r : Bytes), isDigitByte e = false →
      (decimal d ++ e :: r).takeWhile isDigitByte = decimal d := by
    intro d e r he
    rw [takeWhile_append_of_pos fun a ha => isDigitByte_of_mem_decimal ha]
    simp [he]
  have hdigits : decimal b = decimal c := by
    rw [← htake b x s hx, ← htake c y t hy, h]
  rw [hdigits] at h
  have hrest := append_cancel_left h
  rw [cons.injEq] at hrest
  exact ⟨decimal_inj hdigits, hrest⟩

lemma decimal_ne_nil (b : UInt8) : decimal b ≠ [] := by
  have hall : ∀ n < 256, utf8 n.repr ≠ [] := by decide +kernel
  exact hall b.toNat b.toNat_lt

lemma decimal_append_ne_bracket (b : UInt8) (s : Bytes) : decimal b ++ s ≠ [93] := by
  intro h
  obtain ⟨d, ds, hd⟩ := exists_cons_of_ne_nil (decimal_ne_nil b)
  have hmem : d ∈ decimal b := by rw [hd]; simp
  rw [hd, cons_append, cons.injEq] at h
  have hdigit := isDigitByte_of_mem_decimal hmem
  rw [h.1] at hdigit
  revert hdigit
  decide

lemma sprintRest_inj : ∀ {xs ys : Bytes}, sprintRest xs = sprintRest ys → xs = ys
  | [], [], _ => rfl
  | [], [c], h => absurd h.symm (decimal_append_ne_bracket c _)
  | [], c :: _ :: _, h => absurd h.symm (decimal_append_ne_bracket c _)
  | [b], [], h => absurd h (decimal_append_ne_bracket b _)
  | b :: _ :: _, [], h => absurd h (decimal_append_ne_bracket b _)
  | [b], [c], h => by
    obtain ⟨rfl, -, -⟩ := decimal_append_inj (by decide) (by decide) h
    rfl
  | [b], c :: _ :: _, h | b :: _ :: _, [c], h => by
    obtain ⟨-, hsep, -⟩ := decimal_append_inj (by decide) (by decide) h
    exact absurd hsep (by decide)
  | b :: b' :: xs, c :: c' :: ys, h => by
    obtain ⟨rfl, -, hrest⟩ := decimal_append_inj (by decide) (by decide) h
    rw [sprintRest_inj hrest]

lemma sprintBytes_inj {xs ys : Bytes} (h : sprintBytes xs = sprintBytes ys) : xs = ys := by
  unfold sprintBytes at h
  rw [cons.injEq] at h
  exact sprintRest_inj h.2

/-! ## The invocation kind -/

/-- `ToolInvocationKind`: an open protobuf enum.  A number the schema knows is
one of the named values, so the third arm excludes them. -/
inductive ToolInvocationKind where
  | function
  | freeform
  | unrecognized (n : Int32) (h : n ≠ 0 ∧ n ≠ 1)
  deriving DecidableEq, Repr

namespace ToolInvocationKind

def number : ToolInvocationKind → Int32
  | function => 0
  | freeform => 1
  | unrecognized n _ => n

/-- The enum's `String` method: the value's name, or its number. -/
def name : ToolInvocationKind → String
  | function => "TOOL_INVOCATION_KIND_FUNCTION"
  | freeform => "TOOL_INVOCATION_KIND_FREEFORM"
  | unrecognized n _ => n.toInt.repr

variable {j k : ToolInvocationKind}

lemma number_inj (h : j.number = k.number) : j = k := by
  cases j <;> cases k <;> simp_all [number, eq_comm]

/-- `protoreflect.Value.String` of an enum value. -/
def text (k : ToolInvocationKind) : Bytes := utf8 k.number.toInt.repr

lemma text_inj (h : j.text = k.text) : j = k :=
  number_inj (Int32.toInt_inj.mp (intRepr_inj (utf8_inj h)))

/-- `fmt.Sprint` of an enum value. -/
def sprint (k : ToolInvocationKind) : Bytes := utf8 k.name

/-- A name is not a number. -/
lemma intRepr_ne {s : String} {c : Char} {cs : List Char} (hs : s.toList = c :: cs)
    (hc : c.isDigit = false ∧ c ≠ '-') (n : Int) : n.repr ≠ s := by
  intro h
  have hlist : n.repr.toList = c :: cs := by rw [h, hs]
  cases n with
  | ofNat m =>
    obtain ⟨d, ds, hcons, hdigit⟩ := repr_eq_cons m
    have hhead : d :: ds = c :: cs := hcons.symm.trans hlist
    rw [cons.injEq] at hhead
    rw [hhead.1, hc.1] at hdigit
    cases hdigit
  | negSucc m =>
  have hhead : '-' :: m.succ.repr.toList = c :: cs := by
    rw [← hlist]
    show _ = ("-" ++ m.succ.repr).toList
    rw [String.toList_append]
    rfl
  rw [cons.injEq] at hhead
  exact hc.2 hhead.1.symm

lemma sprint_inj (h : j.sprint = k.sprint) : j = k := by
  have hname : j.name = k.name := utf8_inj h
  have hfun : ∀ n : Int, n.repr ≠ "TOOL_INVOCATION_KIND_FUNCTION" := intRepr_ne rfl (by decide)
  have hfree : ∀ n : Int, n.repr ≠ "TOOL_INVOCATION_KIND_FREEFORM" := intRepr_ne rfl (by decide)
  cases j with
  | function =>
    cases k with
    | function => rfl
    | freeform => exact absurd hname (by decide)
    | unrecognized n _ => exact absurd hname.symm (hfun _)
  | freeform =>
    cases k with
    | function => exact absurd hname (by decide)
    | freeform => rfl
    | unrecognized n _ => exact absurd hname.symm (hfree _)
  | unrecognized n _ =>
  cases k with
  | function => exact absurd hname (hfun _)
  | freeform => exact absurd hname (hfree _)
  | unrecognized m _ =>
  have hnm : n = m := Int32.toInt_inj.mp (intRepr_inj hname)
  subst hnm
  rfl

end ToolInvocationKind

end ToranaEdge
