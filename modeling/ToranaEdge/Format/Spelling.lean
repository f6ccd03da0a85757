import ToranaEdge.Format.Decode
import ToranaEdge.Format.Extensions

/-! # A text for every JSON value

The adapters take the JSON texts from `encoding/json`, and what they assume of
them is a hypothesis of the results about them.  This is one notation that
satisfies it: a value is written as the instructions that build it on a stack. -/

namespace ToranaEdge.Format

open Engine List

def spellString (s : String) : List Char := '"' :: s.toList.flatMap fun c => ['\\', c]

mutual

def spell : Json → List Char
  | .null => ['n']
  | .bool true => ['t']
  | .bool false => ['f']
  | .num lexeme => spellString lexeme ++ ['#']
  | .str s => spellString s
  | .arr elems => '[' :: spellElems elems
  | .obj members => '\x7b' :: spellMembers members

def spellElems : List Json → List Char
  | [] => []
  | v :: rest => spell v ++ ',' :: spellElems rest

def spellMembers : Entries → List Char
  | [] => ['\x7d']
  | ⟨key, v⟩ :: rest => spellString key ++ (spell v ++ ':' :: spellMembers rest)

end

/-- The values on the stack after the instructions. -/
def build : List Char → List Json → Option (List Json)
  | [], stack => some stack
  | 'n' :: rest, stack => build rest (.null :: stack)
  | 't' :: rest, stack => build rest (.bool true :: stack)
  | 'f' :: rest, stack => build rest (.bool false :: stack)
  | '"' :: rest, stack => build rest (.str "" :: stack)
  | '\\' :: c :: rest, .str s :: stack => build rest (.str (s.push c) :: stack)
  | '#' :: rest, .str s :: stack => build rest (.num s :: stack)
  | '[' :: rest, stack => build rest (.arr [] :: stack)
  | ',' :: rest, v :: .arr vs :: stack => build rest (.arr (vs ++ [v]) :: stack)
  | '\x7b' :: rest, stack => build rest (.obj [] :: stack)
  | ':' :: rest, v :: .str key :: .obj ms :: stack => build rest (.obj (ms ++ [⟨key, v⟩]) :: stack)
  | '\x7d' :: rest, .obj ms :: stack => build rest (.obj ms :: stack)
  | _, _ => none

/-- The value of a text, if it builds one. -/
def readAll (text : String) : Except String Json :=
  match build text.toList [] with
  | some [v] => .ok v
  | _ => .error "invalid text"

variable {rest : List Char} {stack : List Json}

lemma build_string (s : String) :
    build (spellString s ++ rest) stack = build rest (.str s :: stack) := by
  have hchars : ∀ (cs : List Char) (t : String), build ((cs.flatMap fun c => ['\\', c]) ++ rest)
      (.str t :: stack) = build rest (.str (t ++ String.ofList cs) :: stack) := by
    intro cs
    induction cs with
    | nil => simp
    | cons c cs ih =>
      intro t
      show build ((cs.flatMap fun c => ['\\', c]) ++ rest) (.str (t.push c) :: stack) = _
      rw [ih, String.ofList_cons, ← String.append_assoc, String.push_eq_append]
  have hall := hchars s.toList ""
  rwa [String.empty_append, String.ofList_toList] at hall

mutual

lemma build_spell : ∀ (v : Json) {rest : List Char} {stack : List Json},
    build (spell v ++ rest) stack = build rest (v :: stack)
  | .null, _, _ | .bool true, _, _ | .bool false, _, _ => rfl
  | .num lexeme, rest, stack => by
    rw [spell, append_assoc, build_string]
    rfl
  | .str s, _, _ => build_string s
  | .arr elems, _, _ => build_elems elems
  | .obj members, _, _ => build_members members

lemma build_elems : ∀ (vs : List Json) {rest : List Char} {stack done : List Json},
    build (spellElems vs ++ rest) (.arr done :: stack) = build rest (.arr (done ++ vs) :: stack)
  | [], _, _, done => by rw [append_nil]; rfl
  | v :: vs, rest, stack, done => by
    rw [spellElems, append_assoc, build_spell v]
    show build (spellElems vs ++ rest) (.arr (done ++ [v]) :: stack) = _
    rw [build_elems vs, append_assoc]
    rfl

lemma build_members : ∀ (ms : Entries) {rest : List Char} {stack : List Json} {done : Entries},
    build (spellMembers ms ++ rest) (.obj done :: stack) = build rest (.obj (done ++ ms) :: stack)
  | [], _, _, done => by rw [append_nil]; rfl
  | ⟨key, v⟩ :: ms, rest, stack, done => by
    rw [spellMembers, append_assoc, build_string, append_assoc, build_spell v]
    show build (spellMembers ms ++ rest) (.obj (done ++ [⟨key, v⟩]) :: stack) = _
    rw [build_members ms, append_assoc]
    rfl

end

/-- Every value is read back from its text. -/
lemma readAll_spell (v : Json) : readAll (String.ofList (spell v)) = .ok v := by
  have hbuild := @build_spell v [] []
  rw [append_nil] at hbuild
  unfold readAll
  rw [String.toList_ofList, hbuild]
  rfl

/-- A codec that reads what `spell` writes. -/
def spellingCodec : WireCodec where
  toCodec := { plainCodec with
    parse := readAll
    quote := fun s => String.ofList (spell (.str s)) }
  foldName s := String.ofList (s.toList.map Char.toLower)
  parseInt _ := .error "invalid syntax"
  parseFloat _ := .error "invalid syntax"
  decodesAny _ := true
  text members := String.ofList (spell members.json)

end ToranaEdge.Format
