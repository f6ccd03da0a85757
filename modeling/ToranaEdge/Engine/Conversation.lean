import Mathlib.Data.UInt
import ToranaEdge.Engine.Types
import ToranaEdge.Lib.Framing
import ToranaEdge.Wire

/-! # Conversation identity

A request is labelled by what does not change from turn to turn: the texts of
its system messages up to the first user message, and the text of that one.
They are written to a hasher, each after its length. -/

namespace ToranaEdge.Engine

open Framing List

/-- `messageText`: the text blocks in wire order. -/
def messageText (m : Message) : String := String.join (m.blocks.filterMap fun b => b.text.map (·.text))

/-- `writeHashField`: the length is big endian. -/
def hashField (s : String) : Bytes := (le64 (utf8 s).length).reverse ++ utf8 s

/-- A text with the name of its role. -/
def hashRecord (r : String × String) : Bytes := hashField r.1 ++ hashField r.2

def domainConversation : String := "torana/conversation/v1"

variable (shortHex : Bytes → String)

/-- The loop of `ConversationID`: what was hashed so far, and how many messages. -/
def conversationLoop (h : Bytes) (stable : Nat) : List Message → String
  | [] => if stable = 0 then "" else shortHex h
  | m :: rest =>
    if m.role = roleSystem then
      conversationLoop (h ++ hashRecord ("system", messageText m)) (stable + 1) rest
    else if m.role = roleUser then shortHex (h ++ hashRecord ("user", messageText m))
    else conversationLoop h stable rest

def conversationID (c : ChatRequest) : String :=
  if c.messages = [] then "" else conversationLoop shortHex (hashField domainConversation) 0 c.messages

/-! ## The opening of a conversation -/

variable (messages : List Message)

/-- The texts of the system messages before the first user message. -/
def systemTexts : List String :=
  ((messages.takeWhile (·.role ≠ roleUser)).filter (·.role = roleSystem)).map messageText

/-- The text of the first user message. -/
def userText : Option String :=
  (messages.find? (·.role = roleUser)).map messageText

def openingRecords : List (String × String) :=
  (systemTexts messages).map (Prod.mk "system") ++ (userText messages).toList.map (Prod.mk "user")

/-- What is hashed for a request with a user message. -/
def openingBytes : Bytes :=
  hashField domainConversation ++ (openingRecords messages).flatMap hashRecord

lemma openingRecords_cons (m : Message) (rest : List Message) : openingRecords (m :: rest) =
      if m.role = roleUser then [("user", messageText m)]
      else if m.role = roleSystem then ("system", messageText m) :: openingRecords rest
      else openingRecords rest := by
  unfold openingRecords systemTexts userText
  by_cases huser : m.role = roleUser
  · simp [huser]
  · by_cases hsystem : m.role = roleSystem
    · simp [hsystem, show roleSystem ≠ roleUser by decide]
    · simp [huser, hsystem]

variable {messages messages' : List Message} {c : ChatRequest}

lemma conversationLoop_eq (h : Bytes) (stable : Nat) (hu : ∃ m ∈ messages, m.role = roleUser) :
    conversationLoop shortHex h stable messages =
      shortHex (h ++ (openingRecords messages).flatMap hashRecord) := by
  induction messages generalizing h stable with
  | nil => simp at hu
  | cons m rest ih =>
  rw [conversationLoop, openingRecords_cons]
  by_cases huser : m.role = roleUser
  · simp [huser, show roleUser ≠ roleSystem by decide]
  have hrest := fun h stable => ih h stable (by simpa [huser] using hu)
  rw [hrest, hrest]
  split <;> simp

lemma conversationID_eq (hu : ∃ m ∈ c.messages, m.role = roleUser) :
    conversationID shortHex c = shortHex (openingBytes c.messages) := by
  have hne : c.messages ≠ [] := by
    rintro h
    simp [h] at hu
  rw [conversationID, if_neg hne, conversationLoop_eq _ _ _ hu]
  rfl

/-- What follows the first user message is not looked at. -/
lemma openingRecords_append (hu : ∃ m ∈ messages, m.role = roleUser) (more : List Message) :
    openingRecords (messages ++ more) = openingRecords messages := by
  induction messages with
  | nil => simp at hu
  | cons m rest ih =>
  rw [cons_append, openingRecords_cons, openingRecords_cons]
  split
  · rfl
  · next huser => rw [ih (by simpa [huser] using hu)]

lemma readable_hashRecord : Readable (fun _ => True) hashRecord := by
  have hbytes : Readable (fun _ => True) fun p : Bytes => (le64 p.length).reverse ++ p :=
    readable_lengthFirst (by simp) fun n m hn hm h => le64_inj hn hm (reverse_injective h)
  have hfield : Readable (fun _ => True) hashField := hbytes.of_injective fun _ _ => utf8_inj
  exact (hfield.append hfield).comap id (fun _ _ => ⟨trivial, trivial⟩) fun _ _ _ _ h => h

/-- Equal strings were written for equal texts. -/
lemma texts_of_openingBytes (hsize : (openingBytes messages).length < limit)
    (h : openingBytes messages = openingBytes messages') :
    systemTexts messages = systemTexts messages' ∧ userText messages = userText messages' := by
  rw [openingBytes, length_append] at hsize
  have hrecords := readable_hashRecord.flatMap_inj (by simp [hashRecord, hashField, le64, leBytes])
    (fun _ _ => trivial) (fun _ _ => trivial) (by omega) (append_cancel_left h)
  have htexts : ∀ tag, ((openingRecords messages).filter (·.1 = tag)).map Prod.snd =
      ((openingRecords messages').filter (·.1 = tag)).map Prod.snd := by
    intro tag
    rw [hrecords]
  have hsystem := htexts "system"
  have huser := htexts "user"
  simp [openingRecords, filter_map, Function.comp_def] at hsystem huser
  exact ⟨hsystem, by simpa using congrArg head? huser⟩

/-- **Conversation identity.**  Two requests with a user message have one label
exactly when their opening texts agree, and nothing after the first user
message counts. -/
theorem conversationID_eq_iff (c c' : ChatRequest)
    (hc : ∃ m ∈ c.messages, m.role = roleUser) (hc' : ∃ m ∈ c'.messages, m.role = roleUser)
    (hsize : (openingBytes c.messages).length < limit)
    (hhash : shortHex (openingBytes c.messages) = shortHex (openingBytes c'.messages) →
      openingBytes c.messages = openingBytes c'.messages) :
    (conversationID shortHex c = conversationID shortHex c' ↔
      systemTexts c.messages = systemTexts c'.messages ∧
        userText c.messages = userText c'.messages) ∧
    ∀ (more : List Message) (later : ChatRequest), later.messages = c.messages ++ more →
      conversationID shortHex later = conversationID shortHex c := by
  rw [conversationID_eq shortHex hc, conversationID_eq shortHex hc']
  refine ⟨⟨fun h => texts_of_openingBytes hsize (hhash h), fun h => ?_⟩, ?_⟩
  · rw [openingBytes, openingBytes, openingRecords, h.1, h.2, openingRecords]
  intro more later hlater
  obtain ⟨m, hm, hrole⟩ := hc
  rw [conversationID_eq shortHex ⟨m, by simp [hlater, hm], hrole⟩, openingBytes, hlater,
    openingRecords_append ⟨m, hm, hrole⟩, openingBytes]

/-- A message of one text. -/
def say (role : Role) (text : String) : Message := { role, blocks := [{ text := some { text } }] }

/-- A system message and a question. -/
def opening (system question : String) : ChatRequest :=
  { messages := [say roleSystem system, say roleUser question] }

def horner (h : Bytes) : String := toString (h.foldl (fun n b => n * 257 + b.toNat) 0)

/-- Two splits of the same bytes have two labels; an answer and a second question leave
the label as it is. -/
theorem conversationID_eq_iff_splits :
    conversationID horner (opening "ab" "c") ≠ conversationID horner (opening "a" "bc") ∧
      conversationID horner { messages := (opening "ab" "c").messages ++
        [say roleAssistant "d", say roleUser "e"] } = conversationID horner (opening "ab" "c") := by
  obtain ⟨hlabel, hlater⟩ := conversationID_eq_iff horner (opening "ab" "c") (opening "a" "bc")
    (by decide) (by decide) (by decide +kernel) fun h => absurd h (by decide +kernel)
  exact ⟨fun h => absurd (hlabel.mp h).2 (by decide), hlater _ _ rfl⟩

end ToranaEdge.Engine
