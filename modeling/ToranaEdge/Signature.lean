import Mathlib.Logic.Basic

/-! # Signature mutation classes

The plugin SDK classifies what happened to a provider token between the
accepted and the returned side of one scope
(`outboundpolicy.ClassifySignatureMutation`).  The verifiers only read two
things off the class: whether it is allowed, and its name in the error.

The SDK is not part of this repository, so the classifier is a parameter.
`SignatureClassifier` bundles it with the one law the verifiers rely on. -/

namespace ToranaEdge

/-- The grant function of a plugin without any grant. -/
def grantNothing : String → Bool := fun _ => false

/-- The grant function of a plugin that holds every grant. -/
def grantEverything : String → Bool := fun _ => true

/-- The classes the verifiers name in their errors. -/
inductive SignatureMutation where
  | intact
  | cleared
  | dropped
  | stale
  | forged
  | added
  deriving DecidableEq, Repr

instance : ToString SignatureMutation where
  toString
    | .intact => "intact"
    | .cleared => "cleared"
    | .dropped => "dropped"
    | .stale => "stale"
    | .forged => "forged"
    | .added => "added"

/-- `Allowed` of the SDK: the token survived with its content, or was cleared
because its content changed. -/
def SignatureMutation.allowed : SignatureMutation → Bool
  | .intact => true
  | .cleared => true
  | _ => false

/-- A classifier of token changes with its specification: a change is allowed
exactly when token and content are both unchanged, when there is no token
on either side, or when a token is cleared over changed content. -/
structure SignatureClassifier where
  classify : (before after : String) → (contentChanged : Bool) → SignatureMutation
  allowed_iff : ∀ before after changed, (classify before after changed).allowed = true ↔
    (before = after ∧ changed = false) ∨ (before = "" ∧ after = "") ∨
      (before ≠ "" ∧ after = "" ∧ changed = true)

namespace SignatureClassifier

variable (cls : SignatureClassifier)

/-- Over changed content the only admissible result is an empty token. -/
lemma allowed_changed_iff (before after : String) :
    (cls.classify before after true).allowed = true ↔ after = "" := by
  rw [cls.allowed_iff]
  by_cases hb : before = "" <;> simp [hb]

/-- Over unchanged content the token must be unchanged too. -/
lemma allowed_unchanged_iff (before after : String) :
    (cls.classify before after false).allowed = true ↔ before = after := by
  rw [cls.allowed_iff]
  constructor
  · rintro (⟨h, -⟩ | ⟨hb, ha⟩ | ⟨-, -, h⟩)
    · exact h
    · rw [hb, ha]
    · cases h
  · intro h
    exact .inl ⟨h, rfl⟩

end SignatureClassifier

/-- The classification by cases on the two tokens. -/
def classifySignatureMutation (before after : String) (contentChanged : Bool) :
    SignatureMutation :=
  if before = after then
    if before ≠ "" ∧ contentChanged then .stale else .intact
  else if after = "" then
    if contentChanged then .cleared else .dropped
  else if before = "" then .added
  else .forged

/-- A classifier exists: the case analysis above meets the specification. -/
def standardClassifier : SignatureClassifier where
  classify := classifySignatureMutation
  allowed_iff := by
    intro before after changed
    unfold classifySignatureMutation
    by_cases heq : before = after
    · subst heq
      cases changed <;> by_cases hb : before = "" <;> simp [hb, SignatureMutation.allowed]
    by_cases ha : after = ""
    · subst ha
      cases changed <;> simp [heq, SignatureMutation.allowed]
    · by_cases hb : before = "" <;> simp [heq, ha, hb, SignatureMutation.allowed]

end ToranaEdge
