import ToranaEdge.Lib.Align

/-! # Fallible computations over lists

Code that returns early on the first error is written in `Except`.  These
are the rules its proofs need: what a successful sequence or a successful
`mapM` is made of. -/

namespace Attempt

open List Align

universe u v

variable {ε : Type u} {α β γ δ : Type v}

variable {x : Except ε α} {f : α → Except ε β} {b : β} {g : α → β → Except ε γ}

lemma bind_eq_ok : (x >>= f) = .ok b ↔ ∃ a, x = .ok a ∧ f a = .ok b := by
  cases x with
  | error e | ok a => simp [bind, Except.bind]

/-- Two attempts in sequence. -/
lemma bind₂_eq_ok {c : γ} :
    (x >>= fun a => f a >>= g a) = .ok c ↔ ∃ a, x = .ok a ∧ ∃ b, f a = .ok b ∧ g a b = .ok c := by
  simp only [bind_eq_ok]

lemma bind₃_eq_ok {k : α → β → γ → Except ε δ} {d : δ} :
    (x >>= fun a => f a >>= fun b => g a b >>= k a b) = .ok d ↔
      ∃ a, x = .ok a ∧ ∃ b, f a = .ok b ∧ ∃ c, g a b = .ok c ∧ k a b c = .ok d := by
  simp only [bind_eq_ok]

variable {a : α}

/-- What an attempt is wrapped in adds nothing to it. -/
lemma bind_pure_eq_ok {f : α → β} (hf : ∀ a', f a' = f a → a' = a) :
    (x >>= fun a => pure (f a)) = .ok (f a) ↔ x = .ok a := by
  rw [bind_eq_ok]
  constructor
  · rintro ⟨a', hx, heq⟩
    rw [hx, hf a' (Except.ok.inj heq)]
  · intro hx
    exact ⟨a, hx, rfl⟩

/-- A check that is passed. -/
lemma guard_eq_ok {c : Prop} [Decidable c] {e : ε} :
    (if c then .error e else x) = .ok a ↔ ¬ c ∧ x = .ok a := by
  by_cases hc : c <;> simp [hc]

lemma map_eq_ok {f : α → β} : x.map f = .ok b ↔ ∃ a, x = .ok a ∧ f a = b := by
  cases x with
  | error e | ok a => simp [Except.map]

lemma mapError_eq_ok {ε' : Type u} {f : ε → ε'} : x.mapError f = .ok a ↔ x = .ok a := by
  cases x <;> simp [Except.mapError]

/-- An attempt whose error says where it was made. -/
def context {α : Type} (place : String) (x : Except String α) : Except String α :=
  x.mapError fun err => s!"{place}: {err}"

lemma context_eq_ok {α : Type} {place : String} {x : Except String α} {a : α} :
    context place x = .ok a ↔ x = .ok a := mapError_eq_ok

variable {as : List α} {bs : List β}

/-- A successful `mapM` succeeds elementwise. -/
lemma mapM_eq_ok : as.mapM f = .ok bs ↔ Forall₂ (fun a b => f a = .ok b) as bs := by
  induction as generalizing bs with
  | nil =>
    rw [forall₂_nil_left_iff]
    exact ⟨fun h => (Except.ok.inj h).symm, fun h => h ▸ rfl⟩
  | cons a as ih =>
  rw [mapM_cons, bind_eq_ok, forall₂_cons_left_iff]
  constructor
  · rintro ⟨b, hb, hrest⟩
    obtain ⟨bs', hbs, heq⟩ := bind_eq_ok.mp hrest
    cases heq
    exact ⟨b, bs', hb, ih.mp hbs, rfl⟩
  · rintro ⟨b, bs', hb, hbs, rfl⟩
    exact ⟨b, hb, bind_eq_ok.mpr ⟨bs', ih.mpr hbs, rfl⟩⟩

/-- A loop that forgets what it had ends with what the last element gives. -/
lemma foldlM_last {b' : β} (h : as.foldlM (fun _ a => f a) b = .ok b') :
    as = [] ∧ b' = b ∨ ∃ a, as.getLast? = some a ∧ f a = .ok b' := by
  rcases eq_nil_or_concat as with rfl | ⟨init, last, rfl⟩
  · cases h
    exact .inl ⟨rfl, rfl⟩
  rw [concat_eq_append, foldlM_append] at h
  obtain ⟨b₁, -, h⟩ := bind_eq_ok.mp h
  obtain ⟨b₂, hlast, h⟩ := bind_eq_ok.mp h
  cases h
  exact .inr ⟨last, by simp, hlast⟩

/-- A loop succeeds exactly when it does at every element. -/
lemma forM_eq_ok {f : α → Except ε PUnit} : as.forM f = .ok ⟨⟩ ↔ ∀ a ∈ as, f a = .ok ⟨⟩ := by
  induction as with
  | nil => exact iff_of_true rfl (by simp)
  | cons a as ih =>
  show (f a >>= fun _ => as.forM f) = .ok ⟨⟩ ↔ _
  rw [forall_mem_cons, ← ih, bind_eq_ok]
  exact ⟨fun ⟨_, h⟩ => h, fun h => ⟨_, h⟩⟩

/-- A successful fold succeeds at every element, from some accumulator. -/
lemma exists_of_foldlM_eq_ok {f : β → α → Except ε β} {b' : β} (h : as.foldlM f b = .ok b') :
    ∀ a ∈ as, ∃ c c', f c a = .ok c' := by
  induction as generalizing b with
  | nil => simp
  | cons a as ih =>
    obtain ⟨b₁, hhead, hrest⟩ := bind_eq_ok.mp h
    exact forall_mem_cons.mpr ⟨⟨b, b₁, hhead⟩, ih hrest⟩

/-- Every result of a `mapM` comes from an input. -/
lemma exists_of_mem_mapM (hok : as.mapM f = .ok bs) (hb : b ∈ bs) : ∃ a ∈ as, f a = .ok b :=
  exists_of_mem_right (mapM_eq_ok.mp hok) hb

/-- Every input of a successful `mapM` succeeds. -/
lemma exists_ok_of_mem (hok : as.mapM f = .ok bs) (ha : a ∈ as) : ∃ b ∈ bs, f a = .ok b :=
  exists_of_mem_right (mapM_eq_ok.mp hok).flip ha

/-- A `mapM` whose every input succeeds succeeds. -/
lemma exists_mapM_eq_ok (h : ∀ a ∈ as, ∃ b, f a = .ok b) : ∃ bs, as.mapM f = .ok bs := by
  induction as with
  | nil => exact ⟨[], rfl⟩
  | cons a as ih =>
  obtain ⟨b, hb⟩ := h a mem_cons_self
  obtain ⟨bs, hbs⟩ := ih fun a' ha' => h a' (mem_cons_of_mem _ ha')
  exact ⟨b :: bs, mapM_eq_ok.mpr (.cons hb (mapM_eq_ok.mp hbs))⟩

section

variable (hok : as.mapM f = .ok bs)
include hok

/-- What is read off the results can be read off the inputs. -/
lemma map_eq_of_mapM {g : β → γ} {h : α → γ} (hgh : ∀ a b, f a = .ok b → g b = h a) :
    bs.map g = as.map h := by
  have hforall := mapM_eq_ok.mp hok
  clear hok
  induction hforall with
  | nil => rfl
  | cons hab _ ih => rw [map_cons, map_cons, hgh _ _ hab, ih]

/-- Results that are all of one form. -/
lemma exists_map_of_mapM {g : γ → β} {P : α → γ → Prop}
    (hform : ∀ a b, f a = .ok b → ∃ c, P a c ∧ b = g c) : ∃ cs, Forall₂ P as cs ∧ bs = cs.map g := by
  have hforall := mapM_eq_ok.mp hok
  clear hok
  induction hforall with
  | nil => exact ⟨[], .nil, rfl⟩
  | cons hab _ ih =>
  obtain ⟨c, hc, rfl⟩ := hform _ _ hab
  obtain ⟨cs, hcs, rfl⟩ := ih
  exact ⟨c :: cs, .cons hc hcs, rfl⟩

variable {key : β → γ}

lemma map_some_of_mapM :
    (bs.map fun b => some (key b)) = as.map fun a => (f a).toOption.map key := by
  refine map_eq_of_mapM hok ?_
  intro a b hb
  rw [hb]
  rfl

variable {as' : List α} {bs' : List β}

/-- Inputs seen alike, position by position, have results seen alike. -/
lemma map_eq_map_of_mapM {δ : Type v} {g : α → δ} (hok' : as'.mapM f = .ok bs')
    (h : as.map g = as'.map g)
    (hkey : ∀ a ∈ as, ∀ a' ∈ as', ∀ b b', f a = .ok b → f a' = .ok b' → g a = g a' → key b = key b') :
    bs.map key = bs'.map key := by
  have hall := map_eq_map_of h (g := fun a => (f a).toOption.map key) (by
    intro a ha a' ha' haa
    obtain ⟨b, -, hb⟩ := exists_ok_of_mem hok ha
    obtain ⟨b', -, hb'⟩ := exists_ok_of_mem hok' ha'
    simp [hb, hb', Except.toOption, hkey a ha a' ha' b b' hb hb' haa])
  rw [← map_some_of_mapM hok, ← map_some_of_mapM hok'] at hall
  exact map_eq_map_of hall fun _ _ _ _ => Option.some.inj

/-- Inputs with the same results are seen alike when a result tells the input. -/
lemma map_eq_map_of_mapM_eq {g : α → γ} (hok' : as'.mapM f = .ok bs)
    (hg : ∀ a ∈ as, ∀ a' ∈ as', ∀ b, f a = .ok b → f a' = .ok b → g a = g a') :
    as.map g = as'.map g := by
  have hall := (@map_some_of_mapM _ _ _ _ f as bs hok id).symm.trans (map_some_of_mapM hok')
  refine map_eq_map_of hall ?_
  intro a ha a' ha' haa
  obtain ⟨b, -, hb⟩ := exists_ok_of_mem hok ha
  obtain ⟨b', -, hb'⟩ := exists_ok_of_mem hok' ha'
  simp only [hb, hb', Except.toOption, Option.map_some, id, Option.some.injEq] at haa
  exact hg a ha a' ha' b hb (haa ▸ hb')

/-- Results that are a permutation of each other, seen through a key that tells the
inputs, come from such inputs. -/
lemma map_perm_of_mapM {δ : Type v} {g : α → δ} (hok' : as'.mapM f = .ok bs')
    (h : (bs'.map key).Perm (bs.map key))
    (hkey : ∀ a' ∈ as', ∀ a ∈ as, ∀ b' b, f a' = .ok b' → f a = .ok b → key b' = key b → g a' = g a) :
    (as'.map g).Perm (as.map g) := by
  have hall := map_perm_of h (g := fun b => some (key b)) fun _ _ _ _ => congrArg some
  rw [map_some_of_mapM hok, map_some_of_mapM hok'] at hall
  refine map_perm_of hall ?_
  intro a' ha' a ha haa
  obtain ⟨b, -, hb⟩ := exists_ok_of_mem hok ha
  obtain ⟨b', -, hb'⟩ := exists_ok_of_mem hok' ha'
  simp only [hb, hb', Except.toOption, Option.map_some, Option.some.injEq] at haa
  exact hkey a' ha' a ha b' b hb' hb haa

end

variable {as' : List α}

/-- A list that is written and read back element by element arrives as it was
exactly when every element does.  The reader may use the place of an element,
so what decides is a condition on the element alone. -/
lemma mapM_zipIdx_map_eq_ok {write : α → β} {read : β × Nat → Except ε α} {P : α → Prop} {k : Nat}
    (h : ∀ a ∈ as, ∀ i, read (write a, i) = .ok a ↔ P a) :
    ((as.map write).zipIdx k).mapM read = .ok as ↔ ∀ a ∈ as, P a := by
  induction as generalizing k with
  | nil => exact iff_of_true rfl (by simp)
  | cons a as ih =>
  have htail := @ih (k + 1) fun a' ha' => h a' (mem_cons_of_mem _ ha')
  rw [map_cons, zipIdx_cons, mapM_eq_ok, forall₂_cons, ← mapM_eq_ok, htail,
    h a mem_cons_self, forall_mem_cons]

/-- A value that is there is the value of the attempt. -/
lemma toOption_eq_some : x.toOption = some a ↔ x = .ok a := by
  cases x <;> simp [Except.toOption]

/-- The results of a `mapM` follow a permutation of its inputs. -/
lemma mapM_perm (h : as'.Perm as)
    (hok : as.mapM f = .ok bs) : ∃ bs', as'.mapM f = .ok bs' ∧ bs'.Perm bs := by
  obtain ⟨bs', hforall, hperm⟩ := perm_comp_forall₂ h (mapM_eq_ok.mp hok)
  exact ⟨bs', mapM_eq_ok.mpr hforall, hperm⟩

lemma mapM_append_eq_ok {cs : List β} : (as ++ as').mapM f = .ok cs ↔
      ∃ bs bs', as.mapM f = .ok bs ∧ as'.mapM f = .ok bs' ∧ cs = bs ++ bs' := by
  rw [mapM_append, bind_eq_ok]
  constructor
  · rintro ⟨bs, hbs, hrest⟩
    obtain ⟨bs', hbs', heq⟩ := bind_eq_ok.mp hrest
    cases heq
    exact ⟨bs, bs', hbs, hbs', rfl⟩
  · rintro ⟨bs, bs', hbs, hbs', rfl⟩
    exact ⟨bs, hbs, bind_eq_ok.mpr ⟨bs', hbs', rfl⟩⟩

/-- A fallible flat map succeeds exactly when the flat list of attempts does. -/
lemma mapM_flatMap_eq_ok {f : β → Except ε γ} {g : α → List β} {cs : List γ} :
    (as.flatMap g).mapM f = .ok cs ↔
      ∃ css, (as.mapM fun a => (g a).mapM f) = .ok css ∧ cs = css.flatten := by
  induction as generalizing cs with
  | nil =>
    rw [flatMap_nil, mapM_eq_ok, forall₂_nil_left_iff]
    constructor
    · rintro rfl
      exact ⟨[], rfl, rfl⟩
    · rintro ⟨css, hcss, rfl⟩
      cases hcss
      rfl
  | cons a as ih =>
  rw [flatMap_cons, mapM_append_eq_ok, mapM_cons]
  constructor
  · rintro ⟨bs, bs', hbs, hbs', rfl⟩
    obtain ⟨css, hcss, rfl⟩ := ih.mp hbs'
    exact ⟨bs :: css, bind_eq_ok.mpr ⟨bs, hbs, bind_eq_ok.mpr ⟨css, hcss, rfl⟩⟩, by simp⟩
  · rintro ⟨css, hcss, rfl⟩
    obtain ⟨bs, hbs, hrest⟩ := bind_eq_ok.mp hcss
    obtain ⟨css', hcss', heq⟩ := bind_eq_ok.mp hrest
    cases heq
    exact ⟨bs, css'.flatten, hbs, ih.mpr ⟨css', hcss', rfl⟩, by simp⟩

end Attempt
