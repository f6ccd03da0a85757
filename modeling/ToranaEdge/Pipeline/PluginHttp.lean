import Mathlib.Algebra.Ring.Int.Defs
import ToranaEdge.Lib.Splits

/-! # The concurrency limit of plugin HTTP calls

Calls to one endpoint are counted in a window that is replaced when its minute is
over.  The count of calls in flight lives in the window too, and a release counts
down the window its call was admitted under.  So a new window knows nothing of the
calls that the earlier ones still have in flight. -/

namespace ToranaEdge.PluginHttp

open ToranaEdge.Splits List

/-- `time.Minute`, in nanoseconds. -/
def minute : Int := 60 * 10 ^ 9

structure Window where
  start : Int := 0
  calls : Int := 0
  active : Int := 0

/-- One key of `c.windows`: the current window and its number, 0 if there is none yet, and
for each call in flight the number of the window it was admitted under. -/
structure Limiter where
  window : Window := {}
  number : Nat := 0
  held : List Nat := []

variable (s : Limiter)

def Limiter.renew (now : Int) : Limiter :=
  if s.number = 0 ∨ minute ≤ now - s.window.start then
    { s with window := { start := now }, number := s.number + 1 }
  else s

def Limiter.enter : Limiter :=
  { s with
    window := { s.window with calls := s.window.calls + 1, active := s.window.active + 1 }
    held := s.number :: s.held }

def acquire (rpm now : Int) : Limiter × Option String :=
  if rpm ≤ 0 then (s, some "endpoint has no call budget")
  else if rpm ≤ (s.renew now).window.calls then (s.renew now, some "endpoint rate limit exceeded")
  else if 4 ≤ (s.renew now).window.active then
    (s.renew now, some "endpoint concurrency limit exceeded")
  else ((s.renew now).enter, none)

/-- The function `acquire` returned to a call that the window of this number admitted. -/
def release (number : Nat) : Limiter :=
  if number ∈ s.held then
    { s with
      held := s.held.erase number
      window := if number = s.number then { s.window with active := s.window.active - 1 }
        else s.window }
  else s

inductive Action where
  | acquire (rpm now : Int)
  | release (number : Nat)

def step : Action → Limiter
  | .acquire rpm now => (acquire s rpm now).1
  | .release number => release s number

/-- Four calls are in flight, and a call arrives after the window's minute, or within its
call budget while one of the four belongs to an earlier window. -/
def Uncounted : Action → Prop
  | .acquire rpm now => 0 < rpm ∧ s.held.length = 4 ∧ (minute ≤ now - s.window.start ∨
      s.window.calls < rpm ∧ ∃ n ∈ s.held, n ≠ s.number)
  | .release _ => False

/-- The window counts its own calls in flight. -/
structure Counted : Prop where
  active : s.window.active = s.held.count s.number
  number : ∀ n ∈ s.held, 1 ≤ n ∧ n ≤ s.number

variable {s : Limiter}

lemma Counted.renew (h : Counted s) (now : Int) : Counted (s.renew now) := by
  unfold Limiter.renew
  split
  · refine ⟨?_, fun n hn => ⟨(h.number n hn).1, Nat.le_succ_of_le (h.number n hn).2⟩⟩
    have hnew : s.number + 1 ∉ s.held := fun hn => absurd (h.number _ hn).2 (by omega)
    simp [count_eq_zero.mpr hnew]
  · exact h

lemma Counted.enter (h : Counted s) (hnumber : 1 ≤ s.number) : Counted s.enter where
  active := by simp [Limiter.enter, h.active]
  number := forall_mem_cons.mpr ⟨⟨hnumber, Nat.le_refl _⟩, h.number⟩

lemma Counted.release (h : Counted s) (number : Nat) : Counted (release s number) := by
  unfold PluginHttp.release
  split
  next hheld =>
    refine ⟨?_, fun n hn => h.number n (mem_of_mem_erase hn)⟩
    have hpos := count_pos_iff.mpr hheld
    have hactive := h.active
    split
    next heq =>
      subst heq
      simp only [count_erase_self]
      omega
    next hne => rw [count_erase_of_ne (Ne.symm hne), hactive]
  next => exact h

lemma Counted.step (h : Counted s) (a : Action) : Counted (step s a) := by
  cases a with
  | acquire rpm now =>
    show Counted (PluginHttp.acquire s rpm now).1
    have hnumber : 1 ≤ (s.renew now).number := by
      unfold Limiter.renew
      split
      · exact Nat.le_add_left 1 _
      · omega
    unfold PluginHttp.acquire
    split
    · exact h
    split
    · exact h.renew now
    split
    · exact h.renew now
    · exact (h.renew now).enter hnumber
  | release number => exact h.release number

/-- The first window of a key finds no call in flight. -/
lemma Counted.first (h : Counted s) (hzero : s.number = 0) : s.held = [] :=
  eq_nil_iff_forall_not_mem.mpr fun n hn => absurd (h.number n hn) (by omega)

/-- **One action** keeps the limit exactly when all calls in flight are counted. -/
theorem inFlight_step (h : Counted s) (hfour : s.held.length ≤ 4) (a : Action) :
    (step s a).held.length ≤ 4 ↔ ¬ Uncounted s a := by
  cases a with
  | release number =>
    refine iff_of_true ?_ id
    show (PluginHttp.release s number).held.length ≤ 4
    unfold PluginHttp.release
    split
    · exact Nat.le_trans erase_sublist.length_le hfour
    · exact hfour
  | acquire rpm now =>
  show (PluginHttp.acquire s rpm now).1.held.length ≤ 4 ↔ ¬ (_ ∧ _ ∧ (_ ∨ _ ∧ _))
  have hactive := h.active
  -- Some call belongs to an earlier window when the window's own calls are not all.
  have hearlier : (∃ n ∈ s.held, n ≠ s.number) ↔ s.held.count s.number < s.held.length := by
    rw [Nat.lt_iff_le_and_ne, Ne, count_eq_length]
    simp [count_le_length, eq_comm]
  by_cases hrpm : rpm ≤ 0
  · simp [PluginHttp.acquire, hrpm, hfour, Int.not_lt.mpr hrpm]
  by_cases hold : s.number = 0 ∨ minute ≤ now - s.window.start
  · have hfirst : s.number = 0 → s.held.length = 0 := fun hzero => by simp [h.first hzero]
    simp [PluginHttp.acquire, Limiter.renew, Limiter.enter, hrpm, hold]
    omega
  · simp only [PluginHttp.acquire, Limiter.renew, Limiter.enter, hearlier]
    split_ifs <;> simp only [length_cons] <;> omega

/-- **Concurrency limit.**  No more than four calls are in flight at any time exactly when
no call arrives while four are in flight that its window does not all count. -/
theorem inFlight_iff (actions : List Action) : Along step (fun s => s.held.length ≤ 4) {} actions ↔
      AtEach (fun before a => ¬ Uncounted (before.foldl step {}) a) [] actions :=
  @along_iff_atEach Limiter Action Uncounted step Counted _ {} [] actions (fun _ a h => h.step a)
    (fun _ a h hfour => inFlight_step h hfour a) ⟨rfl, nofun⟩ (Nat.zero_le 4)

/-- Four calls in one minute, none of them released, and a fifth in the next. -/
theorem inFlight_fifth :
    (([.acquire 60 0, .acquire 60 0, .acquire 60 0, .acquire 60 0, .acquire 60 minute] :
      List Action).foldl step {}).held.length = 5 := by
  decide

end ToranaEdge.PluginHttp
