import Mathlib.Data.List.Induction
import Mathlib.Data.Option.Basic

/-! # Schedules of atomic actions

A concurrent component whose threads interleave atomic actions is a partial
step function: an action that is not enabled in a state has no successor.  A
schedule is the list of actions in the order they happen, and it runs if each
is enabled when its turn comes.  Invariants may speak of the schedule as well
as of the state, so that what the state counts can be tied to what happened. -/

namespace Schedule

variable {σ α : Type}

/-- The state a schedule leads to, if it runs. -/
def run (step : σ → α → Option σ) (s : σ) (actions : List α) : Option σ :=
  actions.foldlM step s

variable {step : σ → α → Option σ} {s s' : σ} {a : α} {actions : List α}

lemma run_append {first rest : List α} : run step s (first ++ rest) = some s' ↔
      ∃ m, run step s first = some m ∧ run step m rest = some s' := by
  rw [run, List.foldlM_append]
  exact Option.bind_eq_some_iff

lemma run_cons {rest : List α} :
    run step s (a :: rest) = some s' ↔ ∃ m, step s a = some m ∧ run step m rest = some s' := by
  exact Option.bind_eq_some_iff

lemma run_singleton : run step s [a] = some s' ↔ step s a = some s' := by
  rw [run_cons]
  constructor
  · rintro ⟨m, hm, hrest⟩
    cases hrest
    exact hm
  · intro h
    exact ⟨s', h, rfl⟩

lemma run_concat : run step s (actions ++ [a]) = some s' ↔
      ∃ m, run step s actions = some m ∧ step m a = some s' := by
  rw [run_append]
  simp [run_singleton]

/-- **The invariant rule**: what holds at the start and is kept by every action
holds after every schedule that runs. -/
theorem run_induct {P : List α → σ → Prop} (hinit : P [] s)
    (hstep : ∀ actions a m m', P actions m → step m a = some m' → P (actions ++ [a]) m')
    (h : run step s actions = some s') : P actions s' := by
  induction actions using List.reverseRecOn generalizing s' with
  | nil =>
    cases h
    exact hinit
  | append_singleton actions a ih =>
    obtain ⟨m, hm, ha⟩ := run_concat.mp h
    exact hstep actions a m s' (ih hm) ha

end Schedule
