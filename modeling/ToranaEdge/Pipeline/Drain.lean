import Mathlib.Algebra.Ring.Nat
import ToranaEdge.Lib.Schedule

/-! # Draining a plugin pipeline

A reload replaces the pipeline and drains the old one: `DrainAndClose` refuses
new requests, waits until nobody holds a pin and closes the runtime.  The last
`Release` after draining began closes the channel `drained`; a goroutine waits
for it, closes the runtime and closes the channel `closed`, for which
`DrainAndClose` waits.

Pins are taken by `TryAcquire`, by the hook calls of a request that already
has one, and by `TicksEnabled`, which the tick loop calls on a pipeline it
loaded earlier without having a pin.  Every method runs under the mutex, so
an interleaving is a list of whole method calls. -/

namespace ToranaEdge.Drain

open List Schedule

/-! ## The pipeline -/

/-- The goroutine that closes the runtime. -/
inductive Closer where
  | unstarted
  | waiting
  | closing
  | done
  deriving DecidableEq, Repr

/-- What draining uses of `PluginPipeline`.  A channel is the flag whether it is
closed; closing it again panics. -/
structure PluginPipeline where
  active : Int := 0
  draining : Bool := false
  drained : Bool := false
  closed : Bool := false
  closer : Closer := .unstarted
  /-- How often `runtime.Close` was called. -/
  runtimeCloses : Nat := 0
  panicked : Bool := false
  deriving DecidableEq, Repr

namespace PluginPipeline

variable (pp : PluginPipeline)

/-- `close(pp.drained)`. -/
def closeDrained : PluginPipeline :=
  if pp.drained then { pp with panicked := true } else { pp with drained := true }

def acquire : PluginPipeline :=
  { pp with active := pp.active + 1 }

/-- The pipeline, pinned, or nothing once it drains. -/
def tryAcquire : Option PluginPipeline :=
  if pp.draining then none else some pp.acquire

def release : PluginPipeline :=
  let pp := { pp with active := pp.active - 1 }
  if pp.active = 0 ∧ pp.draining = true then pp.closeDrained else pp

/-- The part of `DrainAndClose` under `drainOnce`; the goroutine is started. -/
def drain : PluginPipeline :=
  if pp.draining then pp
  else
    let pp := { pp with draining := true, closer := .waiting }
    if pp.active = 0 then pp.closeDrained else pp

/-- The goroutine gets past `<-pp.drained` and closes the runtime. -/
def closeRuntime : Option PluginPipeline :=
  if pp.closer = .waiting ∧ pp.drained = true then
    some { pp with closer := .closing, runtimeCloses := pp.runtimeCloses + 1 }
  else none

/-- `close(pp.closed)`. -/
def closeClosed : Option PluginPipeline :=
  if pp.closer = .closing then some { pp with closer := .done, closed := true } else none

end PluginPipeline

/-! ## Callers and interleavings -/

/-- One atomic action of a thread.  Requests are numbered by admission. -/
inductive Action where
  /-- A request, or a tick, asks for admission. -/
  | tryAcquire
  /-- A hook call of an admitted request begins. -/
  | acquire (request : Nat)
  /-- An admitted request gives back the pin of a hook call, or its own. -/
  | release (request : Nat)
  /-- `TicksEnabled` begins. -/
  | ticksEnabled
  /-- `TicksEnabled` returns. -/
  | ticksReturn
  /-- A call of `DrainAndClose` begins. -/
  | drainAndClose
  | closeRuntime
  | closeClosed
  /-- A call of `DrainAndClose` gets past `<-pp.closed` and returns. -/
  | drainReturn
  deriving DecidableEq, Repr

/-- The pipeline with its callers. -/
structure State where
  pp : PluginPipeline := {}
  /-- The pins each admitted request holds. -/
  pins : List Nat := []
  /-- The calls of `TicksEnabled` in progress. -/
  ticks : Nat := 0
  /-- The calls of `DrainAndClose` in progress. -/
  waiting : Nat := 0
  /-- The calls of `DrainAndClose` that returned. -/
  returned : Nat := 0
  deriving DecidableEq, Repr

/-- What a thread may do next; nothing follows a panic.  Only a request that
holds a pin makes hook calls and releases. -/
def step (s : State) (a : Action) : Option State :=
  if s.pp.panicked then none
  else
    match a with
    | .tryAcquire =>
      match s.pp.tryAcquire with
      | some pp => some { s with pp, pins := s.pins ++ [1] }
      | none => some s
    | .acquire r =>
      match s.pins[r]? with
      | some (n + 1) => some { s with pp := s.pp.acquire, pins := s.pins.set r (n + 2) }
      | _ => none
    | .release r =>
      match s.pins[r]? with
      | some (n + 1) => some { s with pp := s.pp.release, pins := s.pins.set r n }
      | _ => none
    | .ticksEnabled => some { s with pp := s.pp.acquire, ticks := s.ticks + 1 }
    | .ticksReturn =>
      if s.ticks = 0 then none
      else some { s with pp := s.pp.release, ticks := s.ticks - 1 }
    | .drainAndClose => some { s with pp := s.pp.drain, waiting := s.waiting + 1 }
    | .closeRuntime => s.pp.closeRuntime.map fun pp => { s with pp }
    | .closeClosed => s.pp.closeClosed.map fun pp => { s with pp }
    | .drainReturn =>
      if s.pp.closed = true ∧ 0 < s.waiting then
        some { s with waiting := s.waiting - 1, returned := s.returned + 1 }
      else none

variable (actions : List Action)

/-- An interleaving from the pipeline as it is built. -/
def run : Option State := Schedule.run step {} actions

/-! ## What an interleaving leaves open -/

/-- The requests admitted: those that ask before the first `DrainAndClose`. -/
def admitted : List Action → Nat
  | [] => 0
  | .drainAndClose :: _ => 0
  | .tryAcquire :: rest => admitted rest + 1
  | _ :: rest => admitted rest

def Action.isAcquire : Action → Bool
  | .acquire _ => true
  | .ticksEnabled => true
  | _ => false

def Action.isRelease : Action → Bool
  | .release _ => true
  | .ticksReturn => true
  | _ => false

/-- Every admitted request, hook call and `TicksEnabled` call has released. -/
def Idle : Prop :=
  admitted actions + actions.countP Action.isAcquire = actions.countP Action.isRelease

instance (actions : List Action) : Decidable (Idle actions) := inferInstanceAs (Decidable (_ = _))

/-- `TicksEnabled` is entered when the pipeline drains and nobody holds a pin,
and later nobody holds one again. -/
def Reenters : Prop :=
  ∃ before between after,
    actions = before ++ .ticksEnabled :: (between ++ .ticksReturn :: after) ∧
      .drainAndClose ∈ before ∧ Idle before ∧
      Idle (before ++ .ticksEnabled :: (between ++ [.ticksReturn]))

/-! ## What one action does -/

/-- The actions by what they find and what they leave. -/
inductive Step (s : State) : Action → State → Prop where
  | enter (h : s.pp.draining = false) :
    Step s .tryAcquire { s with pp := s.pp.acquire, pins := s.pins ++ [1] }
  | refuse (h : s.pp.draining = true) : Step s .tryAcquire s
  | acquire {r n : Nat} (h : s.pins[r]? = some (n + 1)) :
    Step s (.acquire r) { s with pp := s.pp.acquire, pins := s.pins.set r (n + 2) }
  | release {r n : Nat} (h : s.pins[r]? = some (n + 1)) :
    Step s (.release r) { s with pp := s.pp.release, pins := s.pins.set r n }
  | ticksEnabled : Step s .ticksEnabled { s with pp := s.pp.acquire, ticks := s.ticks + 1 }
  | ticksReturn (h : s.ticks ≠ 0) :
    Step s .ticksReturn { s with pp := s.pp.release, ticks := s.ticks - 1 }
  | drain : Step s .drainAndClose { s with pp := s.pp.drain, waiting := s.waiting + 1 }
  | closeRuntime (hcloser : s.pp.closer = .waiting) (hdrained : s.pp.drained = true) :
    Step s .closeRuntime { s with pp := { s.pp with
      closer := .closing, runtimeCloses := s.pp.runtimeCloses + 1 } }
  | closeClosed (hcloser : s.pp.closer = .closing) :
    Step s .closeClosed { s with pp := { s.pp with closer := .done, closed := true } }
  | drainReturn (hclosed : s.pp.closed = true) (hwaiting : 0 < s.waiting) :
    Step s .drainReturn { s with waiting := s.waiting - 1, returned := s.returned + 1 }

variable {s s' : State} {a : Action}

lemma Step.of_step (h : step s a = some s') : s.pp.panicked = false ∧ Step s a s' := by
  unfold step at h
  split at h
  · cases h
  next hpanicked =>
  refine ⟨by simpa using hpanicked, ?_⟩
  cases a with
  | tryAcquire =>
    unfold PluginPipeline.tryAcquire at h
    cases hdraining : s.pp.draining <;> simp only [hdraining] at h <;> cases h
    · exact .enter hdraining
    · exact .refuse hdraining
  | acquire r =>
    dsimp only at h
    split at h <;> cases h
    next hpins => exact .acquire hpins
  | release r =>
    dsimp only at h
    split at h <;> cases h
    next hpins => exact .release hpins
  | ticksEnabled =>
    cases h
    exact .ticksEnabled
  | ticksReturn =>
    dsimp only at h
    split at h <;> cases h
    next hticks => exact .ticksReturn hticks
  | drainAndClose =>
    cases h
    exact .drain
  | closeRuntime =>
    obtain ⟨pp, hpp, rfl⟩ := Option.map_eq_some_iff.mp h
    unfold PluginPipeline.closeRuntime at hpp
    split at hpp <;> cases hpp
    next hready => exact .closeRuntime hready.1 hready.2
  | closeClosed =>
    obtain ⟨pp, hpp, rfl⟩ := Option.map_eq_some_iff.mp h
    unfold PluginPipeline.closeClosed at hpp
    split at hpp <;> cases hpp
    next hready => exact .closeClosed hready
  | drainReturn =>
    dsimp only at h
    split at h <;> cases h
    next hready => exact .drainReturn hready.1 hready.2

section pipeline

variable (pp : PluginPipeline)

lemma closeDrained_frame :
    pp.closeDrained.active = pp.active ∧ pp.closeDrained.draining = pp.draining ∧
      pp.closeDrained.closer = pp.closer ∧ pp.closeDrained.closed = pp.closed ∧
      pp.closeDrained.runtimeCloses = pp.runtimeCloses ∧ pp.closeDrained.drained = true ∧
      (pp.closeDrained.panicked = true ↔ pp.panicked = true ∨ pp.drained = true) := by
  unfold PluginPipeline.closeDrained
  cases hdrained : pp.drained <;> simp

/-- `Release` gives one pin back, and closes `drained` with the last one. -/
lemma release_spec : pp.release.active = pp.active - 1 ∧ pp.release.draining = pp.draining ∧
      pp.release.closer = pp.closer ∧ pp.release.closed = pp.closed ∧
      pp.release.runtimeCloses = pp.runtimeCloses ∧
      (pp.release.drained = true ↔ pp.drained = true ∨ pp.active = 1 ∧ pp.draining = true) ∧
      (pp.release.panicked = true ↔
        pp.panicked = true ∨ pp.active = 1 ∧ pp.draining = true ∧ pp.drained = true) := by
  obtain ⟨hactive, hdraining, hcloser, hclosed, hcloses, hdrained, hpanicked⟩ :=
    closeDrained_frame { pp with active := pp.active - 1 }
  unfold PluginPipeline.release
  dsimp only
  split
  · next hlast =>
    have hone : pp.active = 1 := by omega
    refine ⟨hactive, hdraining, hcloser, hclosed, hcloses, ?_, ?_⟩
    · exact ⟨fun _ => .inr ⟨hone, hlast.2⟩, fun _ => hdrained⟩
    · rw [hpanicked]
      simp [hone, hlast.2]
  next hmore =>
  have hnot : ¬(pp.active = 1 ∧ pp.draining = true) := by
    rintro ⟨hone, hdraining⟩
    exact hmore ⟨by omega, hdraining⟩
  exact ⟨rfl, rfl, rfl, rfl, rfl, by simp [hnot], by simp [← and_assoc, hnot]⟩

/-- Another drain does nothing. -/
lemma drain_again (h : pp.draining = true) : pp.drain = pp := by
  simp [PluginPipeline.drain, h]

/-- The first drain closes `drained` if nobody holds a pin. -/
lemma drain_spec : pp.drain.active = pp.active ∧ pp.drain.draining = true ∧
      (pp.draining = false → pp.drain.closer = .waiting) ∧
      pp.drain.closed = pp.closed ∧ pp.drain.runtimeCloses = pp.runtimeCloses ∧
      (pp.drain.drained = true ↔ pp.drained = true ∨ pp.draining = false ∧ pp.active = 0) ∧
      (pp.drain.panicked = true ↔
        pp.panicked = true ∨ pp.draining = false ∧ pp.active = 0 ∧ pp.drained = true) := by
  cases h : pp.draining with
  | true =>
    rw [drain_again pp h]
    simp [h]
  | false =>
  obtain ⟨hactive, hdraining, hcloser, hclosed, hcloses, hdrained, hpanicked⟩ :=
    closeDrained_frame { pp with draining := true, closer := .waiting }
  unfold PluginPipeline.drain
  simp only [h, Bool.false_eq_true, if_false]
  split
  · next hzero =>
    refine ⟨hactive, hdraining, fun _ => hcloser, hclosed, hcloses, ?_, ?_⟩
    · exact ⟨fun _ => .inr ⟨trivial, hzero⟩, fun _ => hdrained⟩
    · rw [hpanicked]
      simp [hzero]
  · next hmore =>
    exact ⟨rfl, rfl, fun _ => rfl, rfl, rfl, by simp [hmore], by simp [hmore]⟩

end pipeline

/-! ## The counts -/

lemma admitted_concat (a : Action) : admitted (actions ++ [a]) =
      if .drainAndClose ∈ actions then admitted actions
      else admitted actions + if a = .tryAcquire then 1 else 0 := by
  induction actions with
  | nil => cases a <;> rfl
  | cons b actions ih =>
    cases b <;> simp [admitted, ih]
    split <;> omega

/-- Changing one element of a list of counts. -/
lemma sum_set {pins : List Nat} {r n : Nat} (m : Nat) (h : pins[r]? = some n) :
    (pins.set r m).sum + n = pins.sum + m := by
  induction pins generalizing r with
  | nil => cases h
  | cons k pins ih =>
  cases r with
  | zero =>
    have hk : k = n := by simpa using h
    simp
    omega
  | succ r =>
  have hrest := ih (r := r) (by simpa using h)
  simp
  omega

lemma le_sum_of_getElem? {pins : List Nat} {r n : Nat} (h : pins[r]? = some n) : n ≤ pins.sum := by
  have := sum_set 0 h
  omega

/-- The count is the number of pins, and the pins are the calls left open. -/
structure Counted (s : State) : Prop where
  active : s.pp.active = (s.pins.sum : Int) + s.ticks
  calls : admitted actions + actions.countP Action.isAcquire =
    actions.countP Action.isRelease + s.pins.sum + s.ticks
  draining : s.pp.draining = true ↔ .drainAndClose ∈ actions

lemma Step.active (h : s.pp.active = (s.pins.sum : Int) + s.ticks)
    (hstep : Step s a s') : s'.pp.active = (s'.pins.sum : Int) + s'.ticks := by
  obtain ⟨hrelease, -⟩ := release_spec s.pp
  obtain ⟨hdrain, -⟩ := drain_spec s.pp
  cases hstep with
  | enter =>
    simp only [PluginPipeline.acquire, sum_append, sum_cons, sum_nil]
    omega
  | @acquire r n hpins =>
    have hsum := sum_set (n + 2) hpins
    simp only [PluginPipeline.acquire]
    omega
  | @release r n hpins =>
    have hsum := sum_set n hpins
    dsimp only
    omega
  | ticksEnabled =>
    simp only [PluginPipeline.acquire]
    omega
  | ticksReturn hticks =>
    dsimp only
    omega
  | drain => exact hdrain.trans h
  | _ => exact h

lemma Step.draining (hstep : Step s a s') :
    s'.pp.draining = true ↔ s.pp.draining = true ∨ a = .drainAndClose := by
  obtain ⟨-, hrelease, -⟩ := release_spec s.pp
  obtain ⟨-, hdrain, -⟩ := drain_spec s.pp
  cases hstep with
  | release | ticksReturn => simp [hrelease]
  | drain => simp [hdrain]
  | _ => simp [PluginPipeline.acquire]

variable {actions : List Action}

lemma Counted.step (h : Counted actions s) (hstep : Step s a s') : Counted (actions ++ [a]) s' := by
  obtain ⟨hactive, hcalls, hdraining⟩ := h
  refine ⟨hstep.active hactive, ?_, ?_⟩
  · cases hstep with
    | enter hopen =>
      have hnot : .drainAndClose ∉ actions := by simp [← hdraining, hopen]
      simp [admitted_concat, hnot, Action.isAcquire, Action.isRelease]
      omega
    | refuse hclosed =>
      have hmem := hdraining.mp hclosed
      simp [admitted_concat, hmem, Action.isAcquire, Action.isRelease]
      omega
    | @acquire r n hpins =>
      have hsum := sum_set (n + 2) hpins
      simp [admitted_concat, Action.isAcquire, Action.isRelease]
      omega
    | @release r n hpins =>
      have hsum := sum_set n hpins
      simp [admitted_concat, Action.isAcquire, Action.isRelease]
      omega
    | _ =>
      simp [admitted_concat, Action.isAcquire, Action.isRelease]
      omega
  · rw [hstep.draining, hdraining, mem_append, mem_singleton, eq_comm]

/-- Nobody holds a pin exactly if the count is zero. -/
lemma Counted.idle_iff (h : Counted actions s) : Idle actions ↔ s.pp.active = 0 := by
  have hactive := h.active
  have hcalls := h.calls
  unfold Idle
  omega

/-! ## The channels -/

/-- `drained` is closed once the pipeline drains and nobody holds a pin, and from
then on no request holds one. -/
structure Emptied (s : State) : Prop where
  unpinned : s.pp.drained = true → s.pp.draining = true ∧ s.pins.sum = 0
  closes : s.pp.draining = true → s.pp.active = 0 → s.pp.drained = true

/-- `drained` is closed by the action that leaves a draining pipeline without pins. -/
lemma Step.drained_iff (hcount : Counted actions s) (h : Emptied s) (hstep : Step s a s') :
    s'.pp.drained = true ↔ s.pp.drained = true ∨ s'.pp.draining = true ∧ s'.pp.active = 0 := by
  have hactive := hcount.active
  cases hstep with
  | enter hopen => simp [PluginPipeline.acquire, hopen]
  | acquire | ticksEnabled =>
    have hpinned : s.pp.active + 1 ≠ 0 := by omega
    simp [PluginPipeline.acquire, hpinned]
  | release | ticksReturn =>
    obtain ⟨hactive, hdraining, -, -, -, hdrained, -⟩ := release_spec s.pp
    rw [hdrained, hdraining, hactive, Int.sub_eq_zero, and_comm]
  | drain =>
    obtain ⟨hactive, hdraining, -, -, -, hdrained, -⟩ := drain_spec s.pp
    rw [hdrained, hdraining, hactive]
    cases hd : s.pp.draining with
    | true => simpa using h.closes hd
    | false => simp
  | refuse | closeRuntime | closeClosed | drainReturn =>
    exact ⟨.inl, fun hd => hd.elim id fun hd => h.closes hd.1 hd.2⟩

lemma Emptied.step
    (hcount : Counted actions s) (h : Emptied s) (hstep : Step s a s') : Emptied s' := by
  have hdrained := hstep.drained_iff hcount h
  refine ⟨fun hd => ?_, fun hdraining hzero => hdrained.mpr (.inr ⟨hdraining, hzero⟩)⟩
  have hactive := (hcount.step hstep).active
  rcases hdrained.mp hd with hd | ⟨hdraining, hzero⟩
  · obtain ⟨hdraining, hpins⟩ := h.unpinned hd
    refine ⟨hstep.draining.mpr (.inl hdraining), ?_⟩
    -- no request holds a pin with which it could go on
    cases hstep with
    | enter hopen => cases hdraining.symm.trans hopen
    | acquire hpin | release hpin =>
      have hle := le_sum_of_getElem? hpin
      omega
    | _ => exact hpins
  · exact ⟨hdraining, by omega⟩

/-- Where the closing goroutine is says how often the runtime was closed. -/
def CloserAt (pp : PluginPipeline) : Prop :=
  match pp.closer with
  | .unstarted => pp.draining = false ∧ pp.runtimeCloses = 0 ∧ pp.closed = false
  | .waiting => pp.draining = true ∧ pp.runtimeCloses = 0 ∧ pp.closed = false
  | .closing => pp.draining = true ∧ pp.drained = true ∧ pp.runtimeCloses = 1 ∧ pp.closed = false
  | .done => pp.draining = true ∧ pp.drained = true ∧ pp.runtimeCloses = 1 ∧ pp.closed = true

/-- The runtime is closed at most once, before `closed` and after `drained`. -/
lemma CloserAt.order {pp : PluginPipeline} (h : CloserAt pp) : pp.runtimeCloses ≤ 1 ∧
    (pp.closed = true → pp.runtimeCloses = 1) ∧ (0 < pp.runtimeCloses → pp.drained = true) := by
  unfold CloserAt at h
  split at h <;> simp [h]

/-- The goroutine is where it is whoever takes and returns pins. -/
lemma CloserAt.congr {pp pp' : PluginPipeline} (h : CloserAt pp)
    (hcloser : pp'.closer = pp.closer) (hdraining : pp'.draining = pp.draining)
    (hcloses : pp'.runtimeCloses = pp.runtimeCloses) (hclosed : pp'.closed = pp.closed)
    (hdrained : pp.drained = true → pp'.drained = true) : CloserAt pp' := by
  unfold CloserAt at h ⊢
  rw [hcloser, hdraining, hcloses, hclosed]
  cases hc : pp.closer <;> simp only [hc] at h ⊢
  · exact h
  · exact h
  · exact ⟨h.1, hdrained h.2.1, h.2.2⟩
  · exact ⟨h.1, hdrained h.2.1, h.2.2⟩

/-- The goroutine, and what a returned `DrainAndClose` has seen of it. -/
structure Closing (s : State) : Prop where
  closer : CloserAt s.pp
  returned : 0 < s.returned → s.pp.closed = true

lemma Closing.step (h : Closing s) (hstep : Step s a s') : Closing s' := by
  obtain ⟨hcloser, hreturned⟩ := h
  obtain ⟨-, hdraining, hrelCloser, hrelClosed, hrelCloses, hrelDrained, -⟩ := release_spec s.pp
  have hrelease : CloserAt s.pp.release :=
    hcloser.congr hrelCloser hdraining hrelCloses hrelClosed fun hd => hrelDrained.mpr (.inl hd)
  cases hstep with
  | enter | acquire | ticksEnabled => exact ⟨hcloser.congr rfl rfl rfl rfl id, hreturned⟩
  | refuse => exact ⟨hcloser, hreturned⟩
  | release | ticksReturn => exact ⟨hrelease, fun hr => hrelClosed.trans (hreturned hr)⟩
  | drain =>
    cases hd : s.pp.draining with
    | true =>
      rw [drain_again _ hd]
      exact ⟨hcloser, hreturned⟩
    | false =>
    obtain ⟨-, hdraining, hwaiting, hclosed, hcloses, -⟩ := drain_spec s.pp
    -- the goroutine was not there before
    have hunstarted : s.pp.runtimeCloses = 0 ∧ s.pp.closed = false := by
      unfold CloserAt at hcloser
      split at hcloser
      · exact hcloser.2
      all_goals
        cases hcloser.1.symm.trans hd
    refine ⟨?_, fun hr => hclosed.trans (hreturned hr)⟩
    unfold CloserAt
    simp only [hwaiting hd]
    exact ⟨hdraining, hcloses.trans hunstarted.1, hclosed.trans hunstarted.2⟩
  | closeRuntime hwaiting hdrained =>
    unfold CloserAt at hcloser
    simp only [hwaiting] at hcloser
    exact ⟨⟨hcloser.1, hdrained, by simp [hcloser.2.1], hcloser.2.2⟩, hreturned⟩
  | closeClosed hclosing =>
    unfold CloserAt at hcloser
    simp only [hclosing] at hcloser
    exact ⟨⟨hcloser.1, hcloser.2.1, hcloser.2.2.1, rfl⟩, fun _ => rfl⟩
  | drainReturn hclosed => exact ⟨hcloser, fun _ => hclosed⟩

/-- What every interleaving keeps, the panic apart. -/
structure Inv (actions : List Action) (s : State) : Prop where
  counted : Counted actions s
  emptied : Emptied s
  closing : Closing s

lemma Inv.init : Inv [] {} where
  counted := ⟨rfl, rfl, by simp⟩
  emptied := ⟨by simp, by simp⟩
  closing := ⟨⟨rfl, rfl, rfl⟩, by simp⟩

lemma Inv.step (h : Inv actions s) (hstep : Step s a s') : Inv (actions ++ [a]) s' where
  counted := h.counted.step hstep
  emptied := Emptied.step h.counted h.emptied hstep
  closing := h.closing.step hstep

lemma run_inv (h : run actions = some s) : Inv actions s :=
  run_induct Inv.init (fun _ _ _ _ hinv hs => hinv.step (Step.of_step hs).2) h

/-! ## When the channel is closed twice -/

/-- Only the return of the last `TicksEnabled` call closes `drained` again. -/
lemma Inv.panic (h : Inv actions s)
    (hcalm : s.pp.panicked = false) (hstep : Step s a s') (hpanic : s'.pp.panicked = true) :
    a = .ticksReturn ∧ s.pp.drained = true ∧ s.pp.active = 1 := by
  have hnot : s.pp.panicked ≠ true := by simp [hcalm]
  obtain ⟨-, -, -, -, -, -, hrelease⟩ := release_spec s.pp
  cases hstep with
  | @release r n hpins =>
    -- a request that still holds a pin keeps `drained` open
    obtain ⟨-, -, hdrained⟩ := (hrelease.mp hpanic).resolve_left hnot
    have hzero := (h.emptied.unpinned hdrained).2
    have hle := le_sum_of_getElem? hpins
    omega
  | ticksReturn =>
    obtain ⟨hone, -, hdrained⟩ := (hrelease.mp hpanic).resolve_left hnot
    exact ⟨rfl, hdrained, hone⟩
  | drain =>
    obtain ⟨-, -, -, -, -, -, hdrain⟩ := drain_spec s.pp
    obtain ⟨hopen, -, hdrained⟩ := (hdrain.mp hpanic).resolve_left hnot
    rw [(h.emptied.unpinned hdrained).1] at hopen
    cases hopen
  | _ => exact absurd hpanic hnot

/-- Of a drained pipeline only `TicksEnabled` takes a pin. -/
lemma Inv.entered (h : Inv actions s) (hstep : Step s a s') (hdrained : s.pp.drained = true)
    (hzero : s.pp.active = 0) (hactive : s'.pp.active ≠ 0) : a = .ticksEnabled := by
  obtain ⟨hdraining, hpins⟩ := h.emptied.unpinned hdrained
  have hcount := h.counted.active
  cases hstep with
  | enter hopen =>
    cases hdraining.symm.trans hopen
  | acquire hpin | release hpin =>
    have hle := le_sum_of_getElem? hpin
    omega
  | ticksEnabled => rfl
  | ticksReturn hticks => omega
  | drain =>
    rw [drain_again _ hdraining] at hactive
    exact absurd hzero hactive
  | _ => exact absurd hzero hactive

/-- A call of `TicksEnabled` was entered when the pipeline drained and nobody
held a pin. -/
def Entered (actions : List Action) : Prop :=
  ∃ before between, actions = before ++ .ticksEnabled :: between ∧
    .drainAndClose ∈ before ∧ Idle before

/-- A pin held after `drained` was closed goes back to such a call, by induction
over the interleaving. -/
lemma entered_of_active (h : run actions = some s)
    (hdrained : s.pp.drained = true) (hactive : s.pp.active ≠ 0) : Entered actions := by
  have hall : Inv actions s ∧ (s.pp.drained = true → s.pp.active ≠ 0 → Entered actions) := by
    refine run_induct (P := fun actions s => Inv actions s ∧
      (s.pp.drained = true → s.pp.active ≠ 0 → Entered actions))
      ⟨Inv.init, fun hd => by cases hd⟩ ?_ h
    rintro actions a m m' ⟨hinv, ih⟩ hstep
    obtain ⟨-, hstep⟩ := Step.of_step hstep
    refine ⟨hinv.step hstep, fun hdrained hactive => ?_⟩
    cases hopen : m.pp.drained with
    | false =>
      have hcloses := (hstep.drained_iff hinv.counted hinv.emptied).mp hdrained
      exact absurd (hcloses.resolve_left (by simp [hopen])).2 hactive
    | true =>
    by_cases hzero : m.pp.active = 0
    · -- the call is entered now
      have hdraining := (hinv.emptied.unpinned hopen).1
      rw [hinv.entered hstep hopen hzero hactive]
      exact ⟨actions, [], rfl, hinv.counted.draining.mp hdraining, hinv.counted.idle_iff.mpr hzero⟩
    · obtain ⟨before, between, rfl, hmem, hidle⟩ := ih hopen hzero
      exact ⟨before, between ++ [a], by simp, hmem, hidle⟩
  exact hall.2 hdrained hactive

/-- A panic is a reentry. -/
lemma reenters_of_panicked (h : run actions = some s)
    (hpanic : s.pp.panicked = true) : Reenters actions := by
  have hinv' := run_inv h
  rcases eq_nil_or_concat actions with rfl | ⟨earlier, a, rfl⟩
  · cases h
    cases hpanic
  rw [concat_eq_append] at h hinv' ⊢
  obtain ⟨m, hm, ha⟩ := run_concat.mp h
  obtain ⟨hcalm, hstep⟩ := Step.of_step ha
  obtain ⟨rfl, hdrained, hone⟩ := (run_inv hm).panic hcalm hstep hpanic
  obtain ⟨before, between, rfl, hmem, hidle⟩ := entered_of_active hm hdrained (by rw [hone]; decide)
  refine ⟨before, between, [], by simp, hmem, hidle, ?_⟩
  have hzero : s.pp.active = 0 := by
    cases hstep with
    | ticksReturn =>
    obtain ⟨hactive, -⟩ := release_spec m.pp
    show m.pp.release.active = 0
    omega
  have hend := hinv'.counted.idle_iff.mpr hzero
  rwa [append_assoc] at hend

/-- A closed channel stays closed. -/
lemma run_drained (hinv : Inv actions s) (hdrained : s.pp.drained = true) {more : List Action}
    (h : Schedule.run step s more = some s') : Inv (actions ++ more) s' ∧ s'.pp.drained = true := by
  refine run_induct (P := fun done m => Inv (actions ++ done) m ∧ m.pp.drained = true)
    ⟨by rwa [append_nil], hdrained⟩ ?_ h
  rintro done a m m' ⟨hinv, hd⟩ hstep
  obtain ⟨-, hstep⟩ := Step.of_step hstep
  rw [← append_assoc]
  exact ⟨hinv.step hstep, (hstep.drained_iff hinv.counted hinv.emptied).mpr (.inl hd)⟩

/-- Nothing follows a panic. -/
lemma run_panicked
    (h : Schedule.run step s actions = some s') (hpanic : s.pp.panicked = true) : s' = s := by
  cases actions with
  | nil =>
    cases h
    rfl
  | cons a rest =>
  obtain ⟨m, hm, -⟩ := run_cons.mp h
  rw [(Step.of_step hm).1] at hpanic
  cases hpanic

/-- A reentry is a panic. -/
lemma panicked_of_reenters (h : run actions = some s)
    (hre : Reenters actions) : s.pp.panicked = true := by
  obtain ⟨before, between, after, rfl, hmem, hidle, hend⟩ := hre
  -- up to the reentry: the channel is closed
  obtain ⟨s₀, hbefore, hrest⟩ := run_append.mp h
  have hinv := run_inv hbefore
  have hdrained : s₀.pp.drained = true :=
    hinv.emptied.closes (hinv.counted.draining.mpr hmem) (hinv.counted.idle_iff.mp hidle)
  -- up to the return of the last call
  have hsplit : (Action.ticksEnabled :: (between ++ .ticksReturn :: after)) =
      (.ticksEnabled :: (between ++ [.ticksReturn])) ++ after := by simp
  rw [hsplit] at hrest
  obtain ⟨s₂, hclose, hafter⟩ := run_append.mp hrest
  have hinv₂ := run_inv (run_append.mpr ⟨s₀, hbefore, hclose⟩)
  obtain ⟨s₁, hopen, hreturn⟩ := run_concat.mp
    (show Schedule.run step s₀ ((.ticksEnabled :: between) ++ [.ticksReturn]) = some s₂ from hclose)
  obtain ⟨hinv₁, hdrained₁⟩ := run_drained hinv hdrained hopen
  have hzero := hinv₂.counted.idle_iff.mp hend
  obtain ⟨-, hstep⟩ := Step.of_step hreturn
  have hpanic : s₂.pp.panicked = true := by
    cases hstep with
    | ticksReturn =>
    obtain ⟨hactive, -, -, -, -, -, hpanicked⟩ := release_spec s₁.pp
    have hone : s₁.pp.active = 1 := by
      have hzero : s₁.pp.release.active = 0 := hzero
      omega
    exact hpanicked.mpr (.inr ⟨hone, (hinv₁.emptied.unpinned hdrained₁).1, hdrained₁⟩)
  rw [run_panicked hafter hpanic]
  exact hpanic

/-! ## The runtime -/

/-- The goroutine can go on to the end from wherever it is. -/
lemma exists_closing (hcalm : s.pp.panicked = false) (hcloser : CloserAt s.pp)
    (hdraining : s.pp.draining = true) (hdrained : s.pp.drained = true) :
    ∃ closing s', (∀ a ∈ closing, a = .closeRuntime ∨ a = .closeClosed) ∧
      Schedule.run step s closing = some s' ∧ s'.pp.runtimeCloses = 1 ∧ s'.pp.closed = true := by
  unfold CloserAt at hcloser
  split at hcloser
  · rw [hdraining] at hcloser
    cases hcloser.1
  · next hwaiting =>
    refine ⟨[.closeRuntime, .closeClosed], { s with pp := { s.pp with
      closer := .done, runtimeCloses := 1, closed := true } }, by simp, ?_, rfl, rfl⟩
    simp [Schedule.run, step, hcalm, PluginPipeline.closeRuntime, PluginPipeline.closeClosed,
      hwaiting, hdrained, hcloser.2.1]
  · next hclosing =>
    refine ⟨[.closeClosed], { s with pp := { s.pp with closer := .done, closed := true } },
      by simp, ?_, hcloser.2.2.1, rfl⟩
    simp [Schedule.run, step, hcalm, PluginPipeline.closeClosed, hclosing]
  · exact ⟨[], s, by simp, rfl, hcloser.2.2.1, hcloser.2.2.2⟩

/-- **Drain safety** of an interleaving and the state it leads to. -/
structure DrainSafe (actions : List Action) (s : State) : Prop where
  /-- `drained` was closed at most once. -/
  noPanic : s.pp.panicked = false
  /-- The runtime was closed at most once. -/
  once : s.pp.runtimeCloses ≤ 1
  /-- When a call of `DrainAndClose` has returned, the runtime is closed. -/
  onReturn : 0 < s.returned → s.pp.runtimeCloses = 1
  /-- No request admitted by `TryAcquire` holds a pin once the runtime is closed. -/
  unpinned : 0 < s.pp.runtimeCloses → ∀ n ∈ s.pins, n = 0
  /-- Once the pipeline drains and nobody holds a pin, the goroutine can close the
      runtime and let `DrainAndClose` return, without anybody else. -/
  completes : .drainAndClose ∈ actions → Idle actions →
    ∃ closing s', (∀ a ∈ closing, a = .closeRuntime ∨ a = .closeClosed) ∧
      run (actions ++ closing) = some s' ∧ s'.pp.runtimeCloses = 1 ∧ s'.pp.closed = true

/-- Without a panic an interleaving is safe. -/
lemma drainSafe_of_noPanic (h : run actions = some s)
    (hcalm : s.pp.panicked = false) : DrainSafe actions s := by
  have hinv := run_inv h
  have hcloser := hinv.closing.closer
  obtain ⟨honce, hclosed, hpast⟩ := hcloser.order
  refine ⟨hcalm, honce, fun hreturned => hclosed (hinv.closing.returned hreturned), ?_, ?_⟩
  · intro hcloses n hn
    obtain ⟨r, hr⟩ := getElem?_of_mem hn
    have hle := le_sum_of_getElem? hr
    have hzero := (hinv.emptied.unpinned (hpast hcloses)).2
    omega
  · intro hmem hidle
    have hdraining := hinv.counted.draining.mpr hmem
    have hdrained := hinv.emptied.closes hdraining (hinv.counted.idle_iff.mp hidle)
    obtain ⟨closing, s', hactions, hrun, hdone⟩ := exists_closing hcalm hcloser hdraining hdrained
    exact ⟨closing, s', hactions, run_append.mpr ⟨s, h, hrun⟩, hdone⟩

/-- **Draining is safe exactly if it is not reentered.**  An interleaving of
admissions, hook calls, `TicksEnabled` calls, releases and drains closes
`drained` at most once and the runtime exactly once, never while an admitted
request holds a pin, exactly if `TicksEnabled` is not entered after draining
began while nobody holds a pin, with nobody holding one again later. -/
theorem run_drainSafe_iff (actions : List Action) (s : State) (h : run actions = some s) :
    DrainSafe actions s ↔ ¬Reenters actions := by
  constructor
  · intro hsafe hre
    have hpanic := panicked_of_reenters h hre
    cases hsafe.noPanic.symm.trans hpanic
  · intro hnot
    refine drainSafe_of_noPanic h ?_
    by_contra hpanic
    exact hnot (reenters_of_panicked h (by simpa using hpanic))

/-- A request is admitted, a reload drains, a tick comes and goes while the
request makes a hook call, and the last release lets the runtime close. -/
def pinnedTick : List Action :=
  [.tryAcquire, .drainAndClose, .acquire 0, .ticksEnabled, .release 0, .ticksReturn, .release 0,
    .closeRuntime, .closeClosed, .drainReturn]

theorem run_drainSafe_iff_pinnedTick : DrainSafe pinnedTick
        { pp := { draining := true, drained := true, closed := true, closer := .done
                  runtimeCloses := 1 }
          pins := [0], returned := 1 } ↔ ¬Reenters pinnedTick :=
  run_drainSafe_iff pinnedTick _ (by decide)

/-- A reload drains an idle pipeline between the tick loop's load of the pointer
and its call of `TicksEnabled`: the return of the call panics. -/
theorem run_lateTick_panics : run [.drainAndClose, .ticksEnabled, .ticksReturn] =
        some { pp := { draining := true, drained := true, closer := .waiting, panicked := true }
               waiting := 1 } ∧ ¬DrainSafe [.drainAndClose, .ticksEnabled, .ticksReturn]
        { pp := { draining := true, drained := true, closer := .waiting, panicked := true }
          waiting := 1 } := by
  refine ⟨by decide, fun hsafe => ?_⟩
  have hcalm : true = false := hsafe.noPanic
  cases hcalm

end ToranaEdge.Drain
