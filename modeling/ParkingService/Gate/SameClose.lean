import ParkingService.Gate.Controller

/-!
# Two closes, one movement

The kernel module steps one by one and asks after every 64th step; the user-space controller moves
in batches of `min(64, rest)` steps. A `Track` is what both have in common: the coil phase, where
the arm is, the patterns that have been put on the pins, and after how many steps the sensor and the
button were asked. `closeTrack` is the movement in these terms, sixteen batches with a check between
two of them, and both closes are shown to make it (`kernelClose_track`, `userClose_track`).

The answers are given by an oracle, the `k`-th to the `k`-th check.
-/

namespace ParkingService

open Concurrency

/-! ## The movement -/

/-- What a close does. -/
structure Track where
  phase : ℤ
  position : ℤ
  patterns : List Coils
  /-- steps towards closing at each check -/
  checks : List ℕ
  /-- steps towards closing so far -/
  steps : ℕ

namespace Track

/-- One step, in the direction of opening if `d` is positive. -/
def turn (d : ℤ) (t : Track) : Track where
  phase := (t.phase + d) % 8
  position := t.position + d
  patterns := t.patterns ++ [stepperSequence.getD ((t.phase + d) % 8).toNat .off]
  checks := t.checks
  steps := t.steps + if d < 0 then 1 else 0

def deenergize (t : Track) : Track := { t with patterns := t.patterns ++ [.off] }

def check (t : Track) : Track := { t with checks := t.checks ++ [t.steps] }

/-- The same with the arm `p` higher. -/
def shift (p : ℤ) (t : Track) : Track := { t with position := t.position + p }

@[simp] theorem deenergize_phase (t : Track) : t.deenergize.phase = t.phase := rfl

@[simp] theorem deenergize_position (t : Track) : t.deenergize.position = t.position := rfl

@[simp] theorem getLast?_deenergize (t : Track) : t.deenergize.patterns.getLast? = some .off :=
  List.getLast?_concat

@[simp] theorem check_phase (t : Track) : t.check.phase = t.phase := rfl

@[simp] theorem check_position (t : Track) : t.check.position = t.position := rfl

@[simp] theorem check_checks (t : Track) : t.check.checks = t.checks ++ [t.steps] := rfl

end Track

/-- A close with so many batches to go. -/
def closeTrack (oracle : ℕ → Bool) : (batches : ℕ) → Track → ℤ × Track
  | 0, t => (0, t.deenergize)
  | batches + 1, t =>
    let t := (Track.turn (-1))^[closeBatch] t
    if batches = 0 then (0, t.deenergize)
    else if oracle t.checks.length then
      (-1, ((Track.turn 1)^[t.steps] t.check).deenergize)
    else closeTrack oracle batches t.check

/-! ### What the movement comes to -/

namespace Track

variable {t : Track}

/-- The phase is an index of the sequence. -/
def Valid (t : Track) : Prop := 0 ≤ t.phase ∧ t.phase < 8

theorem valid_turn (d : ℤ) (t : Track) : (t.turn d).Valid :=
  ⟨Int.emod_nonneg _ (by decide), Int.emod_lt_of_pos _ (by decide)⟩

theorem Valid.iterate (h : t.Valid) (d : ℤ) (n : ℕ) : ((turn d)^[n] t).Valid := by
  cases n with
  | zero => exact h
  | succ n =>
    rw [Function.iterate_succ_apply']
    exact valid_turn d _

theorem iterate_turn_phase (h : t.Valid) (d : ℤ) (n : ℕ) :
    ((turn d)^[n] t).phase = (t.phase + n * d) % 8 := by
  induction n with
  | zero =>
    obtain ⟨hnonneg, hlt⟩ := h
    simp [Int.emod_eq_of_lt hnonneg hlt]
  | succ n ih =>
    rw [Function.iterate_succ_apply', turn, ih, Int.emod_add_emod, Int.natCast_succ, Int.add_mul,
      Int.one_mul, Int.add_assoc]

theorem iterate_turn_position (d : ℤ) (n : ℕ) (t : Track) :
    ((turn d)^[n] t).position = t.position + n * d := by
  induction n with
  | zero => simp
  | succ n ih =>
    rw [Function.iterate_succ_apply', turn, ih, Int.natCast_succ, Int.add_mul, Int.one_mul,
      Int.add_assoc]

theorem iterate_turn_checks (d : ℤ) (n : ℕ) (t : Track) :
    ((turn d)^[n] t).checks = t.checks := by
  induction n with
  | zero => rfl
  | succ n ih => rw [Function.iterate_succ_apply', turn, ih]

theorem iterate_turn_steps (n : ℕ) (t : Track) : ((turn (-1))^[n] t).steps = t.steps + n := by
  induction n with
  | zero => rfl
  | succ n ih =>
    rw [Function.iterate_succ_apply', turn, ih, if_pos (by decide)]
    exact Nat.add_assoc _ _ _

theorem iterate_turn_shift (d p : ℤ) (n : ℕ) (t : Track) :
    (turn d)^[n] (t.shift p) = ((turn d)^[n] t).shift p := by
  have hturn : ∀ t, turn d (t.shift p) = (turn d t).shift p := fun t ↦
    congrArg (fun x ↦ { turn d t with position := x }) (Int.add_right_comm t.position p d)
  induction n with
  | zero => rfl
  | succ n ih =>
    rw [Function.iterate_succ_apply', ih, hturn, ← Function.iterate_succ_apply' (turn d)]

end Track

/-- The step counts of the first `n` checks. -/
def checkPoints (n : ℕ) : List ℕ := (List.range n).map fun i ↦ closeBatch * (i + 1)

/-- How a close from `t` ends in `t'` with result `r`, after `n` checks. -/
structure CloseEnds (oracle : ℕ → Bool) (n : ℕ) (t : Track) (r : ℤ) (t' : Track) : Prop where
  range : 0 < n ∧ n ≤ 15
  checks : t'.checks = checkPoints n
  negative : ∀ i, i + 1 < n → oracle i = false
  off : t'.patterns.getLast? = some .off
  result : (r = -1 ∧ oracle (n - 1) = true ∧ t'.phase = t.phase ∧ t'.position = t.position)
    ∨ (r = 0 ∧ n = 15 ∧ oracle 14 = false ∧ t'.position = t.position - stepperGateSteps)

theorem CloseEnds.shift {oracle : ℕ → Bool} {n : ℕ} {t t' : Track} {r : ℤ}
    (h : CloseEnds oracle n t r t') (p : ℤ) : CloseEnds oracle n (t.shift p) r (t'.shift p) := by
  refine ⟨h.range, h.checks, h.negative, h.off, ?_⟩
  rcases h.result with ⟨hr, horacle, hphase, hposition⟩ | ⟨hr, hn, horacle, hposition⟩
  · exact .inl ⟨hr, horacle, hphase, congrArg (· + p) hposition⟩
  · refine .inr ⟨hr, hn, horacle, ?_⟩
    exact (congrArg (· + p) hposition).trans (Int.add_right_comm _ _ _)

/-- `q` batches have been made from `t`, and all checks were negative. -/
structure Underway (oracle : ℕ → Bool) (t : Track) (q : ℕ) (t' : Track) : Prop where
  valid : t'.Valid
  phase : t'.phase = (t.phase - closeBatch * q) % 8
  position : t'.position = t.position - closeBatch * q
  checks : t'.checks = checkPoints q
  steps : t'.steps = closeBatch * q
  negative : ∀ i < q, oracle i = false

theorem checkPoints_succ (n : ℕ) :
    checkPoints (n + 1) = checkPoints n ++ [closeBatch * (n + 1)] := by
  rw [checkPoints, List.range_succ, List.map_append]
  rfl

theorem length_checkPoints (n : ℕ) : (checkPoints n).length = n := by
  rw [checkPoints, List.length_map, List.length_range]

namespace Underway

variable {oracle : ℕ → Bool} {t t' : Track} {q : ℕ}

theorem start (ht : t.Valid) (hchecks : t.checks = []) (hsteps : t.steps = 0) :
    Underway oracle t 0 t where
  valid := ht
  phase := by
    rw [Int.emod_eq_of_lt] <;> simp [ht.1, ht.2]
  position := by simp
  checks := hchecks
  steps := hsteps
  negative i hi := absurd hi (Nat.not_lt_zero i)

/-- After one more batch, before the check. -/
theorem batch (h : Underway oracle t q t') {t₁ : Track}
    (ht₁ : t₁ = (Track.turn (-1))^[closeBatch] t') :
    t₁.Valid ∧ t₁.phase = (t.phase - closeBatch * (q + 1 : ℕ)) % 8
      ∧ t₁.position = t.position - closeBatch * (q + 1 : ℕ)
      ∧ t₁.checks = checkPoints q ∧ t₁.steps = closeBatch * (q + 1) := by
  have hbatch : (closeBatch : ℤ) = 64 := rfl
  subst ht₁
  refine ⟨h.valid.iterate _ _, ?_, ?_, ?_, ?_⟩
  · rw [Track.iterate_turn_phase h.valid, h.phase, hbatch]
    omega
  · rw [Track.iterate_turn_position, h.position, hbatch]
    omega
  · rw [Track.iterate_turn_checks, h.checks]
  · rw [Track.iterate_turn_steps, h.steps]
    rfl

end Underway

/-- From any batch on, a close ends as it should. -/
theorem closeTrack_ends (oracle : ℕ → Bool) {t t' : Track} (ht : t.Valid) (batches : ℕ) {q : ℕ}
    (hq : batches + 1 + q = 16) (h : Underway oracle t q t') :
    ∃ n, CloseEnds oracle n t (closeTrack oracle (batches + 1) t').1
      (closeTrack oracle (batches + 1) t').2 := by
  have hbatch : (closeBatch : ℤ) = 64 := rfl
  induction batches generalizing q t' with
  | zero =>
    obtain rfl : q = 15 := by omega
    rw [closeTrack]
    generalize ht₁ : (Track.turn (-1))^[closeBatch] t' = t₁
    obtain ⟨-, -, hposition, hchecks, -⟩ := h.batch ht₁.symm
    rw [if_pos rfl]
    refine ⟨15, ⟨by decide, hchecks, fun i hi ↦ h.negative i (by omega), ?_, .inr ?_⟩⟩
    · exact Track.getLast?_deenergize _
    · exact ⟨rfl, rfl, h.negative 14 (by decide), hposition⟩
  | succ batches ih =>
    rw [closeTrack]
    generalize ht₁ : (Track.turn (-1))^[closeBatch] t' = t₁
    obtain ⟨hvalid, hphase, hposition, hchecks, hsteps⟩ := h.batch ht₁.symm
    have hlogged : t₁.check.checks = checkPoints (q + 1) := by
      rw [checkPoints_succ, Track.check_checks, hchecks, hsteps]
    rw [if_neg (Nat.succ_ne_zero batches), hchecks, length_checkPoints]
    cases horacle : oracle q with
    | true =>
      rw [if_pos rfl]
      -- the arm is driven back as many steps as it was driven down
      refine ⟨q + 1, ⟨by omega, ?_, fun i hi ↦ h.negative i (by omega), ?_, .inl ?_⟩⟩
      · exact (Track.iterate_turn_checks _ _ _).trans hlogged
      · exact Track.getLast?_deenergize _
      · refine ⟨rfl, horacle, ?_, ?_⟩
        · have hvalid' : t₁.check.Valid := hvalid
          have hnonneg := ht.1
          have hlt := ht.2
          rw [Track.deenergize_phase, Track.iterate_turn_phase hvalid', Track.check_phase, hphase,
            hsteps, hbatch, Int.natCast_mul, hbatch]
          omega
        · rw [Track.deenergize_position, Track.iterate_turn_position, Track.check_position,
            hposition, hsteps, hbatch, Int.natCast_mul, hbatch]
          omega
    | false =>
      rw [if_neg (by decide)]
      refine ih (q := q + 1) (by omega) ⟨hvalid, hphase, hposition, hlogged, hsteps, fun i hi ↦ ?_⟩
      rcases Nat.lt_succ_iff_lt_or_eq.mp hi with hi | rfl
      · exact h.negative i hi
      · exact horacle

/-! ## Recording a run -/

/-- The state of a motor, and what has been done to it. -/
structure Recorder (σ : Type) where
  state : σ
  patterns : List Coils
  checks : List ℕ
  steps : ℕ

namespace Recorder

variable {σ : Type}

def start (s : σ) : Recorder σ := ⟨s, [], [], 0⟩

def log (m : Recorder σ) (x : σ) (pattern : Coils) (steps : ℕ) : Recorder σ :=
  ⟨x, m.patterns ++ [pattern], m.checks, m.steps + steps⟩

def check (m : Recorder σ) : Recorder σ := { m with checks := m.checks ++ [m.steps] }

end Recorder

/-! ## The kernel module -/

/-- What a check of the kernel module is told. -/
structure CheckInput where
  echo : Echo
  pressed : Bool
  reopen : Bool

/-- A vehicle or the button. -/
def CheckInput.positive (c : CheckInput) : Bool :=
  decide (VehicleInRange (ultrasonicDistance c.echo)) || c.pressed || c.reopen

/-- The `k`-th check measures and looks at the flags; the measurement begins it. -/
def kernelHandler (inputs : ℕ → CheckInput) (o : GateOp) (m : Recorder GateState) :
    o.Resp × Recorder GateState :=
  let x := o.effect m.state
  match o with
  | .ping => ((inputs m.checks.length).echo, m.check)
  | .xchgSwitchPressed => ((inputs (m.checks.length - 1)).pressed, { m with state := x })
  | .xchgSwitchReopen => ((inputs (m.checks.length - 1)).reopen, { m with state := x })
  | .closingStep => ((), m.log x x.coils 1)
  | .openingStep | .deenergize => ((), m.log x x.coils 0)
  | .readState => (m.state.currentState, m)
  | .load v => (m.state.var v, m)
  | .ktime => (0, m)
  | .setSwitchReopen | .writeState _ | .gpioSet _ _ | .store _ _ | .prInfo _ =>
    ((), { m with state := x })

def kernelClose (inputs : ℕ → CheckInput) (s : GateState) : ℤ × Recorder GateState :=
  gateCloseInterruptible.run (kernelHandler inputs) (.start s)

def kernelTrack (m : Recorder GateState) : Track :=
  ⟨m.state.stepperStep, m.state.position, m.patterns, m.checks, m.steps⟩

section Kernel

variable {inputs : ℕ → CheckInput} {m : Recorder GateState}

theorem stepperSetPins_emod (x : ℤ) :
    stepperSetPins (x % 8) = stepperSequence.getD (x % 8).toNat .off := by
  have hnonneg : 0 ≤ x % 8 := Int.emod_nonneg x (by decide)
  have hlt : x % 8 < 8 := Int.emod_lt_of_pos x (by decide)
  rw [stepperSetPins, Int.tmod_eq_of_lt hnonneg hlt, if_neg (by omega)]

theorem kernelTrack_closingStep (inputs : ℕ → CheckInput) (h : (kernelTrack m).Valid) :
    kernelTrack (kernelHandler inputs .closingStep m).2 = (kernelTrack m).turn (-1) := by
  have hnonneg : 0 ≤ m.state.stepperStep := h.1
  have hphase : (m.state.stepperStep - 1 + 8).tmod 8 = (m.state.stepperStep - 1) % 8 := by
    rw [Int.tmod_eq_emod_of_nonneg (by omega)]
    omega
  simp only [kernelTrack, kernelHandler, GateOp.effect, GateState.closingStep, Recorder.log,
    Track.turn, hphase, stepperSetPins_emod, ← Int.sub_eq_add_neg]
  rfl

theorem kernelTrack_openingStep (inputs : ℕ → CheckInput) (h : (kernelTrack m).Valid) :
    kernelTrack (kernelHandler inputs .openingStep m).2 = (kernelTrack m).turn 1 := by
  have hnonneg : 0 ≤ m.state.stepperStep := h.1
  have hphase : (m.state.stepperStep + 1).tmod 8 = (m.state.stepperStep + 1) % 8 :=
    Int.tmod_eq_emod_of_nonneg (by omega)
  simp only [kernelTrack, kernelHandler, GateOp.effect, GateState.openingStep, Recorder.log,
    Track.turn, hphase, stepperSetPins_emod]
  rfl

/-- Back as many steps as there have been. -/
theorem kernelTrack_openingSteps (h : (kernelTrack m).Valid) (n : ℕ) :
    kernelTrack ((Prog.times n (perform .openingStep)).run (kernelHandler inputs) m).2
      = (Track.turn 1)^[n] (kernelTrack m) := by
  rw [Prog.run_times]
  induction n generalizing m with
  | zero => rfl
  | succ n ih =>
    have hstep : kernelTrack ((perform .openingStep).run (kernelHandler inputs) m).2
        = (kernelTrack m).turn 1 := kernelTrack_openingStep inputs h
    rw [Function.iterate_succ_apply, Function.iterate_succ_apply, ih, hstep]
    rw [hstep]
    exact Track.valid_turn 1 _

/-- The rest of a batch. -/
theorem run_batch (inputs : ℕ → CheckInput) (hm : (kernelTrack m).Valid) (left q phase : ℕ) {j : ℕ}
    (hj : j < closeBatch) :
    ∃ m', kernelTrack m' = (Track.turn (-1))^[j + 1] (kernelTrack m)
      ∧ (closeLoop (left + j + 1) (closeBatch * q + (closeBatch - (j + 1))) phase).run
          (kernelHandler inputs) m
        = (afterStep left (closeBatch * q + closeBatch) phase).run (kernelHandler inputs) m' := by
  have hbatch : closeBatch = 64 := rfl
  induction j generalizing m with
  | zero => exact ⟨_, kernelTrack_closingStep inputs hm, rfl⟩
  | succ j ih =>
    have hstep := kernelTrack_closingStep inputs hm
    obtain ⟨m', hm', hrun⟩ := ih (m := (kernelHandler inputs .closingStep m).2)
      (hstep ▸ Track.valid_turn _ _) (by omega)
    refine ⟨m', ?_, ?_⟩
    · rw [hm', hstep, ← Function.iterate_succ_apply]
    · -- there is no check in the middle of a batch
      have hsucc : closeBatch * q + (closeBatch - (j + 1 + 1)) + 1
          = closeBatch * q + (closeBatch - (j + 1)) := by omega
      have hmid : ¬((closeBatch * q + (closeBatch - (j + 1))) % closeBatch = 0
          ∧ closeBatch * q + (closeBatch - (j + 1)) < stepperGateSteps) := by
        rw [Nat.mul_add_mod, hbatch, Nat.mod_eq_of_lt (by omega)]
        rintro ⟨hzero, -⟩
        omega
      rw [← hrun, closeLoop_succ, hsucc, afterStep, if_neg hmid, Prog.run_bind]
      rfl

/-- The decision of a check that has measured: the flags are read as far as they are needed. -/
theorem run_closeInterrupted (inputs : ℕ → CheckInput) (m : Recorder GateState) :
    let r := (closeInterrupted (ultrasonicDistance (inputs m.checks.length).echo)).run
      (kernelHandler inputs) m.check
    r.1 = (inputs m.checks.length).positive ∧ kernelTrack r.2 = kernelTrack m.check := by
  have hindex : m.check.checks.length - 1 = m.checks.length := by simp [Recorder.check]
  rw [closeInterrupted, CheckInput.positive]
  split
  · rw [decide_eq_true ‹_›]
    exact ⟨rfl, rfl⟩
  · have hpressed : (switchWasPressed.run (kernelHandler inputs) m.check).1
        = (inputs m.checks.length).pressed := by
      rw [← hindex]
      rfl
    rw [Prog.run_bind, hpressed, decide_eq_false ‹_›]
    cases hp : (inputs m.checks.length).pressed with
    | true => exact ⟨rfl, rfl⟩
    | false =>
      refine ⟨?_, rfl⟩
      rw [← hindex]
      rfl

/-- A check: whether it is positive, and what it leaves. -/
theorem run_check {α : Type} (inputs : ℕ → CheckInput) (m : Recorder GateState) (phase : ℕ)
    (f : ℤ → Bool → GateProg α) :
    ∃ m' dist, kernelTrack m' = (kernelTrack m).check
      ∧ (do
          buzzerPattern phase
          let dist ← ultrasonicMeasureCm
          let b ← closeInterrupted dist
          f dist b : GateProg α).run (kernelHandler inputs) m
        = (f dist (inputs m.checks.length).positive).run (kernelHandler inputs) m' := by
  let dist := ultrasonicDistance (inputs m.checks.length).echo
  have hbuzzer : ∃ m₁, kernelTrack m₁ = kernelTrack m
      ∧ ((buzzerPattern phase).run (kernelHandler inputs) m).2 = m₁ := by
    refine ⟨_, ?_, rfl⟩
    rw [buzzerPattern]
    split <;> rfl
  obtain ⟨m₁, hm₁, hrun₁⟩ := hbuzzer
  have hchecks : m₁.checks.length = m.checks.length :=
    congrArg (List.length ∘ Track.checks) hm₁
  have hping : ultrasonicMeasureCm.run (kernelHandler inputs) m₁ = (dist, m₁.check) := by
    change (ultrasonicDistance (inputs m₁.checks.length).echo, m₁.check) = _
    rw [hchecks]
  obtain ⟨hpositive, htrack⟩ := run_closeInterrupted inputs m₁
  rw [hchecks] at hpositive htrack
  refine ⟨_, dist, htrack.trans (congrArg Track.check hm₁), ?_⟩
  rw [Prog.run_bind, hrun₁, Prog.run_bind, hping, Prog.run_bind, hpositive]

/-- The end of a close that is broken off. -/
theorem run_undo (inputs : ℕ → CheckInput) (hm : (kernelTrack m).Valid) (dist : ℤ) (n : ℕ) :
    let r := (do
      prInfo (.closeAborted dist n)
      buzzerOff
      .times n (perform .openingStep)
      stepperDeenergize
      return -1 : GateProg ℤ).run (kernelHandler inputs) m
    r.1 = -1 ∧ kernelTrack r.2 = ((Track.turn 1)^[n] (kernelTrack m)).deenergize := by
  let m₁ := (buzzerOff.run (kernelHandler inputs)
    ((prInfo (.closeAborted dist n)).run (kernelHandler inputs) m).2).2
  rw [Prog.run_bind, Prog.run_bind, Prog.run_bind]
  refine ⟨rfl, ?_⟩
  have hback : kernelTrack ((Prog.times n (perform .openingStep)).run (kernelHandler inputs) m₁).2
      = (Track.turn 1)^[n] (kernelTrack m) := kernelTrack_openingSteps (m := m₁) hm n
  rw [← hback]
  rfl

/-- The kernel module makes the movement. -/
theorem run_closeLoop (hm : (kernelTrack m).Valid) (batches : ℕ) {q phase : ℕ}
    (hq : batches + q = 16) (hsteps : m.steps = closeBatch * q) :
    let r := (closeLoop (closeBatch * batches) (closeBatch * q) phase).run (kernelHandler inputs) m
    let r' := closeTrack (fun k ↦ (inputs k).positive) batches (kernelTrack m)
    r.1 = r'.1 ∧ kernelTrack r.2 = r'.2 := by
  have hbatch : closeBatch = 64 := rfl
  induction batches generalizing m q phase with
  | zero => exact ⟨rfl, rfl⟩
  | succ batches ih =>
    have hleft : closeBatch * (batches + 1) = closeBatch * batches + 63 + 1 :=
      Nat.mul_succ _ _
    obtain ⟨m', hm', hrun⟩ := run_batch inputs hm (closeBatch * batches) q phase
      (j := 63) (by decide)
    have hsteps' : m'.steps = closeBatch * q + closeBatch := by
      have h := congrArg Track.steps hm'
      rwa [Track.iterate_turn_steps, kernelTrack, kernelTrack, hsteps] at h
    have hvalid : (kernelTrack m').Valid := hm' ▸ hm.iterate (-1) _
    rw [hleft, show closeBatch * q = closeBatch * q + (closeBatch - (63 + 1)) from rfl, hrun,
      closeTrack, ← show _ = (Track.turn (-1))^[closeBatch] (kernelTrack m) from hm']
    cases batches with
    | zero =>
      obtain rfl : q = 15 := by omega
      rw [afterStep, if_neg (by decide), if_pos rfl]
      exact ⟨rfl, rfl⟩
    | succ batches =>
      have hdue : (closeBatch * q + closeBatch) % closeBatch = 0
          ∧ closeBatch * q + closeBatch < stepperGateSteps := by
        rw [Nat.add_mod_right, Nat.mul_mod_right, hbatch]
        exact ⟨rfl, show 64 * q + 64 < 1024 by omega⟩
      obtain ⟨m₁, dist, hm₁, hcheck⟩ := run_check inputs m' ((phase + 1) % 10)
        fun dist b ↦ if b then do
          prInfo (.closeAborted dist (closeBatch * q + closeBatch))
          buzzerOff
          .times (closeBatch * q + closeBatch) (perform .openingStep)
          stepperDeenergize
          return -1
        else closeLoop (closeBatch * (batches + 1)) (closeBatch * q + closeBatch)
          ((phase + 1) % 10)
      have hvalid₁ : (kernelTrack m₁).Valid := hm₁ ▸ hvalid
      rw [afterStep, if_pos hdue, hcheck, if_neg (Nat.succ_ne_zero batches)]
      change Prod.fst (Prog.run _ (ite ((inputs m'.checks.length).positive = true) _ _) _)
          = Prod.fst (ite ((inputs m'.checks.length).positive = true) _ _) ∧
        kernelTrack (Prod.snd (Prog.run _ (ite ((inputs m'.checks.length).positive = true) _ _) _))
          = Prod.snd (ite ((inputs m'.checks.length).positive = true) _ _)
      split
      · obtain ⟨hresult, htrack⟩ := run_undo inputs hvalid₁ dist (closeBatch * q + closeBatch)
        refine ⟨hresult, htrack.trans ?_⟩
        rw [hm₁, show (kernelTrack m').steps = _ from hsteps']
      · have hsteps₁ : m₁.steps = m'.steps := congrArg Track.steps hm₁
        rw [← hm₁]
        exact ih (q := q + 1) hvalid₁ (by omega) (hsteps₁.trans hsteps')

theorem kernelClose_track (inputs : ℕ → CheckInput) {s : GateState}
    (hs : 0 ≤ s.stepperStep ∧ s.stepperStep < 8) :
    (kernelClose inputs s).1
        = (closeTrack (fun k ↦ (inputs k).positive) 16 (kernelTrack (.start s))).1
      ∧ kernelTrack (kernelClose inputs s).2
        = (closeTrack (fun k ↦ (inputs k).positive) 16 (kernelTrack (.start s))).2 :=
  run_closeLoop (m := .start s) hs 16 (q := 0) rfl rfl

end Kernel

/-! ## The controller -/

/-- The callback asks the oracle. -/
def consult : Prog (RespSum UserNode.CtlOp.Resp fun _ : Unit ↦ Bool) Bool := .op (.inr ()) .ret

def userHandler (oracle : ℕ → Bool) :
    (o : UserNode.CtlOp ⊕ Unit) → Recorder UserNode.Controller →
      RespSum UserNode.CtlOp.Resp (fun _ : Unit ↦ Bool) o × Recorder UserNode.Controller
  | .inr (), m => (oracle m.checks.length, m.check)
  | .inl .readGate, m => (m.state.currentState, m)
  | .inl (.stepperStep d), m =>
    let x := (UserNode.CtlOp.stepperStep d).effect m.state
    ((), m.log x x.pins (if d < 0 then 1 else 0))
  | .inl .deenergize, m =>
    let x := UserNode.CtlOp.deenergize.effect m.state
    ((), m.log x x.pins 0)
  | .inl .lockGate, m => ((), { m with state := UserNode.CtlOp.lockGate.effect m.state })
  | .inl .unlockGate, m => ((), { m with state := UserNode.CtlOp.unlockGate.effect m.state })
  | .inl (.writeGate g), m => ((), { m with state := (UserNode.CtlOp.writeGate g).effect m.state })

def userClose (oracle : ℕ → Bool) (s : UserNode.Controller) : ℤ × Recorder UserNode.Controller :=
  (UserNode.gateCloseInterruptible (some consult)).run (userHandler oracle) (.start s)

def userTrack (m : Recorder UserNode.Controller) : Track :=
  ⟨m.state.currentStep, m.state.position, m.patterns, m.checks, m.steps⟩

section User

variable {oracle : ℕ → Bool} {m : Recorder UserNode.Controller}

theorem userTrack_stepperStep (oracle : ℕ → Bool) (h : (userTrack m).Valid) {d : ℤ} (hd : -8 ≤ d) :
    userTrack (userHandler oracle (.inl (.stepperStep d)) m).2 = (userTrack m).turn d := by
  have hnonneg : 0 ≤ m.state.currentStep := h.1
  have hphase : (m.state.currentStep + d + 8).tmod 8 = (m.state.currentStep + d) % 8 := by
    rw [Int.tmod_eq_emod_of_nonneg (by omega)]
    omega
  simp only [userTrack, userHandler, UserNode.CtlOp.effect, UserNode.Controller.stepperStep,
    Recorder.log, Track.turn, hphase]

theorem userTrack_steps (oracle : ℕ → Bool) (h : (userTrack m).Valid) {d : ℤ} (hd : -8 ≤ d)
    (n : ℕ) : userTrack ((Prog.times n (UserNode.ctlPerform (.stepperStep d))).inl.run
      (userHandler oracle) m).2 = (Track.turn d)^[n] (userTrack m) := by
  rw [Prog.inl_times, Prog.run_times]
  induction n generalizing m with
  | zero => rfl
  | succ n ih =>
    have hstep : userTrack ((UserNode.ctlPerform (.stepperStep d)).inl.run (userHandler oracle) m).2
        = (userTrack m).turn d := userTrack_stepperStep oracle h hd
    rw [Function.iterate_succ_apply, Function.iterate_succ_apply, ih, hstep]
    rw [hstep]
    exact Track.valid_turn d _

theorem batch_of_lt {q : ℕ} (hq : q < 16) : UserNode.batch (closeBatch * q) = closeBatch := by
  have hbatch : closeBatch = 64 := rfl
  have hsteps : stepperGateSteps = 1024 := rfl
  rw [UserNode.batch, hbatch, hsteps]
  split
  · rfl
  · omega

/-- One batch of a close. -/
theorem userTrack_batch (oracle : ℕ → Bool) (h : (userTrack m).Valid) :
    userTrack ((UserNode.stepperMove (-closeBatch)).inl.run (userHandler oracle) m).2
      = (Track.turn (-1))^[closeBatch] (userTrack m) :=
  userTrack_steps oracle h (by decide) closeBatch

/-- The end of a close that is broken off. -/
theorem run_undoClose (oracle : ℕ → Bool) (hm : (userTrack m).Valid) {n : ℕ} (hn : 0 < n) :
    let r := (UserNode.undoClose n).inl.run (userHandler oracle) m
    r.1 = -1 ∧ userTrack r.2 = ((Track.turn 1)^[n] (userTrack m)).deenergize := by
  have hmove : UserNode.stepperMove n = .times n (UserNode.ctlPerform (.stepperStep 1)) := by
    rw [UserNode.stepperMove, if_pos (Int.natCast_pos.mpr hn), Int.natAbs_natCast]
  rw [UserNode.undoClose, hmove, Prog.inl_bind, Prog.run_bind,
    ← userTrack_steps oracle hm (d := 1) (by decide)]
  exact ⟨rfl, rfl⟩

/-- The controller makes the movement. -/
theorem run_closeFrom (hm : (userTrack m).Valid) (batches : ℕ) {q : ℕ} (hq : batches + q = 16)
    (hsteps : m.steps = closeBatch * q) :
    let r := (UserNode.closeFrom (some consult) (closeBatch * q)).run (userHandler oracle) m
    let r' := closeTrack oracle batches (userTrack m)
    r.1 = r'.1 ∧ userTrack r.2 = r'.2 := by
  have hbatch : closeBatch = 64 := rfl
  have hgate : stepperGateSteps = 1024 := rfl
  induction batches generalizing m q with
  | zero =>
    obtain rfl : q = 16 := by omega
    rw [UserNode.closeFrom, dif_neg (by decide)]
    exact ⟨rfl, rfl⟩
  | succ batches ih =>
    have hlt : closeBatch * q < stepperGateSteps := by
      rw [hbatch, hgate]
      omega
    have hbatchTrack := userTrack_batch oracle hm
    rw [UserNode.closeFrom, dif_pos hlt, batch_of_lt (by omega), Prog.run_bind, closeTrack,
      ← hbatchTrack]
    generalize ((UserNode.stepperMove (-closeBatch)).inl.run (userHandler oracle) m).2 = m'
      at hbatchTrack ⊢
    have hsteps' : m'.steps = closeBatch * (q + 1) := by
      have h := congrArg Track.steps hbatchTrack
      rwa [Track.iterate_turn_steps, userTrack, userTrack, hsteps] at h
    have hvalid : (userTrack m').Valid := hbatchTrack ▸ hm.iterate (-1) _
    dsimp only
    cases batches with
    | zero =>
      obtain rfl : q = 15 := by omega
      rw [if_neg (by decide), if_pos rfl]
      exact ih (q := 16) hvalid rfl hsteps'
    | succ batches =>
      have hdue : closeBatch * q + closeBatch < stepperGateSteps := by
        rw [hbatch, hgate]
        omega
      rw [if_pos hdue, if_neg (Nat.succ_ne_zero batches)]
      change Prod.fst (Prog.run _ (ite (oracle m'.checks.length = true) _ _) _)
          = Prod.fst (ite (oracle m'.checks.length = true) _ _) ∧
        userTrack (Prod.snd (Prog.run _ (ite (oracle m'.checks.length = true) _ _) _))
          = Prod.snd (ite (oracle m'.checks.length = true) _ _)
      split
      · obtain ⟨hresult, htrack⟩ := run_undoClose oracle (m := m'.check) hvalid
          (n := closeBatch * q + closeBatch) (Nat.add_pos_right _ (by decide))
        refine ⟨hresult, htrack.trans ?_⟩
        rw [show (userTrack m').steps = _ from hsteps']
        rfl
      · exact ih (m := m'.check) (q := q + 1) hvalid (by omega) hsteps'

theorem userClose_track (oracle : ℕ → Bool) {s : UserNode.Controller}
    (hs : 0 ≤ s.currentStep ∧ s.currentStep < 8) (hopen : s.currentState = .open) :
    (userClose oracle s).1 = (closeTrack oracle 16 (userTrack (.start s))).1
      ∧ userTrack (userClose oracle s).2
        = (closeTrack oracle 16 (userTrack (.start s))).2 := by
  let m : Recorder UserNode.Controller :=
    .start (UserNode.CtlOp.unlockGate.effect (UserNode.CtlOp.lockGate.effect s))
  have hgate : s.currentState ≠ .closed := by
    rw [hopen]
    decide
  have hrun : userClose oracle s = (UserNode.closeFrom (some consult) (closeBatch * 0)).run
      (userHandler oracle) m := by
    rw [userClose, UserNode.gateCloseInterruptible, Prog.run_bind, Prog.run_bind, Prog.run_bind]
    exact congrArg (fun p ↦ Prog.run _ p m) (if_neg hgate)
  rw [hrun]
  exact run_closeFrom (m := m) hs 16 rfl rfl

end User

/-! ## The same movement -/

/-- The movement does not depend on where the arm is. -/
theorem closeTrack_shift (oracle : ℕ → Bool) (p : ℤ) (batches : ℕ) (t : Track) :
    closeTrack oracle batches (t.shift p)
      = ((closeTrack oracle batches t).1, (closeTrack oracle batches t).2.shift p) := by
  induction batches generalizing t with
  | zero => rfl
  | succ batches ih =>
    rw [closeTrack, closeTrack, Track.iterate_turn_shift]
    generalize (Track.turn (-1))^[closeBatch] t = t₁
    split
    · rfl
    · change ite (oracle t₁.checks.length = true) _ _ = _
      split
      · have hback : (Track.turn 1)^[t₁.steps] (t₁.check.shift p)
            = ((Track.turn 1)^[t₁.steps] t₁.check).shift p := Track.iterate_turn_shift 1 p _ _
        change ((-1 : ℤ), ((Track.turn 1)^[t₁.steps] (t₁.check.shift p)).deenergize) = _
        rw [hback]
        rfl
      · exact ih t₁.check

/-- Two closes with the same result, the same patterns on the pins, the same checks and the same
phase at the end. -/
structure SameMovement (k : ℤ × Recorder GateState) (v : ℤ × Recorder UserNode.Controller) :
    Prop where
  result : k.1 = v.1
  patterns : k.2.patterns = v.2.patterns
  checks : k.2.checks = v.2.checks
  phase : k.2.state.stepperStep = v.2.state.currentStep

/-- **The two closes are the same movement.** From the same phase and with the same answers the
kernel module and the controller do the same; the checks are made after 64, 128, … steps up to the
first positive one or to 960, and the arm is back where it was or 1024 steps lower. -/
theorem closes_move_alike (inputs : ℕ → CheckInput) {s : GateState} {u : UserNode.Controller}
    (hphase : 0 ≤ s.stepperStep ∧ s.stepperStep < 8) (hsame : u.currentStep = s.stepperStep)
    (hopen : u.currentState = .open) :
    let oracle := fun i ↦ (inputs i).positive
    let k := kernelClose inputs s
    let v := userClose oracle u
    SameMovement k v
      ∧ ∃ n, CloseEnds oracle n (kernelTrack (.start s)) k.1 (kernelTrack k.2)
        ∧ CloseEnds oracle n (userTrack (.start u)) v.1 (userTrack v.2) := by
  intro oracle k v
  have hphase' : 0 ≤ u.currentStep ∧ u.currentStep < 8 := hsame ▸ hphase
  have hstart : userTrack (.start u)
      = (kernelTrack (.start s)).shift (u.position - s.position) := by
    simp only [userTrack, kernelTrack, Recorder.start, Track.shift, hsame]
    congr 1
    omega
  obtain ⟨hkresult, hktrack⟩ := kernelClose_track inputs hphase
  obtain ⟨huresult, hutrack⟩ := userClose_track oracle hphase' hopen
  have hends := closeTrack_ends oracle (t := kernelTrack (.start s)) hphase 15 (q := 0) rfl
    (.start hphase rfl rfl)
  rw [hstart, closeTrack_shift] at huresult hutrack
  change k.1 = _ at hkresult
  change kernelTrack k.2 = _ at hktrack
  change v.1 = (closeTrack oracle 16 (kernelTrack (.start s))).1 at huresult
  change userTrack v.2 = (closeTrack oracle 16 (kernelTrack (.start s))).2.shift _ at hutrack
  rw [← hkresult, ← hktrack] at hends
  rw [← hkresult] at huresult
  rw [← hktrack] at hutrack
  refine ⟨⟨huresult.symm, ?_, ?_, ?_⟩, ?_⟩
  · exact (congrArg Track.patterns hutrack).symm
  · exact (congrArg Track.checks hutrack).symm
  · exact (congrArg Track.phase hutrack).symm
  · obtain ⟨n, hn⟩ := hends
    refine ⟨n, hn, ?_⟩
    rw [huresult, hutrack, hstart]
    exact hn.shift _

/-- Nobody is there, until a vehicle stands before the sensor at the third check. -/
def thirdCheck (k : ℕ) : CheckInput where
  echo := if k = 2 then .ofCm 5 else .silent
  pressed := false
  reopen := false

/-- Both reverse after 192 steps, wherever the arm is. -/
theorem third_check_reverses_alike :
    SameMovement (kernelClose thirdCheck .init)
      (userClose (fun i ↦ (thirdCheck i).positive) ⟨.open, false, 0, .off, 1024⟩) :=
  (closes_move_alike thirdCheck (s := .init) (u := ⟨.open, false, 0, .off, 1024⟩) (by decide) rfl
    rfl).1

end ParkingService
