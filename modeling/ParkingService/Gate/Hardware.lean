import Mathlib.Algebra.Group.Int.Defs
import Mathlib.Algebra.Group.Nat.Defs
import ParkingService.Concurrency.Trace
import ParkingService.Concurrency.View

/-!
# The gate module: shared data and hardware layer

The variables of the `gate_node` kernel module that its state machine thread reads and writes, the
atomic operations it performs on them, and the routines of `gate_hw.c` written over these
operations. One operation is one critical section of `hw_lock` or `state_mutex`, one atomic access
to a button flag, or one access to a variable only the thread uses; an interrupt or a reader may
come between any two of them.

The arm itself is part of the state: `position` counts coil advances, up for opening and down for
closing, and is `0` when the gate is closed.

`int` values are `Int`, with C's truncating `/` and `%` as `Int.tdiv` and `Int.tmod`; only where
the code narrows a 64-bit value is the wrap written out, as `toInt32`.
-/

namespace ParkingService

open Concurrency

/-! ## Configuration -/

def stepperGateSteps : ℕ := 1024

def entryCloseDelaySec : ℤ := 10

def exitTimeoutSec : ℤ := 10

def vehicleDetectCm : ℤ := 10

/-- Conversion of a 64-bit value to `int`. -/
def toInt32 (x : ℤ) : ℤ := Int.bmod x (2 ^ 32)

inductive SystemState
  | idle
  | entryDetected
  | entryWaiting
  | exitRequested
  | exitVehicleDetected
  | exitVehicleWaiting
  deriving DecidableEq, Repr

/-! ## Coils -/

/-- Levels of `STEPPER_IN1` to `STEPPER_IN4`. -/
structure Coils where
  in1 : ℤ
  in2 : ℤ
  in3 : ℤ
  in4 : ℤ
  deriving DecidableEq, Repr

def Coils.off : Coils := ⟨0, 0, 0, 0⟩

/-- The half-step sequence of the 28BYJ-48. -/
def stepperSequence : List Coils :=
  [⟨1, 0, 0, 0⟩, ⟨1, 1, 0, 0⟩, ⟨0, 1, 0, 0⟩, ⟨0, 1, 1, 0⟩,
    ⟨0, 0, 1, 0⟩, ⟨0, 0, 1, 1⟩, ⟨0, 0, 0, 1⟩, ⟨1, 0, 0, 1⟩]

/-- The levels `stepper_set_pins` writes. The second `%` is the source's; it changes nothing. -/
def stepperSetPins (step : ℤ) : Coils :=
  let step := step.tmod 8
  let step := if step < 0 then step.tmod 8 + 8 else step
  stepperSequence.getD step.toNat .off

/-! ## One ultrasonic measurement -/

/-- What the echo pin and the clock show during one measurement: the level seen by the `k`-th poll
of the two waiting loops, and the two time stamps in nanoseconds. -/
structure Echo where
  rise : ℕ → ℤ
  fall : ℕ → ℤ
  start : ℤ
  stop : ℤ

def maxTimeout : ℕ := 30000

/-- Loops spent while the pin shows `level`, at most `left` more. -/
def waitWhile (level : ℤ) (pin : ℕ → ℤ) : (left loops : ℕ) → ℕ
  | 0, loops => loops
  | left + 1, loops => if pin loops = level then waitWhile level pin left (loops + 1) else loops

def ultrasonicDistance (e : Echo) : ℤ :=
  if maxTimeout ≤ waitWhile 0 e.rise maxTimeout 0 then -1
  else if maxTimeout ≤ waitWhile 1 e.fall maxTimeout 0 then -1
  else
    let durationUs := (e.stop - e.start).tdiv 1000
    let distanceCm := toInt32 (durationUs.tdiv 58)
    if 0 < distanceCm then distanceCm else -1

/-- A loop over a pin that shows another level is left at once. -/
theorem waitWhile_of_ne {level : ℤ} {pin : ℕ → ℤ} {loops : ℕ} (h : pin loops ≠ level) (left : ℕ) :
    waitWhile level pin left loops = loops := by
  cases left with
  | zero => rfl
  | succ left => rw [waitWhile, if_neg h]

/-- A loop over a pin that never changes runs into the timeout. -/
theorem waitWhile_const (level : ℤ) (left loops : ℕ) :
    waitWhile level (fun _ ↦ level) left loops = loops + left := by
  induction left generalizing loops with
  | zero => rfl
  | succ left ih => rw [waitWhile, if_pos rfl, ih, Nat.add_right_comm, Nat.add_assoc]

/-- No echo comes back. -/
def Echo.silent : Echo := ⟨fun _ ↦ 0, fun _ ↦ 0, 0, 0⟩

/-- The echo of an obstacle `d` centimetres away. -/
def Echo.ofCm (d : ℤ) : Echo := ⟨fun _ ↦ 1, fun _ ↦ 0, 0, d * 58 * 1000⟩

theorem ultrasonicDistance_silent : ultrasonicDistance .silent = -1 := by
  rw [ultrasonicDistance, Echo.silent, waitWhile_const, if_pos (by simp)]

theorem ultrasonicDistance_silent_neg : ultrasonicDistance .silent < 0 := by
  rw [ultrasonicDistance_silent]
  decide

/-- Every distance that fits an `int` can be measured. -/
theorem ultrasonicDistance_ofCm {d : ℤ} (hpos : 0 < d) (hlt : d < 2 ^ 31) :
    ultrasonicDistance (.ofCm d) = d := by
  have hint : toInt32 d = d := Int.bmod_eq_of_le (by omega) (by omega)
  have hdiv : ((d * 58 * 1000 - 0).tdiv 1000).tdiv 58 = d := by
    rw [Int.sub_zero, Int.mul_tdiv_cancel _ (by decide), Int.mul_tdiv_cancel _ (by decide)]
  have hrise : waitWhile 0 (fun _ ↦ 1) maxTimeout 0 = 0 := waitWhile_of_ne (by decide) _
  have hfall : waitWhile 1 (fun _ ↦ 0) maxTimeout 0 = 0 := waitWhile_of_ne (by decide) _
  rw [ultrasonicDistance, Echo.ofCm, hrise, hfall, if_neg (by decide), if_neg (by decide)]
  simp only [hdiv, hint, if_pos hpos]

/-- The test for a vehicle in front of the sensor. -/
def VehicleInRange (distanceCm : ℤ) : Prop := 0 < distanceCm ∧ distanceCm ≤ vehicleDetectCm

instance (d : ℤ) : Decidable (VehicleInRange d) := inferInstanceAs (Decidable (_ ∧ _))

theorem vehicleInRange_ofCm {d : ℤ} (h : VehicleInRange d) :
    VehicleInRange (ultrasonicDistance (.ofCm d)) := by
  have hle : d ≤ 10 := h.2
  rwa [ultrasonicDistance_ofCm h.1 (by omega)]

/-! ## Operations -/

/-- The variables of the module that no one but the thread uses. -/
inductive GateVar
  | lastVehicleDetect
  | exitRequestTime
  | buzzerPhase
  deriving DecidableEq

/-- Output pins other than the coils. -/
inductive OutPin
  | buzzer
  | entryLed
  | exitLed
  deriving DecidableEq

/-- The lines the thread writes to the kernel log, with what they report. -/
inductive LogLine
  | exitOpen
  | entryOpen (distanceCm : ℤ)
  | entryVehicleGone (distanceCm : ℤ)
  | entryClose
  | entryReopened
  | entryVehicleBack (distanceCm : ℤ)
  | exitVehicle (distanceCm : ℤ)
  | exitTimeoutClose
  | exitTimeoutReopened
  | exitVehicleGone (distanceCm : ℤ)
  | exitClose
  | exitReopened
  | exitVehicleBack (distanceCm : ℤ)
  | closeAborted (distanceCm : ℤ) (stepsDone : ℕ)
  deriving DecidableEq

/-- The atomic operations of the state machine thread. -/
inductive GateOp
  /-- `atomic_xchg(&switch_pressed, 0)` -/
  | xchgSwitchPressed
  /-- `atomic_set(&switch_reopen, 1)` -/
  | setSwitchReopen
  /-- `atomic_xchg(&switch_reopen, 0)` -/
  | xchgSwitchReopen
  /-- `current_state`, read under `state_mutex` -/
  | readState
  /-- `current_state`, written under `state_mutex` -/
  | writeState (s : SystemState)
  /-- a trigger pulse and the echo it gets -/
  | ping
  | ktime
  /-- one step of an opening movement, under `hw_lock` -/
  | openingStep
  /-- one step of a closing movement, under `hw_lock` -/
  | closingStep
  | deenergize
  | gpioSet (pin : OutPin) (level : ℤ)
  | load (v : GateVar)
  | store (v : GateVar) (x : ℤ)
  | prInfo (line : LogLine)

/-- What an operation returns. -/
abbrev GateOp.Resp : GateOp → Type
  | .xchgSwitchPressed => Bool
  | .xchgSwitchReopen => Bool
  | .readState => SystemState
  | .ping => Echo
  | .ktime => ℤ
  | .load _ => ℤ
  | _ => Unit

/-- Programs of the state machine thread. -/
abbrev GateProg := Prog GateOp.Resp

/-- The state of the module, the levels of its pins, and where the arm is. -/
structure GateState where
  switchPressed : Bool
  switchReopen : Bool
  currentState : SystemState
  var : GateVar → ℤ
  stepperStep : ℤ
  coils : Coils
  level : OutPin → ℤ
  position : ℤ

/-- Freshly loaded: static variables as initialised, pins as `gate_hw_init` leaves them, the gate
closed. -/
def GateState.init : GateState where
  switchPressed := false
  switchReopen := false
  currentState := .idle
  var _ := 0
  stepperStep := 0
  coils := .off
  level pin := if pin = .buzzer then 1 else 0
  position := 0

namespace GateState

variable (s : GateState)

/-- The body of the loop of `gate_open`. -/
def openingStep : GateState :=
  let step := (s.stepperStep + 1).tmod 8
  { s with stepperStep := step, coils := stepperSetPins step, position := s.position + 1 }

/-- The body of the loop of `gate_close_interruptible`. -/
def closingStep : GateState :=
  let step := (s.stepperStep - 1 + 8).tmod 8
  { s with stepperStep := step, coils := stepperSetPins step, position := s.position - 1 }

end GateState

/-- The answers an operation can get. A measurement and the clock may return anything; what the
other operations return is determined by the state. -/
def GateOp.Answers : (o : GateOp) → o.Resp → GateState → Prop
  | .xchgSwitchPressed, r, s => r = s.switchPressed
  | .xchgSwitchReopen, r, s => r = s.switchReopen
  | .readState, r, s => r = s.currentState
  | .load v, r, s => r = s.var v
  | _, _, _ => True

instance : ∀ (o : GateOp) (r : o.Resp) (s : GateState), Decidable (o.Answers r s)
  | .xchgSwitchPressed, r, s => inferInstanceAs (Decidable (r = s.switchPressed))
  | .xchgSwitchReopen, r, s => inferInstanceAs (Decidable (r = s.switchReopen))
  | .readState, r, s => inferInstanceAs (Decidable (r = s.currentState))
  | .load v, r, s => inferInstanceAs (Decidable (r = s.var v))
  | .setSwitchReopen, _, _ | .writeState _, _, _ | .ping, _, _ | .ktime, _, _
  | .openingStep, _, _ | .closingStep, _, _ | .deenergize, _, _ | .gpioSet _ _, _, _
  | .store _ _, _, _ | .prInfo _, _, _ => inferInstanceAs (Decidable True)

/-- What an operation does to the state. -/
def GateOp.effect : GateOp → GateState → GateState
  | .xchgSwitchPressed, s => { s with switchPressed := false }
  | .setSwitchReopen, s => { s with switchReopen := true }
  | .xchgSwitchReopen, s => { s with switchReopen := false }
  | .writeState x, s => { s with currentState := x }
  | .openingStep, s => s.openingStep
  | .closingStep, s => s.closingStep
  | .deenergize, s => { s with coils := .off }
  | .gpioSet pin x, s => { s with level := Function.update s.level pin x }
  | .store v x, s => { s with var := Function.update s.var v x }
  | _, s => s

def GateOp.exec (o : GateOp) (r : o.Resp) (s : GateState) : Option GateState :=
  if o.Answers r s then some (o.effect s) else none

theorem GateOp.exec_eq_some {o : GateOp} {r : o.Resp} {s x : GateState} :
    o.exec r s = some x ↔ o.Answers r s ∧ o.effect s = x := by
  simp [exec]

/-- Perform one operation. -/
def perform (o : GateOp) : GateProg o.Resp := .call o

/-! ## `gate_hw.c` -/

def ultrasonicMeasureCm : GateProg ℤ := do
  let e ← perform .ping
  return ultrasonicDistance e

def switchWasPressed : GateProg Bool := perform .xchgSwitchPressed

def switchSetReopen : GateProg Unit := perform .setSwitchReopen

def switchReopenWasRequested : GateProg Bool := perform .xchgSwitchReopen

def prInfo (line : LogLine) : GateProg Unit := perform (.prInfo line)

def buzzerOn : GateProg Unit := perform (.gpioSet .buzzer 0)

/-- The buzzer is active low. -/
def buzzerOff : GateProg Unit := perform (.gpioSet .buzzer 1)

def entryLedSet (on : Bool) : GateProg Unit := perform (.gpioSet .entryLed (if on then 1 else 0))

def exitLedSet (on : Bool) : GateProg Unit := perform (.gpioSet .exitLed (if on then 1 else 0))

def stepperDeenergize : GateProg Unit := perform .deenergize

def gateOpen : GateProg Unit := .times stepperGateSteps (perform .openingStep)

/-- The condition under which a close is broken off, with the source's short-circuit `||`: a seen
vehicle leaves both flags unread, a press leaves `switch_reopen` unread. -/
def closeInterrupted (dist : ℤ) : GateProg Bool :=
  if VehicleInRange dist then return true
  else do
    if ← switchWasPressed then return true
    else switchReopenWasRequested

/-- The buzzer during a close: five checks on, five off. -/
def buzzerPattern (localBuzzerPhase : ℕ) : GateProg Unit :=
  if localBuzzerPhase < 5 then buzzerOn else buzzerOff

/-- `BATCH` -/
def closeBatch : ℕ := 64

/-- The loop of `gate_close_interruptible`, with `left` steps to go. -/
def closeLoop : (left stepsDone localBuzzerPhase : ℕ) → GateProg ℤ
  | 0, _, _ => do
    stepperDeenergize
    return 0
  | left + 1, stepsDone, localBuzzerPhase => do
    perform .closingStep
    if (stepsDone + 1) % closeBatch = 0 ∧ stepsDone + 1 < stepperGateSteps then
      buzzerPattern ((localBuzzerPhase + 1) % 10)
      let dist ← ultrasonicMeasureCm
      if ← closeInterrupted dist then
        prInfo (.closeAborted dist (stepsDone + 1))
        buzzerOff
        .times (stepsDone + 1) (perform .openingStep)
        stepperDeenergize
        return -1
      else
        closeLoop left (stepsDone + 1) ((localBuzzerPhase + 1) % 10)
    else
      closeLoop left (stepsDone + 1) localBuzzerPhase

/-- What follows a step of a close. -/
def afterStep (left stepsDone localBuzzerPhase : ℕ) : GateProg ℤ :=
  if stepsDone % closeBatch = 0 ∧ stepsDone < stepperGateSteps then do
    buzzerPattern ((localBuzzerPhase + 1) % 10)
    let dist ← ultrasonicMeasureCm
    if ← closeInterrupted dist then
      prInfo (.closeAborted dist stepsDone)
      buzzerOff
      .times stepsDone (perform .openingStep)
      stepperDeenergize
      return -1
    else closeLoop left stepsDone ((localBuzzerPhase + 1) % 10)
  else closeLoop left stepsDone localBuzzerPhase

theorem closeLoop_succ (left stepsDone localBuzzerPhase : ℕ) :
    closeLoop (left + 1) stepsDone localBuzzerPhase = (do
      perform .closingStep
      afterStep left (stepsDone + 1) localBuzzerPhase) := rfl

def gateCloseInterruptible : GateProg ℤ := closeLoop stepperGateSteps 0 9

end ParkingService
