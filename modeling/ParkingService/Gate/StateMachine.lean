import ParkingService.Gate.Hardware

/-!
# The gate module: state machine thread, button and device

The routines of `gate_main.c`. One job of the thread is one turn of the loop of
`state_machine_thread_fn`; between two turns the thread is idle, which is what "at the top of the
loop" means throughout. The environment may press the exit button or let the bridge poll the
device at any moment, including between two motor steps.

`kthread_should_stop` only decides whether there is another turn, and `msleep` does nothing to the
state, so neither appears. The branches of the `switch` are separate definitions, one per state.
-/

namespace ParkingService

open Concurrency

/-! ## `gate_main.c` -/

def gateGetState : GateProg SystemState := perform .readState

def gateSetState (s : SystemState) : GateProg Unit := perform (.writeState s)

def ktimeGetSeconds : GateProg ℤ := perform .ktime

def onSwitchPress : GateProg Unit := do
  let state ← gateGetState
  if state = .idle then
    prInfo .exitOpen
    gateOpen
    let now ← ktimeGetSeconds
    perform (.store .exitRequestTime now)
    gateSetState .exitRequested
  else
    switchSetReopen

/-- `elapsed = now - since`, where `since` is the value of the variable `v`. -/
def elapsedSince (v : GateVar) (now : ℤ) : GateProg ℤ := do
  let since ← perform (.load v)
  return toInt32 (now - since)

def whenIdle (distanceCm now : ℤ) : GateProg Unit := do
  if VehicleInRange distanceCm then
    prInfo (.entryOpen distanceCm)
    gateSetState .entryDetected
    gateOpen
    perform (.store .lastVehicleDetect now)

/-- Report, restart the timer and change state, in this order. -/
def moveOn (line : LogLine) (s : SystemState) (now : ℤ) : GateProg Unit := do
  prInfo line
  perform (.store .lastVehicleDetect now)
  gateSetState s

/-- Report and close; `reopened` is what an aborted close is followed by. -/
def closeOr (line : LogLine) (reopened : GateProg Unit) : GateProg Unit := do
  prInfo line
  if (← gateCloseInterruptible) < 0 then reopened else gateSetState .idle

def whenEntryDetected (distanceCm now : ℤ) : GateProg Unit := do
  if VehicleInRange distanceCm then
    perform (.store .lastVehicleDetect now)
  else if distanceCm < 0 ∨ vehicleDetectCm < distanceCm then
    moveOn (.entryVehicleGone distanceCm) .entryWaiting now

/-- The two states that wait for the vehicle to stay away look at the clock first: when the time is
up, the turn's own measurement is not looked at. -/
def whenWaiting (closing reopened : LogLine) (back : ℤ → LogLine) (detected : SystemState)
    (distanceCm now : ℤ) : GateProg Unit := do
  let elapsed ← elapsedSince .lastVehicleDetect now
  if entryCloseDelaySec ≤ elapsed then
    closeOr closing do
      prInfo reopened
      let now ← ktimeGetSeconds
      perform (.store .lastVehicleDetect now)
      gateSetState detected
  else if VehicleInRange distanceCm then
    moveOn (back distanceCm) detected now

def whenEntryWaiting : ℤ → ℤ → GateProg Unit :=
  whenWaiting .entryClose .entryReopened .entryVehicleBack .entryDetected

/-- The one closing state that looks at the sensor before it looks at the clock. -/
def whenExitRequested (distanceCm now : ℤ) : GateProg Unit := do
  if VehicleInRange distanceCm then
    prInfo (.exitVehicle distanceCm)
    gateSetState .exitVehicleDetected
    perform (.store .lastVehicleDetect now)
  else
    let elapsed ← elapsedSince .exitRequestTime now
    if exitTimeoutSec ≤ elapsed then
      closeOr .exitTimeoutClose do
        prInfo .exitTimeoutReopened
        let now ← ktimeGetSeconds
        perform (.store .lastVehicleDetect now)
        perform (.store .exitRequestTime now)
        gateSetState .exitRequested

/-- Unlike in `whenEntryDetected`, a timed-out measurement is no branch here. -/
def whenExitVehicleDetected (distanceCm now : ℤ) : GateProg Unit := do
  if VehicleInRange distanceCm then
    perform (.store .lastVehicleDetect now)
  else if vehicleDetectCm < distanceCm then
    moveOn (.exitVehicleGone distanceCm) .exitVehicleWaiting now

def whenExitVehicleWaiting : ℤ → ℤ → GateProg Unit :=
  whenWaiting .exitClose .exitReopened .exitVehicleBack .exitVehicleDetected

def dispatch (state : SystemState) (distanceCm now : ℤ) : GateProg Unit :=
  match state with
  | .idle => whenIdle distanceCm now
  | .entryDetected => whenEntryDetected distanceCm now
  | .entryWaiting => whenEntryWaiting distanceCm now
  | .exitRequested => whenExitRequested distanceCm now
  | .exitVehicleDetected => whenExitVehicleDetected distanceCm now
  | .exitVehicleWaiting => whenExitVehicleWaiting distanceCm now

/-- Buzzer and LEDs while the gate is in use: half a second on, half a second off. -/
def signalActive (state : SystemState) : GateProg Unit := do
  let isEntry : Bool := state = .entryDetected ∨ state = .entryWaiting
  let phase ← perform (.load .buzzerPhase)
  perform (.store .buzzerPhase ((phase + 1).tmod 10))
  if (phase + 1).tmod 10 < 5 then
    buzzerOn
    entryLedSet isEntry
    exitLedSet (!isEntry)
  else
    buzzerOff
    entryLedSet false
    exitLedSet false

def signalIdle : GateProg Unit := do
  perform (.store .buzzerPhase 9)
  buzzerOff
  entryLedSet false
  exitLedSet false

def signal : GateProg Unit := do
  let state ← gateGetState
  if state ≠ .idle then signalActive state else signalIdle

/-- The button is polled here: the interrupt handler only sets a flag. -/
def pollSwitch : GateProg Unit := do
  if ← switchWasPressed then
    onSwitchPress

/-- One turn of the loop of `state_machine_thread_fn`. -/
def stateMachineTurn : GateProg Unit := do
  pollSwitch
  let state ← gateGetState
  let distanceCm ← ultrasonicMeasureCm
  let now ← ktimeGetSeconds
  dispatch state distanceCm now
  signal

/-! ## The device file -/

def stateString : SystemState → String
  | .idle => "IDLE"
  | .entryDetected => "ENTRY_DETECTED"
  | .entryWaiting => "ENTRY_WAITING"
  | .exitRequested => "EXIT_REQUESTED"
  | .exitVehicleDetected => "EXIT_VEHICLE_DETECTED"
  | .exitVehicleWaiting => "EXIT_VEHICLE_WAITING"

inductive ReadError
  | einval
  | efault
  deriving DecidableEq, Repr

/-- `gate_device_read` with `current_state` as it is at the moment of the call; `copied` says
whether `copy_to_user` succeeds. -/
def gateDeviceRead (state : SystemState) (len off : ℕ) (copied : Bool) :
    Except ReadError String :=
  if 0 < off then .ok ""
  else if len < (stateString state).length then .error .einval
  else if copied then .ok (stateString state)
  else .error .efault

/-- What the bridge's 63 bytes hold. -/
theorem gateDeviceRead_bridge (state : SystemState) :
    gateDeviceRead state 63 0 true = .ok (stateString state) := by
  cases state <;> rfl

theorem stateString_injective : Function.Injective stateString := by
  intro s s' h
  cases s <;> cases s' <;> first | rfl | simp [stateString] at h

theorem gateDeviceRead_ok {state : SystemState} {len : ℕ} {copied : Bool} {out : String}
    (h : gateDeviceRead state len 0 copied = .ok out) : stateString state = out := by
  unfold gateDeviceRead at h
  split at h
  · omega
  · split at h
    · cases h
    · split at h
      · exact Except.ok.inj h
      · cases h

/-! ## The machine -/

/-- What happens to the module from outside. -/
inductive GateEvent
  /-- an edge of the exit button that `switch_irq_handler` accepts -/
  | press
  /-- the bridge opens the device, reads 63 bytes from its start and is given `out` -/
  | poll (out : String)

def GateEvent.exec : GateEvent → GateState → Option GateState
  | .press, s => some { s with switchPressed := true }
  | .poll out, s =>
    match gateDeviceRead s.currentState 63 0 true with
    | .ok str => if str = out then some s else none
    | .error _ => none

/-- A press sets the flag; a poll changes nothing and is given the name of the current state. -/
theorem GateEvent.exec_cases {e : GateEvent} {s x : GateState} (h : e.exec s = some x) :
    (e = .press ∧ x = { s with switchPressed := true })
      ∨ (e = .poll (stateString s.currentState) ∧ x = s) := by
  cases e with
  | press => exact .inl ⟨rfl, (Option.some.inj h).symm⟩
  | poll out =>
    right
    rw [exec, gateDeviceRead_bridge] at h
    obtain ⟨rfl, hx⟩ : stateString s.currentState = out ∧ s = x := by simpa using h
    exact ⟨rfl, hx.symm⟩

/-- The gate module between one load and the next unload. -/
def gateMachine : Machine Unit Unit GateOp.Resp GateEvent GateState where
  entry _ _ s := some (stateMachineTurn, s)
  exec := GateOp.exec
  ext := GateEvent.exec

abbrev GateLabel := Label Unit Unit GateOp.Resp GateEvent

abbrev GateSnap := Snap Unit Unit GateOp.Resp GateEvent GateState

abbrev GateConfig := Config Unit Unit GateOp.Resp GateEvent GateState

/-- Reachable within one load of the module, the gate closed at load. -/
def GateReachable (c : GateConfig) : Prop := gateMachine.Steps (.init .init) c

/-- The thread is at the top of its loop. -/
def AtLoopTop (c : GateConfig) : Prop := c.thread () = none

/-! ## What a trace shows -/

/-- The distance that `ultrasonic_measure_cm` returns at this label. -/
def readingOf : GateLabel → Option ℤ
  | .op _ .ping e => some (ultrasonicDistance e)
  | _ => none

/-- The answer of `ktime_get_seconds` at this label. -/
def clockOf : GateLabel → Option ℤ
  | .op _ .ktime now => some now
  | _ => none

/-- All measured distances, in order. -/
def readings (tr : List GateLabel) : List ℤ := tr.filterMap readingOf

/-- All clock readings, in order. -/
def clocks (tr : List GateLabel) : List ℤ := tr.filterMap clockOf

@[simp] theorem readings_append (tr tr' : List GateLabel) :
    readings (tr ++ tr') = readings tr ++ readings tr' :=
  List.filterMap_append

@[simp] theorem clocks_append (tr tr' : List GateLabel) :
    clocks (tr ++ tr') = clocks tr ++ clocks tr' :=
  List.filterMap_append

end ParkingService
