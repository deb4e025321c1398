import Mathlib.Data.Fin.Basic
import Mathlib.Data.Int.Notation
import Mathlib.Logic.Function.Basic
import ParkingService.Concurrency.Outline
import ParkingService.Concurrency.Trace

/-!
# The slot driver

The kernel module `rpi1_parking.c`: two slots, each with an ultrasonic sensor, a locking bar and a
button. What runs at the same time is the single-threaded work queue, which executes the two kinds
of work items one after the other, the measuring timer, the two button interrupts and the two echo
interrupts. An echo interrupt holds the sensor's spinlock for all it does, so it is one event of the
environment; the others are programs over atomic operations, one for each critical section, each
atomic access and each access to a variable without a lock.

The bar is part of the state: `position` counts motor steps along `lock_dir` and is `0` when the bar
is unlocked.

`ktime_t` values are nanoseconds since boot, as integers: the difference of two of them fits the 64
bits. C's truncating `/` and `%` are `Int.tdiv` and `Int.tmod`.
-/

namespace ParkingService.Slots

open Concurrency

/-! ## Configuration -/

/-- An index below `NUM_SPACES`. -/
abbrev Slot := Fin 2

def occupiedThresholdCm : ℤ := 5

def lockSteps : ℕ := 341

def lockTimeoutMs : ℤ := 10000

def debounceMs : ℤ := 300

def unoccupiedReleaseCount : ℕ := 6

/-- `lock_dir`, as `parking_init` sets it. -/
def lockDir (i : Slot) : ℤ := if i = 0 then -1 else 1

def ktimeToUs (t : ℤ) : ℤ := t.tdiv 1000

def ktimeToMs (t : ℤ) : ℤ := t.tdiv 1000000

/-! ## Data -/

inductive EchoState
  | idle
  | waitHigh
  | waitLow
  | done
  deriving DecidableEq, Repr

inductive LockState
  | free
  | timing
  | locking
  | locked
  | unlocking
  | waitEmpty
  deriving DecidableEq, Repr

/-- The work items: `work` and `lock_work` of each slot. -/
inductive Work
  | sensor (i : Slot)
  | lock (i : Slot)
  deriving DecidableEq

/-- The levels of the four motor pins. -/
abbrev Coils := List ℤ

def stepperSeq : List Coils :=
  [[1, 0, 0, 0], [1, 1, 0, 0], [0, 1, 0, 0], [0, 1, 1, 0],
    [0, 0, 1, 0], [0, 0, 1, 1], [0, 0, 0, 1], [1, 0, 0, 1]]

/-- `struct sensor_dev`, with the levels of its output pins and the position of its bar. -/
structure SensorDev where
  state : EchoState
  echoStart : ℤ
  echoStop : ℤ
  occupied : ℤ
  distanceCm : ℤ
  led : ℤ
  lockSt : LockState
  occupyStart : ℤ
  motorStep : ℤ
  motorPins : Coils
  lockPending : Bool
  lastBtnTime : ℤ
  consecutiveUnoccupied : ℤ
  position : ℤ

/-- As `parking_init` leaves it, the bar unlocked. -/
def SensorDev.init : SensorDev where
  state := .idle
  echoStart := 0
  echoStop := 0
  occupied := 0
  distanceCm := 999
  led := 0
  lockSt := .free
  occupyStart := 0
  motorStep := 0
  motorPins := [0, 0, 0, 0]
  lockPending := false
  lastBtnTime := 0
  consecutiveUnoccupied := 0
  position := 0

/-- The driver: the slots, the flag for readers, and the pending work items in order. -/
structure Driver where
  sensor : Slot → SensorDev
  statusChanged : Bool
  queue : List Work

namespace Driver

def init : Driver := ⟨fun _ ↦ .init, false, []⟩

/-- Change one slot. -/
def modify (s : Driver) (i : Slot) (f : SensorDev → SensorDev) : Driver :=
  { s with sensor := Function.update s.sensor i (f (s.sensor i)) }

/-- `queue_work`: a work item that is pending already is not queued again. -/
def queueWork (s : Driver) (w : Work) : Driver :=
  if w ∈ s.queue then s else { s with queue := s.queue ++ [w] }

variable (s : Driver) (i j : Slot) (f : SensorDev → SensorDev) (w : Work)

@[simp] theorem modify_sensor_self : (s.modify i f).sensor i = f (s.sensor i) :=
  Function.update_self ..

@[simp] theorem modify_queue : (s.modify i f).queue = s.queue := rfl

theorem modify_sensor_of_ne {i j : Slot} (h : j ≠ i) :
    (s.modify i f).sensor j = s.sensor j :=
  Function.update_of_ne h _ _

/-- What a change leaves alone at its own slot, it leaves alone everywhere. -/
theorem modify_sensor_congr {β : Type} (g : SensorDev → β) (h : ∀ d, g (f d) = g d) :
    g ((s.modify i f).sensor j) = g (s.sensor j) := by
  by_cases hji : j = i
  · rw [hji, modify_sensor_self, h]
  · rw [modify_sensor_of_ne s f hji]

@[simp] theorem queueWork_sensor : (s.queueWork w).sensor = s.sensor := by
  unfold queueWork
  split <;> rfl

/-- However often it is queued, a work item is pending once. -/
theorem count_queueWork_self : (s.queueWork w).queue.count w = max (s.queue.count w) 1 := by
  unfold queueWork
  split
  · rename_i hmem
    exact (max_eq_left (List.count_pos_iff.mpr hmem)).symm
  · rename_i hmem
    rw [List.count_append, List.count_eq_zero.mpr hmem]
    simp

theorem count_queueWork_of_ne {w w' : Work} (h : w' ≠ w) :
    (s.queueWork w).queue.count w' = s.queue.count w' := by
  unfold queueWork
  split
  · rfl
  · rw [List.count_append, List.count_singleton, if_neg (by simpa using h.symm), Nat.add_zero]

/-- What the queue loses when its first work item is taken. -/
theorem count_eq_tail {q : List Work} {w : Work} (h : q.head? = some w) (w' : Work) :
    q.count w' = q.tail.count w' + if w = w' then 1 else 0 := by
  cases q with
  | nil => cases h
  | cons w₀ q =>
    obtain rfl : w₀ = w := Option.some.inj h
    simp [List.count_cons]

end Driver

/-! ## What a reader is told -/

/-- `struct parking_status`, and what a record says. -/
@[ext] structure ParkingStatus where
  occupied : Slot → ℤ
  distanceCm : Slot → ℤ

/-- A value of a record. -/
inductive StatusField
  | occupied (i : Slot)
  | distance (i : Slot)
  deriving DecidableEq

namespace ParkingStatus

/-- What `parking_init` sets. -/
def init : ParkingStatus := ⟨fun _ ↦ 0, fun _ ↦ 999⟩

def set (st : ParkingStatus) (x : ℤ) : StatusField → ParkingStatus
  | .occupied i => { st with occupied := Function.update st.occupied i x }
  | .distance i => { st with distanceCm := Function.update st.distanceCm i x }

/-- The four values, as the daemon calls them. -/
def s1 (st : ParkingStatus) : ℤ := st.occupied 0

def s2 (st : ParkingStatus) : ℤ := st.occupied 1

def d1 (st : ParkingStatus) : ℤ := st.distanceCm 0

def d2 (st : ParkingStatus) : ℤ := st.distanceCm 1

/-- The record, as `snprintf` puts it together. -/
def record (st : ParkingStatus) : String :=
  "Slot1:" ++ toString st.s1 ++ " Slot2:" ++ toString st.s2
    ++ "\nDistance1:" ++ toString st.d1 ++ " Distance2:" ++ toString st.d2 ++ "\n"

end ParkingStatus

/-- The `atomic_t` that a value is read from. -/
def Driver.field (s : Driver) : StatusField → ℤ
  | .occupied i => (s.sensor i).occupied
  | .distance i => (s.sensor i).distanceCm

/-! ## Operations -/

/-- The variables of a slot that are accessed without a lock and read with their value. -/
inductive SlotVar
  | occupyStart
  | consecutiveUnoccupied
  | lastBtnTime
  deriving DecidableEq

def SensorDev.get (d : SensorDev) : SlotVar → ℤ
  | .occupyStart => d.occupyStart
  | .consecutiveUnoccupied => d.consecutiveUnoccupied
  | .lastBtnTime => d.lastBtnTime

def SensorDev.set (d : SensorDev) (x : ℤ) : SlotVar → SensorDev
  | .occupyStart => { d with occupyStart := x }
  | .consecutiveUnoccupied => { d with consecutiveUnoccupied := x }
  | .lastBtnTime => { d with lastBtnTime := x }

/-- What the driver writes to the kernel log. -/
inductive LogLine
  | spaceChanged (occupied cm : ℤ)
  | slotLocked
  | slotUnlocked

/-- The atomic operations of the driver's threads. -/
inductive SlotOp
  /-- the critical section of `measure_timer_cb`: whether a measurement is requested -/
  | request (i : Slot)
  | fireTrigger (i : Slot)
  /-- the critical section of `sensor_work_func`: `echo_start` and `echo_stop`, state to idle -/
  | takeEcho (i : Slot)
  | readOccupied (i : Slot)
  | setOccupied (i : Slot) (x : ℤ)
  | setDistance (i : Slot) (x : ℤ)
  | setLed (i : Slot) (x : ℤ)
  /-- `status_changed` is set and the readers are woken up -/
  | notify
  | ktime
  | load (i : Slot) (v : SlotVar)
  | store (i : Slot) (v : SlotVar) (x : ℤ)
  | readLockSt (i : Slot)
  | setLockSt (i : Slot) (st : LockState)
  | readLockPending (i : Slot)
  | setLockPending (i : Slot) (b : Bool)
  | queueWork (w : Work)
  | stepperStep (i : Slot) (dir : ℤ)
  | deenergize (i : Slot)
  | printk (line : LogLine)

/-- What an operation returns. -/
abbrev SlotOp.Resp : SlotOp → Type
  | .request _ => Bool
  | .takeEcho _ => ℤ × ℤ
  | .readOccupied _ => ℤ
  | .ktime => ℤ
  | .load _ _ => ℤ
  | .readLockSt _ => LockState
  | .readLockPending _ => Bool
  | .queueWork _ => Bool
  | _ => Unit

/-- The body of `stepper_step`. -/
def SensorDev.stepperStep (d : SensorDev) (lockDir dir : ℤ) : SensorDev :=
  let step := (d.motorStep + dir + 8).tmod 8
  { d with motorStep := step, motorPins := stepperSeq.getD step.toNat [],
           position := d.position + dir * lockDir }

/-- The answers an operation can get. The clock may return anything; what the other operations
return is determined by the state. -/
def SlotOp.Answers : (o : SlotOp) → o.Resp → Driver → Prop
  | .request i, r, s => r = decide ((s.sensor i).state = .idle)
  | .takeEcho i, r, s => r = ((s.sensor i).echoStart, (s.sensor i).echoStop)
  | .readOccupied i, r, s => r = (s.sensor i).occupied
  | .load i v, r, s => r = (s.sensor i).get v
  | .readLockSt i, r, s => r = (s.sensor i).lockSt
  | .readLockPending i, r, s => r = (s.sensor i).lockPending
  | .queueWork w, r, s => r = decide (w ∉ s.queue)
  | _, _, _ => True

instance : ∀ (o : SlotOp) (r : o.Resp) (s : Driver), Decidable (o.Answers r s)
  | .request i, r, s => inferInstanceAs (Decidable (r = decide ((s.sensor i).state = .idle)))
  | .takeEcho i, r, s =>
    inferInstanceAs (Decidable (r = ((s.sensor i).echoStart, (s.sensor i).echoStop)))
  | .readOccupied i, r, s => inferInstanceAs (Decidable (r = (s.sensor i).occupied))
  | .load i v, r, s => inferInstanceAs (Decidable (r = (s.sensor i).get v))
  | .readLockSt i, r, s => inferInstanceAs (Decidable (r = (s.sensor i).lockSt))
  | .readLockPending i, r, s => inferInstanceAs (Decidable (r = (s.sensor i).lockPending))
  | .queueWork w, r, s => inferInstanceAs (Decidable (r = decide (w ∉ s.queue)))
  | .fireTrigger _, _, _ | .setOccupied _ _, _, _ | .setDistance _ _, _, _ | .setLed _ _, _, _
  | .notify, _, _ | .ktime, _, _ | .store _ _ _, _, _ | .setLockSt _ _, _, _
  | .setLockPending _ _, _, _ | .stepperStep _ _, _, _ | .deenergize _, _, _
  | .printk _, _, _ => inferInstanceAs (Decidable True)

/-- What an operation does to the state. -/
def SlotOp.effect : SlotOp → Driver → Driver
  | .request i, s => s.modify i fun d ↦ if d.state = .idle then { d with state := .waitHigh } else d
  | .takeEcho i, s => s.modify i fun d ↦ { d with state := .idle }
  | .setOccupied i x, s => s.modify i fun d ↦ { d with occupied := x }
  | .setDistance i x, s => s.modify i fun d ↦ { d with distanceCm := x }
  | .setLed i x, s => s.modify i fun d ↦ { d with led := x }
  | .notify, s => { s with statusChanged := true }
  | .store i v x, s => s.modify i fun d ↦ d.set x v
  | .setLockSt i st, s => s.modify i fun d ↦ { d with lockSt := st }
  | .setLockPending i b, s => s.modify i fun d ↦ { d with lockPending := b }
  | .queueWork w, s => s.queueWork w
  | .stepperStep i dir, s => s.modify i fun d ↦ d.stepperStep (lockDir i) dir
  | .deenergize i, s => s.modify i fun d ↦ { d with motorPins := [0, 0, 0, 0] }
  | _, s => s

def SlotOp.exec (o : SlotOp) (r : o.Resp) (s : Driver) : Option Driver :=
  if o.Answers r s then some (o.effect s) else none

theorem SlotOp.exec_eq_some {o : SlotOp} {r : o.Resp} {s x : Driver} :
    o.exec r s = some x ↔ o.Answers r s ∧ o.effect s = x := by
  simp [exec]

/-- Programs of the driver's threads. -/
abbrev SlotProg := Prog SlotOp.Resp

/-- Perform one operation. -/
def perform (o : SlotOp) : SlotProg o.Resp := .call o

/-! ## `rpi1_parking.c` -/

/-- The body of the loop of `measure_timer_cb`. -/
def measureSlot (i : Slot) : SlotProg Unit := do
  if ← perform (.request i) then
    perform (.fireTrigger i)

def measureTimerCb : SlotProg Unit := do
  measureSlot 0
  measureSlot 1

/-- Whether `sensor_work_func` uses a measurement of this length. -/
def ValidEcho (timeUs : ℤ) : Prop := ¬(timeUs ≤ 0 ∨ 23200 < timeUs)

instance (timeUs : ℤ) : Decidable (ValidEcho timeUs) := inferInstanceAs (Decidable (¬_))

def echoCm (timeUs : ℤ) : ℤ := timeUs.tdiv 58

/-- `occupied`, as an `int`. -/
def occupiedOf (cm : ℤ) : ℤ := if cm ≤ occupiedThresholdCm then 1 else 0

/-- The middle part of `sensor_work_func`: publish the result of a measurement. -/
def updateStatus (i : Slot) (cm : ℤ) : SlotProg Unit := do
  let prevOccupied ← perform (.readOccupied i)
  perform (.setDistance i cm)
  perform (.setOccupied i (occupiedOf cm))
  perform (.setLed i (occupiedOf cm))
  if prevOccupied ≠ occupiedOf cm then
    perform .notify
    perform (.printk (.spaceChanged (occupiedOf cm) cm))

/-- `case LOCK_FREE` -/
def whenFree (i : Slot) (occupied : ℤ) : SlotProg Unit := do
  if occupied ≠ 0 then
    let now ← perform .ktime
    perform (.store i .occupyStart now)
    perform (.store i .consecutiveUnoccupied 0)
    perform (.setLockSt i .timing)

/-- `case LOCK_TIMING` -/
def whenTiming (i : Slot) (occupied : ℤ) : SlotProg Unit := do
  if occupied = 0 then
    let n ← perform (.load i .consecutiveUnoccupied)
    perform (.store i .consecutiveUnoccupied (n + 1))
    if unoccupiedReleaseCount ≤ n + 1 then
      perform (.setLockSt i .free)
  else
    let now ← perform .ktime
    let start ← perform (.load i .occupyStart)
    perform (.store i .consecutiveUnoccupied 0)
    if lockTimeoutMs ≤ ktimeToMs (now - start) then
      perform (.setLockSt i .locking)
      perform (.setLockPending i true)
      let _ ← perform (.queueWork (.lock i))

/-- `case LOCK_WAIT_EMPTY` -/
def whenWaitEmpty (i : Slot) (occupied : ℤ) : SlotProg Unit := do
  if occupied = 0 then
    perform (.setLockSt i .free)

/-- The last part of `sensor_work_func`: the lock state machine. -/
def lockMachine (i : Slot) (occupied : ℤ) : SlotProg Unit := do
  match ← perform (.readLockSt i) with
  | .free => whenFree i occupied
  | .timing => whenTiming i occupied
  | .waitEmpty => whenWaitEmpty i occupied
  | _ => return

def sensorWorkFunc (i : Slot) : SlotProg Unit := do
  let (start, stop) ← perform (.takeEcho i)
  if ValidEcho (ktimeToUs (stop - start)) then
    let cm := echoCm (ktimeToUs (stop - start))
    updateStatus i cm
    lockMachine i (occupiedOf cm)

def lockWorkFunc (i : Slot) : SlotProg Unit := do
  let doLock ← perform (.readLockPending i)
  .times lockSteps (perform (.stepperStep i (if doLock then lockDir i else -lockDir i)))
  perform (.deenergize i)
  if doLock then
    perform (.setLockSt i .locked)
    perform (.printk .slotLocked)
  else
    perform (.setLockSt i .waitEmpty)
    perform (.printk .slotUnlocked)

def btnIsr (i : Slot) : SlotProg Unit := do
  let now ← perform .ktime
  let last ← perform (.load i .lastBtnTime)
  if ktimeToMs (now - last) < debounceMs then
    return
  else
    perform (.store i .lastBtnTime now)
    if (← perform (.readLockSt i)) = .locked then
      perform (.setLockSt i .unlocking)
      perform (.setLockPending i false)
      let _ ← perform (.queueWork (.lock i))

/-! ## Which operations a routine performs -/

/-- Operations that publish the result of a measurement. -/
def SlotOp.Publishes : SlotOp → Prop
  | .readOccupied _ | .setDistance _ _ | .setOccupied _ _ | .setLed _ _ | .notify | .printk _ =>
    True
  | _ => False

/-- Operations of the lock state machine, which looks at the clock and changes the lock state of a
slot. -/
def SlotOp.Decides (i : Slot) : SlotOp → Prop
  | .ktime => True
  | .load j _ | .store j _ _ | .readLockSt j | .setLockSt j _ | .setLockPending j _ => j = i
  | .queueWork w => w = .lock i
  | _ => False

/-- Operations of the button, which may ask for the slot to be unlocked. -/
def SlotOp.Releases (i : Slot) : SlotOp → Prop
  | .ktime => True
  | .load j _ | .readLockSt j | .setLockPending j _ => j = i
  | .store j v _ => j = i ∧ v = .lastBtnTime
  | .setLockSt j st => j = i ∧ st = .unlocking
  | .queueWork w => w = .lock i
  | _ => False

/-- Operations that turn the bar of a slot. -/
def SlotOp.Turns (i : Slot) : SlotOp → Prop
  | .readLockPending j | .stepperStep j _ | .deenergize j => j = i
  | .setLockSt j st => j = i ∧ (st = .locked ∨ st = .waitEmpty)
  | .printk _ => True
  | _ => False

/-- Operations that start a measurement. -/
def SlotOp.Measures : SlotOp → Prop
  | .request _ | .fireTrigger _ => True
  | _ => False

theorem updateStatus_uses (i : Slot) (cm : ℤ) : (updateStatus i cm).Uses SlotOp.Publishes := by
  refine ⟨trivial, fun prevOccupied ↦ ⟨trivial, fun _ ↦ ⟨trivial, fun _ ↦ ⟨trivial, fun _ ↦ ?_⟩⟩⟩⟩
  change Prog.Uses _ (ite _ _ _)
  exact Prog.uses_ite (fun _ ↦ ⟨trivial, fun _ ↦ ⟨trivial, fun _ ↦ trivial⟩⟩) fun _ ↦ trivial

theorem whenFree_uses (i : Slot) (occupied : ℤ) : (whenFree i occupied).Uses (SlotOp.Decides i) :=
  Prog.uses_ite (fun _ ↦ ⟨trivial, fun _ ↦ ⟨rfl, fun _ ↦ ⟨rfl, fun _ ↦ ⟨rfl, fun _ ↦ trivial⟩⟩⟩⟩)
    fun _ ↦ trivial

theorem whenTiming_uses (i : Slot) (occupied : ℤ) :
    (whenTiming i occupied).Uses (SlotOp.Decides i) := by
  refine Prog.uses_ite (fun _ ↦ ⟨rfl, fun n ↦ ⟨rfl, fun _ ↦ ?_⟩⟩) fun _ ↦
    ⟨trivial, fun now ↦ ⟨rfl, fun start ↦ ⟨rfl, fun _ ↦ ?_⟩⟩⟩
  · change Prog.Uses _ (ite _ _ _)
    exact Prog.uses_ite (fun _ ↦ ⟨rfl, fun _ ↦ trivial⟩) fun _ ↦ trivial
  · change Prog.Uses _ (ite _ _ _)
    exact Prog.uses_ite (fun _ ↦ ⟨rfl, fun _ ↦ ⟨rfl, fun _ ↦ ⟨rfl, fun _ ↦ trivial⟩⟩⟩)
      fun _ ↦ trivial

theorem lockMachine_uses (i : Slot) (occupied : ℤ) :
    (lockMachine i occupied).Uses (SlotOp.Decides i) := by
  refine ⟨rfl, fun st ↦ ?_⟩
  cases st with
  | free => exact whenFree_uses i occupied
  | timing => exact whenTiming_uses i occupied
  | waitEmpty => exact Prog.uses_ite (fun _ ↦ ⟨rfl, fun _ ↦ trivial⟩) fun _ ↦ trivial
  | _ => trivial

theorem lockWorkFunc_uses (i : Slot) : (lockWorkFunc i).Uses (SlotOp.Turns i) := by
  have hstep (dir : ℤ) : (perform (.stepperStep i dir)).Uses (SlotOp.Turns i) :=
    ⟨rfl, fun _ ↦ trivial⟩
  refine Prog.uses_bind (Prog.uses_call.mpr rfl) fun doLock ↦ ?_
  refine Prog.uses_bind (Prog.uses_times (hstep _) _) fun _ ↦ ?_
  refine Prog.uses_bind (Prog.uses_call.mpr rfl) fun _ ↦ Prog.uses_ite (fun _ ↦ ?_) fun _ ↦ ?_
  · exact Prog.uses_bind (Prog.uses_call.mpr ⟨rfl, .inl rfl⟩) fun _ ↦ Prog.uses_call.mpr trivial
  · exact Prog.uses_bind (Prog.uses_call.mpr ⟨rfl, .inr rfl⟩) fun _ ↦ Prog.uses_call.mpr trivial

theorem btnIsr_uses (i : Slot) : (btnIsr i).Uses (SlotOp.Releases i) := by
  refine ⟨trivial, fun now ↦ ⟨rfl, fun last ↦ ?_⟩⟩
  change Prog.Uses _ (ite _ _ _)
  refine Prog.uses_ite (fun _ ↦ trivial) fun _ ↦ ⟨⟨rfl, rfl⟩, fun _ ↦ ⟨rfl, fun st ↦ ?_⟩⟩
  change Prog.Uses _ (ite _ _ _)
  exact Prog.uses_ite (fun _ ↦ ⟨⟨rfl, rfl⟩, fun _ ↦ ⟨rfl, fun _ ↦ ⟨rfl, fun _ ↦ trivial⟩⟩⟩)
    fun _ ↦ trivial

theorem measureTimerCb_uses : measureTimerCb.Uses SlotOp.Measures := by
  have hslot (i : Slot) : (measureSlot i).Uses SlotOp.Measures := by
    refine ⟨trivial, fun b ↦ ?_⟩
    change Prog.Uses _ (ite _ _ _)
    exact Prog.uses_ite (fun _ ↦ ⟨trivial, fun _ ↦ trivial⟩) fun _ ↦ trivial
  exact Prog.uses_bind (hslot 0) fun _ ↦ hslot 1

/-! ## The machine -/

/-- What runs at the same time. Neither the timer nor a button interrupt interrupts itself. -/
inductive Thread
  | worker
  | timer
  | button (i : Slot)
  deriving DecidableEq

/-- What a thread may take up. -/
inductive Job
  | work (w : Work)
  | tick
  | press
  deriving DecidableEq

/-- An edge on the echo pin: the clock and the level of the pin as `echo_isr` reads them. -/
inductive SlotEvent
  | echoIsr (i : Slot) (now pinVal : ℤ)
  deriving DecidableEq

/-- The critical section of `echo_isr`. -/
def SlotEvent.exec : SlotEvent → Driver → Driver
  | .echoIsr i now pinVal, s =>
    match (s.sensor i).state with
    | .waitHigh =>
      if pinVal = 1 then s.modify i fun d ↦ { d with echoStart := now, state := .waitLow } else s
    | .waitLow =>
      if pinVal = 0 then
        (s.modify i fun d ↦ { d with echoStop := now, state := .done }).queueWork (.sensor i)
      else s
    | _ => s

/-- What an echo interrupt can do: record the start, record the stop and queue the work item, or
nothing. -/
theorem SlotEvent.exec_cases (i : Slot) (now pinVal : ℤ) (s : Driver) :
    ((s.sensor i).state = .waitHigh ∧ pinVal = 1 ∧ (SlotEvent.echoIsr i now pinVal).exec s
        = s.modify i fun d ↦ { d with echoStart := now, state := .waitLow })
      ∨ ((s.sensor i).state = .waitLow ∧ pinVal = 0 ∧ (SlotEvent.echoIsr i now pinVal).exec s
        = (s.modify i fun d ↦ { d with echoStop := now, state := .done }).queueWork (.sensor i))
      ∨ (((s.sensor i).state = .waitHigh → pinVal ≠ 1)
          ∧ ((s.sensor i).state = .waitLow → pinVal ≠ 0)
        ∧ (SlotEvent.echoIsr i now pinVal).exec s = s) := by
  cases hstate : (s.sensor i).state with
  | waitHigh => by_cases hpin : pinVal = 1 <;> simp [exec, hstate, hpin]
  | waitLow => by_cases hpin : pinVal = 0 <;> simp [exec, hstate, hpin]
  | idle | done => simp [exec, hstate]

def Work.func : Work → SlotProg Unit
  | .sensor i => sensorWorkFunc i
  | .lock i => lockWorkFunc i

/-- The work queue runs the item that has been pending for longest, and from then on it is pending
no more. -/
def slotEntry : Thread → Job → Driver → Option (SlotProg Unit × Driver)
  | .worker, .work w, s =>
    if s.queue.head? = some w then some (w.func, { s with queue := s.queue.tail }) else none
  | .timer, .tick, s => some (measureTimerCb, s)
  | .button i, .press, s => some (btnIsr i, s)
  | _, _, _ => none

/-- What the threads of the driver take up. -/
theorem slotEntry_cases {t : Thread} {j : Job} {s x : Driver} {p : SlotProg Unit}
    (h : slotEntry t j s = some (p, x)) :
    (∃ w, t = .worker ∧ j = .work w ∧ p = w.func ∧ s.queue.head? = some w
        ∧ x = { s with queue := s.queue.tail })
      ∨ (t = .timer ∧ j = .tick ∧ p = measureTimerCb ∧ x = s)
      ∨ ∃ k, t = .button k ∧ j = .press ∧ p = btnIsr k ∧ x = s := by
  cases t with
  | worker =>
    cases j with
    | work w =>
      obtain ⟨hhead, hp⟩ := Option.ite_none_right_eq_some.mp h
      obtain ⟨rfl, rfl⟩ := Prod.mk.inj (Option.some.inj hp)
      exact .inl ⟨w, rfl, rfl, rfl, hhead, rfl⟩
    | tick | press => cases h
  | timer =>
    cases j with
    | tick =>
      obtain ⟨rfl, rfl⟩ := Prod.mk.inj (Option.some.inj h)
      exact .inr (.inl ⟨rfl, rfl, rfl, rfl⟩)
    | work | press => cases h
  | button k =>
    cases j with
    | press =>
      obtain ⟨rfl, rfl⟩ := Prod.mk.inj (Option.some.inj h)
      exact .inr (.inr ⟨k, rfl, rfl, rfl, rfl⟩)
    | work | tick => cases h

/-- The driver between one load and the next unload. -/
def slotMachine : Machine Thread Job SlotOp.Resp SlotEvent Driver where
  entry := slotEntry
  exec := SlotOp.exec
  ext e s := some (e.exec s)

/-- Taking up a job changes no slot. -/
theorem sensor_of_start {t : Thread} {j : Job} {s x : Driver}
    (h : slotMachine.Emits s (.start t j) x) : x.sensor = s.sensor := by
  obtain ⟨p, hentry⟩ := h
  obtain ⟨w, -, -, -, -, rfl⟩ | ⟨-, -, -, rfl⟩ | ⟨k, -, -, -, rfl⟩ := slotEntry_cases hentry <;> rfl

theorem emits_op {t : Thread} {o : SlotOp} {r : o.Resp} {s x : Driver} :
    slotMachine.Emits s (.op t o r) x ↔ o.Answers r s ∧ o.effect s = x :=
  SlotOp.exec_eq_some

abbrev SlotLabel := Label Thread Job SlotOp.Resp SlotEvent

abbrev SlotSnap := Snap Thread Job SlotOp.Resp SlotEvent Driver

abbrev SlotConfig := Config Thread Job SlotOp.Resp SlotEvent Driver

/-- Reachable within one load of the driver, the bars unlocked at load. -/
def SlotReachable (c : SlotConfig) : Prop := slotMachine.Steps (.init .init) c

/-! ## One thread alone -/

/-- What a program of the driver may end in when nothing interrupts it. -/
abbrev SlotMay (t : Thread) {α : Type} (p : SlotProg α) (Q : α → SlotSnap → Prop)
    (s : SlotSnap) : Prop :=
  slotMachine.May t p Q s

variable {t : Thread} {s : SlotSnap}

theorem SlotMay.perform {o : SlotOp} (r : o.Resp) {Q : o.Resp → SlotSnap → Prop}
    (hr : o.Answers r s.state) (hQ : Q r (s.log (o.effect s.state) (.op t o r))) :
    SlotMay t (perform o) Q s :=
  .call r (SlotOp.exec_eq_some.mpr ⟨hr, rfl⟩) hQ

/-- What a program of the driver can only end in when nothing interrupts it. -/
abbrev SlotMust (t : Thread) {α : Type} (p : SlotProg α) (Q : α → SlotSnap → Prop)
    (s : SlotSnap) : Prop :=
  slotMachine.Must t p Q s

theorem SlotMust.perform {o : SlotOp} {Q : o.Resp → SlotSnap → Prop}
    (h : ∀ r, o.Answers r s.state → Q r (s.log (o.effect s.state) (.op t o r))) :
    SlotMust t (perform o) Q s := by
  refine .call fun r x hx ↦ ?_
  obtain ⟨hr, rfl⟩ := SlotOp.exec_eq_some.mp hx
  exact h r hr

/-- The timer fires the trigger of an idle sensor and passes over any other. -/
theorem measureSlot_may (i : Slot) {Q : Unit → SlotSnap → Prop}
    (hfire : (s.state.sensor i).state = .idle →
      Q () ((s.log ((SlotOp.request i).effect s.state) (.op .timer (.request i) true)).log
        ((SlotOp.request i).effect s.state) (.op .timer (.fireTrigger i) ())))
    (hskip : (s.state.sensor i).state ≠ .idle →
      Q () (s.log ((SlotOp.request i).effect s.state) (.op .timer (.request i) false))) :
    SlotMay .timer (measureSlot i) Q s := by
  by_cases hidle : (s.state.sensor i).state = .idle
  · refine .bind (SlotMay.perform (o := .request i) true (decide_eq_true hidle).symm ?_)
    rw [if_pos rfl]
    exact SlotMay.perform () trivial (hfire hidle)
  · refine .bind (SlotMay.perform (o := .request i) false (decide_eq_false hidle).symm ?_)
    exact .ret (hskip hidle)

end ParkingService.Slots
