import ParkingService.Concurrency.Board
import ParkingService.Concurrency.Parallel
import ParkingService.Gate.Capacity
import ParkingService.Gate.Load
import ParkingService.Gate.StateMachine

/-!
# The full LED

`gate_node_init` makes the device writable before it sets up the pins, so commands may arrive while
the module is still loading. `set_capacity_full` keeps the flag and the LED together under
`state_mutex`; but `gate_hw_init` drives `FULL_LED_PIN` low without looking at the flag, and what a
command has shown before is gone, while the flag stays.

The threads are the loading one, the state machine once it has been started, and any number of
writers. Of the pins only the full LED is followed while the module loads; what it shows at first is
not known.
-/

namespace ParkingService.Node

open Concurrency Gate

/-! ## The module while it loads -/

def fullLedPin : ℕ := 25

structure NodeState where
  gate : GateState
  capacity : Capacity
  /-- `state_mutex` is held for more than one access -/
  locked : Bool
  /-- `gate_node_init` has been called -/
  begun : Bool
  /-- the device exists -/
  live : Bool
  /-- the interrupt of the button has been requested -/
  irq : Bool
  /-- the thread of the state machine exists -/
  started : Bool
  /-- `gate_node_init` has returned 0 -/
  loaded : Bool

/-- Before the module is loaded, the LED at some level. -/
def NodeState.init (level : ℤ) : NodeState :=
  ⟨.init, ⟨0, level⟩, false, false, false, false, false, false⟩

/-- What a call of the kernel does that succeeds. -/
def NodeState.called (s : NodeState) : GateCall → NodeState
  | .cdevAdd => { s with live := true }
  | .gpioDirectionOutput pin =>
    if pin = fullLedPin then { s with capacity := { s.capacity with fullLed := 0 } } else s
  | .requestIrq => { s with irq := true }
  | .kthreadRun => { s with started := true }
  | _ => s

/-- The operations of `gate_node_init` and `gate_device_write`. -/
inductive NodeOp
  /-- a call of the kernel: whether it succeeds -/
  | call (c : GateCall)
  | cdevDel
  /-- `gate_hw_cleanup`, for as far as it is followed here -/
  | hwCleanup
  | leaveInit (ok : Bool)
  /-- whether `copy_from_user` succeeds -/
  | copyFromUser
  /-- `mutex_lock(&state_mutex)` in `set_capacity_full(full)` -/
  | lockState (full : ℤ)
  | storeCapacity (full : ℤ)
  /-- `full_led_set`, under `hw_lock` -/
  | setFullLed (on : ℤ)
  | unlockState
  | leaveWrite (result : Except WriteError ℕ)

abbrev NodeOp.Resp : NodeOp → Type
  | .call _ | .copyFromUser => Bool
  | _ => Unit

def NodeOp.exec : (o : NodeOp) → o.Resp → NodeState → Option NodeState
  | .call c, ok, s => some (if ok then s.called c else s)
  | .cdevDel, _, s => some { s with live := false }
  | .hwCleanup, _, s =>
    some { s with irq := false, capacity := { s.capacity with fullLed := 0 } }
  | .leaveInit ok, _, s => some { s with loaded := ok }
  | .lockState _, _, s => if s.locked then none else some { s with locked := true }
  | .storeCapacity full, _, s =>
    some { s with capacity := { s.capacity with capacityFull := full } }
  | .setFullLed on, _, s => some { s with capacity := fullLedSet on s.capacity }
  | .unlockState, _, s => some { s with locked := false }
  | .copyFromUser, _, s | .leaveWrite _, _, s => some s

theorem NodeOp.exec_lockState (full : ℤ) {s x : NodeState}
    (h : (NodeOp.lockState full).exec () s = some x) :
    s.locked = false ∧ { s with locked := true } = x := by
  rw [exec] at h
  split at h
  · cases h
  · exact ⟨Bool.eq_false_iff.mpr ‹_›, Option.some.inj h⟩

abbrev NodeProg := Prog NodeOp.Resp

def nodePerform (o : NodeOp) : NodeProg o.Resp := .call o

/-! ## `gate_node_init` -/

/-- One call after the other, until one fails. -/
def callAll : List GateCall → NodeProg Bool
  | [] => return true
  | c :: cs => do
    if ← nodePerform (.call c) then callAll cs else return false

/-- The calls of `gate_hw_init` in their order. -/
def hwCalls : List GateCall :=
  allPins.map .gpioRequest ++ outPins.map .gpioDirectionOutput
    ++ [.gpioDirectionInput ultrasonicEchoPin, .gpioDirectionInput switchPin, .gpioToIrq,
      .requestIrq]

def gateHwInit : NodeProg Bool := callAll hwCalls

/-- What follows a failure once the device exists. -/
def giveUp : NodeProg Bool := do
  nodePerform .cdevDel
  return false

/-- `gate_node_init` from where the device can be written. -/
def finishInit : NodeProg Bool := do
  if ← callAll [.classCreate, .deviceCreate] then
    if ← gateHwInit then
      if ← nodePerform (.call .kthreadRun) then
        return true
      else
        nodePerform .hwCleanup
        giveUp
    else giveUp
  else giveUp

def gateNodeInit : NodeProg Bool := do
  if ← callAll [.allocChrdevRegion, .cdevAdd] then finishInit else return false

/-- `gate_node_init` and its return. -/
def load (init : NodeProg Bool) : NodeProg Unit := do
  nodePerform (.leaveInit (← init))

/-! ## `gate_device_write` -/

def setCapacityFull (full : ℤ) : NodeProg Unit := do
  nodePerform (.lockState full)
  nodePerform (.storeCapacity full)
  nodePerform (.setFullLed (if full ≠ 0 then 1 else 0))
  nodePerform .unlockState

def gateDeviceWrite (junk : ℤ → UInt8) (buf : List UInt8) : NodeProg (Except WriteError ℕ) := do
  if ← nodePerform .copyFromUser then
    match commandIn (localBuf junk buf) with
    | some command =>
      setCapacityFull command.level
      return .ok buf.length
    | none => return .ok buf.length
  else return .error .efault

/-- `gate_device_write` and its return. -/
def write (junk : ℤ → UInt8) (buf : List UInt8) : NodeProg Unit := do
  nodePerform (.leaveWrite (← gateDeviceWrite junk buf))

/-- What is done under the mutex is what a write does that nobody interrupts. -/
theorem setCapacityFull_alone (full : ℤ) (s : NodeState) :
    ((NodeOp.storeCapacity full).exec () s).bind
        ((NodeOp.setFullLed (if full ≠ 0 then 1 else 0)).exec ())
      = some { s with capacity := ParkingService.setCapacityFull full s.capacity } := rfl

/-! ## The machine -/

inductive NodeThread
  | loader
  | stateMachine
  | writer (w : ℕ)
  deriving DecidableEq

inductive NodeJob
  | load
  | turn
  | write (junk : ℤ → UInt8) (buf : List UInt8)

def nodeEntry : NodeThread → NodeJob → NodeState →
    Option (Prog (RespSum GateOp.Resp NodeOp.Resp) Unit × NodeState)
  | .loader, .load, s =>
    if s.begun then none
    else some ((load gateNodeInit).inr, { s with begun := true })
  | .stateMachine, .turn, s => if s.started then some (stateMachineTurn.inl, s) else none
  | .writer _, .write junk buf, s =>
    if s.live then
      some ((write junk buf).inr, s)
    else none
  | _, _, _ => none

/-- Operations of the state machine that take `state_mutex`. -/
def locksState : GateOp → Bool
  | .readState | .writeState _ => true
  | _ => false

def nodeExec : (o : GateOp ⊕ NodeOp) → RespSum GateOp.Resp NodeOp.Resp o → NodeState →
    Option NodeState
  | .inl o, r, s =>
    if locksState o && s.locked then none
    else (o.exec r s.gate).map fun g ↦ { s with gate := g }
  | .inr o, r, s => o.exec r s

/-- Presses come through the interrupt, and polls take the mutex. -/
def nodeEvent (e : GateEvent) (s : NodeState) : Option NodeState :=
  match e with
  | .press => if s.irq then (e.exec s.gate).map fun g ↦ { s with gate := g } else none
  | .poll _ =>
    if s.live && !s.locked then (e.exec s.gate).map fun g ↦ { s with gate := g } else none

def nodeMachine :
    Machine NodeThread NodeJob (RespSum GateOp.Resp NodeOp.Resp) GateEvent NodeState where
  entry := nodeEntry
  exec := nodeExec
  ext := nodeEvent

abbrev NodeLabel := Label NodeThread NodeJob (RespSum GateOp.Resp NodeOp.Resp) GateEvent

abbrev NodeSnap := Snap NodeThread NodeJob (RespSum GateOp.Resp NodeOp.Resp) GateEvent NodeState

abbrev NodeConfig := Config NodeThread NodeJob (RespSum GateOp.Resp NodeOp.Resp) GateEvent NodeState

/-- Reachable from before the load, whatever the LED shows then. -/
def NodeReachable (c : NodeConfig) : Prop := ∃ level, nodeMachine.Steps (.init (.init level)) c

/-! ## What has happened to the LED -/

/-- What a run does about the flag and the LED. -/
inductive LedAct
  | lock (full : ℤ)
  | store (full : ℤ)
  | set (on : ℤ)
  | unlock
  /-- the pin is driven low by the initialisation or the cleanup of the hardware -/
  | driveLow
  | leaveInit (ok : Bool)

/-- A call that succeeds in making the pin an output. -/
def ledCall? (c : GateCall) (ok : Bool) : Option LedAct :=
  if c = .gpioDirectionOutput fullLedPin ∧ ok = true then some .driveLow else none

def ledAct? : NodeLabel → Option LedAct
  | .op _ (.inr (.lockState full)) _ => some (.lock full)
  | .op _ (.inr (.storeCapacity full)) _ => some (.store full)
  | .op _ (.inr (.setFullLed on)) _ => some (.set on)
  | .op _ (.inr .unlockState) _ => some .unlock
  | .op _ (.inr (.call c)) ok => ledCall? c ok
  | .op _ (.inr .hwCleanup) _ => some .driveLow
  | .op _ (.inr (.leaveInit ok)) _ => some (.leaveInit ok)
  | _ => none

/-- What is remembered of a run. -/
structure LedHistory where
  /-- Who is inside the critical section of `set_capacity_full`. -/
  holder : Option NodeThread
  /-- The last command that was accepted, that is for which the mutex was taken. -/
  accepted : Option ℤ
  /-- The pin has been driven low. -/
  driven : Bool
  /-- The pin has been set for a command since it was driven low last. -/
  shown : Bool
  /-- Only the holder of the mutex has acted, and there was never more than one. -/
  lawful : Bool

namespace LedHistory

def init : LedHistory := ⟨none, none, false, false, true⟩

def next (h : LedHistory) (u : Option NodeThread) : LedAct → LedHistory
  | .lock full =>
    { h with holder := u, accepted := some full, lawful := h.lawful && h.holder.isNone }
  | .store _ => { h with lawful := h.lawful && h.holder = u }
  | .set _ => { h with shown := true, lawful := h.lawful && h.holder = u }
  | .unlock => { h with holder := none, lawful := h.lawful && h.holder = u }
  | .driveLow => { h with driven := true, shown := false }
  | .leaveInit _ => h

def of (tr : List NodeLabel) : LedHistory :=
  tr.foldl (fun h l ↦ (ledAct? l).elim h (h.next l.by?)) init

variable {tr : List NodeLabel} {l : NodeLabel} {a : LedAct}

theorem of_append_of_none (ha : ledAct? l = none) : of (tr ++ [l]) = of tr := by
  simp [of, ha]

theorem of_append_of_some (ha : ledAct? l = some a) :
    of (tr ++ [l]) = (of tr).next l.by? a := by
  simp [of, ha]

end LedHistory

/-- Flag, LED, mutex, and what is remembered. -/
structure LedBoard extends LedHistory where
  capacity : Capacity
  locked : Bool
  loaded : Bool

namespace LedBoard

def next (b : LedBoard) (u : Option NodeThread) (a : LedAct) : LedBoard where
  toLedHistory := b.toLedHistory.next u a
  capacity := match a with
    | .store full => { b.capacity with capacityFull := full }
    | .set on => fullLedSet on b.capacity
    | .driveLow => { b.capacity with fullLed := 0 }
    | _ => b.capacity
  locked := match a with
    | .lock _ => true
    | .unlock => false
    | _ => b.locked
  loaded := match a with
    | .leaveInit ok => ok
    | _ => b.loaded

def ofSnap (s : NodeSnap) : LedBoard where
  toLedHistory := .of s.trace
  capacity := s.state.capacity
  locked := s.state.locked
  loaded := s.state.loaded

/-- What is followed of the state. -/
def ofState (s : NodeState) : Capacity × Bool × Bool := (s.capacity, s.locked, s.loaded)

theorem ofState_called {c : GateCall} (hc : c ≠ .gpioDirectionOutput fullLedPin) (s : NodeState) :
    ofState (s.called c) = ofState s := by
  unfold NodeState.called
  split
  · rfl
  · rw [if_neg fun h ↦ hc (by rw [h])]
  · rfl
  · rfl
  · rfl

/-- A step that is no act leaves flag, LED and mutex alone. -/
theorem ofState_of_none {s x : NodeState} {l : NodeLabel} (hx : nodeMachine.Emits s l x)
    (ha : ledAct? l = none) : ofState x = ofState s := by
  cases l with
  | start t j =>
    obtain ⟨p, hentry⟩ := hx
    change nodeEntry t j s = some (p, x) at hentry
    unfold nodeEntry at hentry
    split at hentry
    · obtain ⟨-, rfl⟩ : _ ∧ { s with begun := true } = x := by
        split at hentry
        · cases hentry
        · exact Prod.mk.inj (Option.some.inj hentry)
      rfl
    all_goals
      first
        | cases hentry
        | (split at hentry
           · obtain ⟨-, rfl⟩ := Prod.mk.inj (Option.some.inj hentry)
             rfl
           · cases hentry)
  | op t o r =>
    cases o with
    | inl o =>
      change (if _ then _ else _) = _ at hx
      split at hx
      · cases hx
      · obtain ⟨g, -, rfl⟩ := Option.map_eq_some_iff.mp hx
        rfl
    | inr o =>
      cases o with
      | call c =>
        obtain rfl := Option.some.inj hx
        cases r with
        | false => rfl
        | true => exact ofState_called (fun hc ↦ by simp [ledAct?, ledCall?, hc] at ha) s
      | cdevDel | copyFromUser | leaveWrite =>
        obtain rfl := Option.some.inj hx
        rfl
      | _ => cases ha
  | ext e =>
    change nodeEvent e s = some x at hx
    unfold nodeEvent at hx
    split at hx
    all_goals
      split at hx
      · obtain ⟨g, -, rfl⟩ := Option.map_eq_some_iff.mp hx
        rfl
      · cases hx

/-- Neither does it change the board. -/
theorem ofSnap_log_of_none {s : NodeSnap} {l : NodeLabel} {x : NodeState}
    (hx : nodeMachine.Emits s.state l x) (ha : ledAct? l = none) :
    ofSnap (s.log x l) = ofSnap s := by
  obtain ⟨hcapacity, hrest⟩ := Prod.mk.inj (ofState_of_none hx ha)
  obtain ⟨hlocked, hloaded⟩ := Prod.mk.inj hrest
  simp only [ofSnap, Snap.log_trace, Snap.log_state, LedHistory.of_append_of_none ha, hcapacity,
    hlocked, hloaded]

/-- An act moves the board. -/
theorem ofSnap_log_of_some {s : NodeSnap} {l : NodeLabel} {x : NodeState} {a : LedAct}
    (hx : nodeMachine.Emits s.state l x) (ha : ledAct? l = some a) :
    ofSnap (s.log x l) = (ofSnap s).next l.by? a := by
  have hhistory : LedHistory.of (s.trace ++ [l]) = (LedHistory.of s.trace).next l.by? a :=
    LedHistory.of_append_of_some ha
  have hstate : ofState x = (((ofSnap s).next l.by? a).capacity,
      ((ofSnap s).next l.by? a).locked, ((ofSnap s).next l.by? a).loaded) := by
    unfold ledAct? at ha
    split at ha
    case h_8 => cases ha
    case h_5 c ok =>
      unfold ledCall? at ha
      split at ha
      · obtain ⟨rfl, rfl⟩ := ‹_ ∧ _›
        obtain rfl := Option.some.inj ha
        obtain rfl := Option.some.inj hx
        rfl
      · cases ha
    all_goals obtain rfl := Option.some.inj ha
    case h_1 full _ =>
      obtain ⟨-, rfl⟩ := NodeOp.exec_lockState full hx
      rfl
    all_goals
      obtain rfl := Option.some.inj hx
      rfl
  obtain ⟨hcapacity, hrest⟩ := Prod.mk.inj hstate
  obtain ⟨hlocked, hloaded⟩ := Prod.mk.inj hrest
  simp only [ofSnap, Snap.log_trace, Snap.log_state, hhistory, hcapacity, hlocked, hloaded]
  rfl

end LedBoard

def ledBoard : Board nodeMachine LedAct LedBoard where
  act? := ledAct?
  view := LedBoard.ofSnap
  next := LedBoard.next
  view_of_none := LedBoard.ofSnap_log_of_none
  view_of_some := LedBoard.ofSnap_log_of_some

/-! ## The invariant -/

/-- The flag is that of the last command, and so is the LED unless it has been driven low since. -/
structure LedBoard.Sound (b : LedBoard) : Prop where
  lawful : b.lawful = true
  locked : b.locked = b.holder.isSome
  level : ∀ full, b.accepted = some full → full = 0 ∨ full = 1
  low : b.driven = true → b.shown = false → b.capacity.fullLed = 0
  flag : b.holder = none → b.capacity.capacityFull = b.accepted.getD 0
  led : b.holder = none → b.shown = true → b.capacity.fullLed = b.capacity.capacityFull
  loaded : b.loaded = true → b.driven = true

abbrev ledOutline : Outline nodeMachine := ledBoard.outline LedBoard.Sound

namespace LedBoard

variable {b : LedBoard} {t : NodeThread} {u : Option NodeThread} {a : LedAct} {full : ℤ}

/-- While the mutex is held, others can only drive the LED low. -/
theorem next_of_holder (h : (b.next u a).Sound) (ht : b.holder = some t) (hu : u ≠ some t) :
    a = .driveLow ∨ ∃ ok, a = .leaveInit ok := by
  have hlawful := h.lawful
  cases a with
  | driveLow => exact .inl rfl
  | leaveInit ok => exact .inr ⟨ok, rfl⟩
  | lock full => simp [next, LedHistory.next, ht] at hlawful
  | store | set | unlock =>
    simp only [next, LedHistory.next, Bool.and_eq_true, decide_eq_true_iff, ht] at hlawful
    exact absurd hlawful.2.symm hu

/-- Thread `t` is in `set_capacity_full(full)`: it has taken the mutex, stored the flag at stage 1
and set the LED at stage 2. -/
structure Inside (t : NodeThread) (full : ℤ) (stage : ℕ) (b : LedBoard) : Prop where
  holder : b.holder = some t
  accepted : b.accepted = some full
  flag : 1 ≤ stage → b.capacity.capacityFull = full
  led : 2 ≤ stage → b.shown = true → b.capacity.fullLed = full

theorem Inside.next {stage : ℕ} (h : b.Inside t full stage) (hb : (b.next u a).Sound)
    (hu : u ≠ some t) : (b.next u a).Inside t full stage := by
  obtain rfl | ⟨ok, rfl⟩ := next_of_holder hb h.holder hu
  · exact ⟨h.holder, h.accepted, h.flag, fun _ hshown ↦ (by cases hshown)⟩
  · exact ⟨h.holder, h.accepted, h.flag, h.led⟩

end LedBoard

/-- Thread `t` is in the critical section of `set_capacity_full(full)`. -/
def inside (t : NodeThread) (full : ℤ) (stage : ℕ) : ledOutline.Assertion t :=
  ledBoard.assert _ t (LedBoard.Inside t full stage) fun _ _ _ _ hb hu h ↦ h.next hb hu

/-- If it is so, the pin has been driven low. -/
def drivenIf (φ : Prop) : ledOutline.Assertion .loader :=
  ledBoard.assert _ .loader (fun b ↦ φ → b.driven = true) fun b u a _ _ _ h hφ ↦ by
    cases a with
    | driveLow => rfl
    | _ => exact h hφ

/-! ## The writers -/

namespace LedBoard

variable {b : LedBoard} {t : NodeThread} {full : ℤ}

theorem Sound.lock (h : b.Sound) (hfree : b.locked = false) (hfull : full = 0 ∨ full = 1) :
    (b.next (some t) (.lock full)).Sound ∧ (b.next (some t) (.lock full)).Inside t full 0 := by
  have hholder : b.holder.isSome = false := h.locked ▸ hfree
  refine ⟨⟨?_, rfl, ?_, h.low, fun hnone ↦ (by cases hnone), fun hnone ↦ (by cases hnone),
    h.loaded⟩, rfl, rfl, fun hstage ↦ (by omega), fun hstage ↦ (by omega)⟩
  · simpa [next, LedHistory.next, h.lawful] using hholder
  · rintro f hf
    exact Option.some.inj hf ▸ hfull

theorem Sound.store (h : b.Sound) (hb : b.Inside t full 0) :
    (b.next (some t) (.store full)).Sound ∧ (b.next (some t) (.store full)).Inside t full 1 := by
  have hsome : ¬b.holder = none := by simp [hb.holder]
  refine ⟨⟨?_, h.locked, h.level, h.low, fun hnone ↦ absurd hnone hsome,
    fun hnone ↦ absurd hnone hsome, h.loaded⟩, hb.holder, hb.accepted, fun _ ↦ rfl,
    fun hstage ↦ (by omega)⟩
  simp [next, LedHistory.next, h.lawful, hb.holder]

theorem Sound.set (h : b.Sound) (hb : b.Inside t full 1) :
    (b.next (some t) (.set (if full ≠ 0 then 1 else 0))).Sound
      ∧ (b.next (some t) (.set (if full ≠ 0 then 1 else 0))).Inside t full 2 := by
  have hsome : ¬b.holder = none := by simp [hb.holder]
  refine ⟨⟨?_, h.locked, h.level, fun _ hshown ↦ (by cases hshown), fun hnone ↦ absurd hnone hsome,
    fun hnone ↦ absurd hnone hsome, h.loaded⟩, hb.holder, hb.accepted,
    fun _ ↦ hb.flag (Nat.le_refl 1), fun _ _ ↦ ?_⟩
  · simp [next, LedHistory.next, h.lawful, hb.holder]
  · rcases h.level full hb.accepted with rfl | rfl <;> rfl

theorem Sound.unlock (h : b.Sound) (hb : b.Inside t full 2) : (b.next (some t) .unlock).Sound := by
  have hflag : b.capacity.capacityFull = full := hb.flag (by omega)
  refine ⟨?_, rfl, h.level, h.low, fun _ ↦ ?_, fun _ hshown ↦ ?_, h.loaded⟩
  · simp [next, LedHistory.next, h.lawful, hb.holder]
  · change b.capacity.capacityFull = b.accepted.getD 0
    rw [hb.accepted]
    exact hflag
  · exact (hb.led (Nat.le_refl 2) hshown).trans hflag.symm

theorem Sound.driveLow (h : b.Sound) (u : Option NodeThread) : (b.next u .driveLow).Sound :=
  ⟨h.lawful, h.locked, h.level, fun _ _ ↦ rfl, h.flag, fun _ hshown ↦ (by cases hshown),
    fun _ ↦ rfl⟩

theorem Sound.leaveInit (h : b.Sound) (u : Option NodeThread) {ok : Bool}
    (hok : ok = true → b.driven = true) : (b.next u (.leaveInit ok)).Sound :=
  ⟨h.lawful, h.locked, h.level, h.low, h.flag, h.led, hok⟩

end LedBoard

theorem setCapacityFull_rule (t : NodeThread) {full : ℤ} (hfull : full = 0 ∨ full = 1) :
    ledOutline.Triple t .top (setCapacityFull full).inr fun _ ↦ .top := by
  have hlock : ledOutline.Triple t .top (nodePerform (.lockState full)).inr
      fun _ ↦ inside t full 0 := by
    refine Board.act (W := ledBoard) (o := .inr (.lockState full)) (fun _ ↦ .lock full)
      (fun _ ↦ rfl) fun s r x hs _ hx hview ↦ ?_
    obtain ⟨hsound, hinside⟩ := hs.lock (t := t) (NodeOp.exec_lockState full hx).1 hfull
    exact ⟨hsound, show LedBoard.Inside t full 0 (ledBoard.view _) from hview ▸ hinside⟩
  have hstore : ledOutline.Triple t (inside t full 0) (nodePerform (.storeCapacity full)).inr
      fun _ ↦ inside t full 1 := by
    refine Board.act (W := ledBoard) (o := .inr (.storeCapacity full)) (fun _ ↦ .store full)
      (fun _ ↦ rfl) fun s r x hs h hx hview ↦ ?_
    obtain ⟨hsound, hinside⟩ := hs.store h
    exact ⟨hsound, show LedBoard.Inside t full 1 (ledBoard.view _) from hview ▸ hinside⟩
  have hset : ledOutline.Triple t (inside t full 1)
      (nodePerform (.setFullLed (if full ≠ 0 then 1 else 0))).inr fun _ ↦ inside t full 2 := by
    refine Board.act (W := ledBoard) (o := .inr (.setFullLed _)) (fun _ ↦ .set _) (fun _ ↦ rfl)
      fun s r x hs h hx hview ↦ ?_
    obtain ⟨hsound, hinside⟩ := hs.set h
    exact ⟨hsound, show LedBoard.Inside t full 2 (ledBoard.view _) from hview ▸ hinside⟩
  have hunlock : ledOutline.Triple t (inside t full 2) (nodePerform .unlockState).inr
      fun _ ↦ .top :=
    Board.act (W := ledBoard) (o := .inr .unlockState) (fun _ ↦ .unlock) (fun _ ↦ rfl)
      fun _ _ _ hs h _ _ ↦ ⟨hs.unlock h, trivial⟩
  refine .bind_inr hlock fun _ ↦ ?_
  refine .bind_inr hstore fun _ ↦ ?_
  exact .bind_inr hset fun _ ↦ hunlock

/-- An operation of a writer or the loader that is no act. -/
theorem quiet_rule {t : NodeThread} {P : ledOutline.Assertion t} (hP : Board.About P) {o : NodeOp}
    (ho : ∀ r, ledAct? (.op t (.inr o) r) = none) :
    ledOutline.Triple t P (nodePerform o).inr fun _ ↦ P :=
  Board.quiet (W := ledBoard) (o := .inr o) ho fun _ _ _ _ h _ hview ↦ hP hview h

theorem gateDeviceWrite_rule (t : NodeThread) (junk : ℤ → UInt8) (buf : List UInt8) :
    ledOutline.Triple t .top (gateDeviceWrite junk buf).inr fun _ ↦ .top := by
  refine .bind_inr (quiet_rule Board.about_top (o := .copyFromUser) fun _ ↦ rfl) fun copied ↦ ?_
  cases copied with
  | false => exact .ret fun _ _ h ↦ h
  | true =>
    rw [if_pos rfl]
    split
    · rename_i command _
      have hlevel : command.level = 0 ∨ command.level = 1 := by
        cases command
        · exact .inr rfl
        · exact .inl rfl
      exact .bind_inr (setCapacityFull_rule t hlevel) fun _ ↦ .ret fun _ _ h ↦ h
    · exact .ret fun _ _ h ↦ h

/-! ## The loading thread -/

/-- The call that makes `FULL_LED_PIN` an output. -/
def directFullLed : GateCall := .gpioDirectionOutput fullLedPin

theorem call_rule (c : GateCall) (φ : Prop) :
    ledOutline.Triple .loader (drivenIf φ) (nodePerform (.call c)).inr
      fun ok ↦ drivenIf (φ ∨ ok = true ∧ c = directFullLed) := by
  refine .call fun s ok x hs h hx _ ↦ ?_
  by_cases hc : c = directFullLed ∧ ok = true
  · have hview := ledBoard.view_of_some (l := .op .loader (.inr (.call c)) ok) hx (if_pos hc)
    refine ⟨?_, fun _ ↦ ?_⟩
    · exact show LedBoard.Sound (ledBoard.view _) from hview ▸ hs.2.driveLow _
    · exact show (ledBoard.view _).driven = true from hview ▸ rfl
  · have hview := ledBoard.view_of_none (l := .op .loader (.inr (.call c)) ok) hx (if_neg hc)
    refine ⟨show LedBoard.Sound (ledBoard.view _) from hview ▸ hs.2, fun hφ ↦ ?_⟩
    exact Board.about_assert hview h (hφ.resolve_right fun h ↦ hc ⟨h.2, h.1⟩)

/-- If the calls get through, the pin has been driven low if that was one of them. -/
theorem callAll_rule (cs : List GateCall) (φ : Prop) :
    ledOutline.Triple .loader (drivenIf φ) (callAll cs).inr
      fun ok ↦ drivenIf (φ ∨ ok = true ∧ directFullLed ∈ cs) := by
  induction cs generalizing φ with
  | nil => exact .ret fun s _ h hφ ↦ h (hφ.resolve_right fun h ↦ List.not_mem_nil h.2)
  | cons c cs ih =>
    refine .bind_inr (call_rule c φ) fun ok ↦ ?_
    cases ok with
    | false => exact .ret fun s _ h hφ ↦ h (hφ.imp id fun h ↦ (by cases h.1))
    | true =>
      refine (ih (φ ∨ true = true ∧ c = directFullLed)).post fun ok s _ h hφ ↦ ?_
      refine h ?_
      rcases hφ with hφ | ⟨hok, hmem⟩
      · exact .inl (.inl hφ)
      · rcases List.mem_cons.mp hmem with heq | hmem
        · exact .inl (.inr ⟨rfl, heq.symm⟩)
        · exact .inr ⟨hok, hmem⟩

theorem giveUp_rule {φ : Prop} :
    ledOutline.Triple .loader (drivenIf φ) giveUp.inr fun ok ↦ drivenIf (ok = true) := by
  refine .bind_inr (quiet_rule Board.about_assert (o := .cdevDel) fun _ ↦ rfl) fun _ ↦ ?_
  exact .ret fun _ _ _ hok ↦ (by cases hok)

/-- A load that succeeds has driven the pin low. -/
theorem finishInit_rule : ledOutline.Triple .loader .top finishInit.inr
    fun ok ↦ drivenIf (ok = true) := by
  have hcleanup {P : ledOutline.Assertion .loader} :
      ledOutline.Triple .loader P (nodePerform .hwCleanup).inr fun _ ↦ .top :=
    Board.act (W := ledBoard) (o := .inr .hwCleanup) (fun _ ↦ .driveLow) (fun _ ↦ rfl)
      fun _ _ _ hs _ _ _ ↦ ⟨hs.driveLow _, trivial⟩
  refine .pre (P := drivenIf False) (fun _ _ _ h ↦ h.elim) ?_
  refine .bind_inr (callAll_rule _ _) fun ok ↦ ?_
  cases ok with
  | false => exact giveUp_rule
  | true =>
    refine .bind_inr (callAll_rule hwCalls _) fun ok ↦ ?_
    cases ok with
    | false => exact giveUp_rule
    | true =>
      refine .bind_inr (call_rule .kthreadRun _) fun ok ↦ ?_
      cases ok with
      | false =>
        refine .bind_inr (R := fun _ ↦ .top) hcleanup fun _ ↦ ?_
        exact .pre (P := drivenIf False) (fun _ _ _ h ↦ h.elim) giveUp_rule
      | true => exact .ret fun s _ h _ ↦ h (.inl (.inr ⟨rfl, by decide⟩))

theorem gateNodeInit_rule : ledOutline.Triple .loader .top gateNodeInit.inr
    fun ok ↦ drivenIf (ok = true) := by
  refine .pre (P := drivenIf False) (fun _ _ _ h ↦ h.elim) ?_
  refine .bind_inr (callAll_rule _ _) fun ok ↦ ?_
  cases ok with
  | false => exact .ret fun _ _ _ hok ↦ (by cases hok)
  | true => exact .pre (fun _ _ _ ↦ trivial) finishInit_rule

theorem load_rule : ledOutline.Triple .loader .top (load gateNodeInit).inr fun _ ↦ .top := by
  refine .bind_inr gateNodeInit_rule fun ok ↦ ?_
  exact Board.act (W := ledBoard) (o := .inr (.leaveInit ok)) (fun _ ↦ .leaveInit ok)
    (fun _ ↦ rfl) fun _ _ _ hs h _ _ ↦ ⟨hs.leaveInit _ h, trivial⟩

/-! ## Every run -/

theorem ledBoard_valid : ledOutline.Valid fun _ ↦ .top := by
  refine Board.valid ?_ (fun _ _ ↦ rfl) (fun _ ↦ Board.about_top) ?_
  · intro s e x hs hx
    have hview := ledBoard.view_of_none (l := .ext e) hx rfl
    exact hview ▸ hs
  · intro t j s p x hentry
    change nodeEntry t j s = some (p, x) at hentry
    unfold nodeEntry at hentry
    split at hentry
    case h_4 => cases hentry
    all_goals split at hentry <;> cases hentry
    · exact load_rule
    · have huses : (stateMachineTurn.inl : Prog (RespSum GateOp.Resp NodeOp.Resp) Unit).Uses
          fun o ↦ ∃ o', o = .inl o' :=
        Prog.uses_inl (Prog.uses_of_forall (fun o ↦ ⟨o, rfl⟩) stateMachineTurn)
      refine Board.quiet_program Board.about_top huses fun _ ho r ↦ ?_
      obtain ⟨o, rfl⟩ := ho
      rfl
    · refine .bind_inr (gateDeviceWrite_rule _ _ _) fun result ↦ ?_
      exact quiet_rule Board.about_top (o := .leaveWrite result) fun _ ↦ rfl

theorem ledSound_of_reachable {c : NodeConfig} (hc : NodeReachable c) :
    (LedBoard.ofSnap c.toSnap).Sound := by
  obtain ⟨level, hsteps⟩ := hc
  refine (Board.sound ledBoard_valid ?_ (fun _ ↦ trivial) hsteps).1
  exact {
    lawful := rfl
    locked := rfl
    level := fun _ h ↦ by cases h
    low := fun h ↦ by cases h
    flag := fun _ ↦ rfl
    led := fun _ h ↦ by cases h
    loaded := fun h ↦ by cases h }

/-- **When the full LED shows the last command.** Once the module is loaded, at any moment at which
nobody is in the critical section of `set_capacity_full`, the LED shows the flag and the flag is
that of the last accepted command, none counting as `AVAILABLE`, unless that command is `FULL`
and `gate_hw_init` has driven the pin low after the LED was set for it. -/
theorem full_led_iff {c : NodeConfig} (hc : NodeReachable c) (hloaded : c.state.loaded = true)
    (hfree : c.state.locked = false) :
    (c.state.capacity.fullLed = c.state.capacity.capacityFull
        ∧ c.state.capacity.capacityFull = (LedHistory.of c.trace).accepted.getD 0)
      ↔ ¬((LedHistory.of c.trace).accepted = some 1 ∧ (LedHistory.of c.trace).shown = false) := by
  have hsound := ledSound_of_reachable hc
  have hsome : (LedHistory.of c.trace).holder.isSome = false := hsound.locked.symm.trans hfree
  have hholder : (LedHistory.of c.trace).holder = none := by simpa using hsome
  have hflag : c.state.capacity.capacityFull = (LedHistory.of c.trace).accepted.getD 0 :=
    hsound.flag hholder
  cases hshown : (LedHistory.of c.trace).shown with
  | true =>
    have hled : c.state.capacity.fullLed = c.state.capacity.capacityFull :=
      hsound.led hholder hshown
    exact iff_of_true ⟨hled, hflag⟩ fun h ↦ by cases h.2
  | false =>
    have hlow : c.state.capacity.fullLed = 0 := hsound.low (hsound.loaded hloaded) hshown
    rw [hflag, hlow]
    -- the LED is dark, so all depends on the command
    have hlevel : ∀ full, (LedHistory.of c.trace).accepted = some full → full = 0 ∨ full = 1 :=
      hsound.level
    cases haccepted : (LedHistory.of c.trace).accepted with
    | none => simp
    | some full =>
      rcases hlevel full haccepted with rfl | rfl <;> simp

/-! ## A command before and after the pin is set up -/

section Runs

variable {s : NodeSnap} {t : NodeThread}

theorem nodePerform_may {o : NodeOp} (r : o.Resp) {x : NodeState} {Q : o.Resp → NodeSnap → Prop}
    (hx : o.exec r s.state = some x) (h : Q r (s.log x (.op t (.inr o) r))) :
    nodeMachine.May t (nodePerform o).inr Q s :=
  Machine.May.call (M := nodeMachine) (o := .inr o) r hx h

theorem callAll_may (cs : List GateCall) {Q : Bool → NodeSnap → Prop}
    (h : ∀ s' : NodeSnap, s'.state = cs.foldl NodeState.called s.state → Q true s') :
    nodeMachine.May t (callAll cs).inr Q s := by
  induction cs generalizing s with
  | nil => exact .ret (h s rfl)
  | cons c cs ih => exact .bind_inr (nodePerform_may (o := .call c) true rfl (ih h))

/-- From where the device can be written, the load may succeed. -/
theorem load_finishInit_may : nodeMachine.May t (load finishInit).inr
    (fun _ s' ↦ s'.state = { s.state with
      capacity := { s.state.capacity with fullLed := 0 }
      irq := true, started := true, loaded := true }) s := by
  refine .bind_inr (.bind_inr (callAll_may _ fun s₁ hs₁ ↦ ?_))
  refine .bind_inr (callAll_may hwCalls fun s₂ hs₂ ↦ ?_)
  refine .bind_inr (nodePerform_may (o := .call .kthreadRun) true rfl ?_)
  refine .ret (nodePerform_may (o := .leaveInit true) () rfl ?_)
  rw [Snap.log_state, Snap.log_state, hs₂, hs₁]
  rfl

theorem setCapacityFull_may (hfree : s.state.locked = false) {Q : Unit → NodeSnap → Prop}
    (h : ∀ s' : NodeSnap, s'.state = { s.state with capacity := ⟨1, 1⟩, locked := false } →
      (LedHistory.of s'.trace).shown = true → Q () s') :
    nodeMachine.May t (setCapacityFull 1).inr Q s := by
  refine .bind_inr (nodePerform_may (o := .lockState 1) () (if_neg (by simp [hfree])) ?_)
  refine .bind_inr (nodePerform_may (o := .storeCapacity 1) () rfl ?_)
  refine .bind_inr (nodePerform_may (o := .setFullLed _) () rfl ?_)
  refine nodePerform_may (o := .unlockState) () rfl (h _ rfl ?_)
  simp [LedHistory.of, ledAct?, LedHistory.next]

/-- `FULL` may be written and accepted. -/
theorem write_full_may (hfree : s.state.locked = false) : nodeMachine.May t
    (write (fun _ ↦ 0) Command.full.text).inr
    (fun _ s' ↦ s'.state = { s.state with capacity := ⟨1, 1⟩, locked := false }
      ∧ (LedHistory.of s'.trace).shown = true) s := by
  have hcommand : commandIn (localBuf (fun _ ↦ 0) Command.full.text) = some .full :=
    commandIn_localBuf.mpr (by decide)
  refine .bind_inr (.bind_inr (nodePerform_may (o := .copyFromUser) true rfl ?_))
  simp only [hcommand]
  refine .bind_inr (setCapacityFull_may
    (s := s.log s.state (.op t (.inr .copyFromUser) true)) hfree fun s' hstate hshown ↦ ?_)
  refine .ret (nodePerform_may (o := .leaveWrite _) () rfl ⟨hstate, ?_⟩)
  rw [Snap.log_trace, LedHistory.of_append_of_none rfl]
  exact hshown

end Runs

theorem entry_write {s : NodeState} (h : s.live = true) {w : ℕ} {junk : ℤ → UInt8}
    {buf : List UInt8} :
    nodeMachine.entry (.writer w) (.write junk buf) s = some ((write junk buf).inr, s) := if_pos h

/-- The device can be written, and the load goes on from there. -/
theorem exists_live : ∃ c : NodeConfig, NodeReachable c ∧ c.state.live = true
    ∧ c.state.locked = false ∧ c.thread .loader = some (load finishInit).inr
    ∧ c.thread (.writer 0) = none := by
  refine ⟨_, ⟨0, .tail (.tail (.single (.start (t := .loader) (j := .load) rfl rfl))
    (.op (t := .loader) (o := .inr (.call .allocChrdevRegion)) (r := true) rfl rfl))
    (.op (t := .loader) (o := .inr (.call .cdevAdd)) (r := true) rfl rfl)⟩, rfl, rfl, rfl, rfl⟩

/-- A command that comes while the module is loading is shown, and then it is not. -/
theorem early_command_not_shown : ∃ c : NodeConfig, NodeReachable c ∧ c.state.loaded = true
    ∧ c.state.locked = false ∧ ¬(c.state.capacity.fullLed = c.state.capacity.capacityFull
      ∧ c.state.capacity.capacityFull = (LedHistory.of c.trace).accepted.getD 0) := by
  obtain ⟨c, ⟨level, hc⟩, hlive, hfree, hloader, hwriter⟩ := exists_live
  obtain ⟨c₁, h₁, hthread, hstate, -⟩ :=
    (write_full_may (s := c.toSnap.log c.state _) hfree).steps hwriter (entry_write hlive)
  obtain ⟨c₂, h₂, -, hstate'⟩ := load_finishInit_may.steps_of_run (hthread ▸ hloader)
  have hcapacity : c₂.state.capacity = ⟨1, 0⟩ := by rw [hstate', hstate]
  refine ⟨c₂, ⟨level, (hc.trans h₁).trans h₂⟩, by rw [hstate'], by rw [hstate', hstate], fun h ↦ ?_⟩
  rw [hcapacity] at h
  cases h.1

/-- A command that comes when the module is loaded is shown. -/
theorem full_led_shows_command : ∃ c : NodeConfig, NodeReachable c ∧ c.state.loaded = true
    ∧ c.state.capacity.capacityFull = 1
    ∧ c.state.capacity.fullLed = c.state.capacity.capacityFull
    ∧ c.state.capacity.capacityFull = (LedHistory.of c.trace).accepted.getD 0 := by
  obtain ⟨c, ⟨level, hc⟩, hlive, hfree, hloader, hwriter⟩ := exists_live
  obtain ⟨c₁, h₁, hthread, hstate⟩ := load_finishInit_may.steps_of_run hloader
  have hidle : c₁.thread (.writer 0) = none := by
    rw [hthread, Function.update_of_ne (by decide), hwriter]
  have hlive' : c₁.state.live = true := by rw [hstate, hlive]
  have hfree' : c₁.state.locked = false := by rw [hstate, hfree]
  obtain ⟨c₂, h₂, -, hstate', hshown⟩ :=
    (write_full_may (s := c₁.toSnap.log c₁.state _) hfree').steps hidle (entry_write hlive')
  have hloaded : c₂.state.loaded = true :=
    (congrArg NodeState.loaded hstate').trans (congrArg NodeState.loaded hstate)
  have hnever : ¬((LedHistory.of c₂.trace).accepted = some 1
      ∧ (LedHistory.of c₂.trace).shown = false) := by
    rw [hshown]
    exact fun h ↦ by cases h.2
  have hc₂ : NodeReachable c₂ := ⟨level, (hc.trans h₁).trans h₂⟩
  refine ⟨c₂, hc₂, hloaded, by rw [hstate'], (full_led_iff hc₂ hloaded ?_).mpr hnever⟩
  rw [hstate']

end ParkingService.Node
