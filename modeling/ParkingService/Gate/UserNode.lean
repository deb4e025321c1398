import Mathlib.Data.Rat.Defs
import ParkingService.Concurrency.Board
import ParkingService.Gate.Controller

/-!
# The user-space gate node: two threads and a state

`main.c`: the same state machine as that of the kernel module, but with the button handled by a
thread of its own. Both threads copy `sys_state` under `state_mutex`, decide on their copies, and
write under `state_mutex` again; nothing looks at what a write replaces. `no_lost_update_iff` says
that this goes wrong exactly where a write comes too late for the copy it was decided on.

One job of the main thread is one pass through its loop, one job of the switch thread is one call of
`on_switch_press`. `running`, the log lines and what `main` does before and after its loop are left
out, so that a run begins when the loop is entered, no press having come before. (The switch thread
is started earlier than that, and between them `main` calls `gate_close`.)
-/

namespace ParkingService.UserNode

open Concurrency

/-! ## Operations -/

/-- The atomic operations of the two threads beside those of the controller. -/
inductive MainOp
  /-- one measurement: the length of the echo in microseconds, or a timeout -/
  | measure
  /-- `sys_state`, copied under `state_mutex` -/
  | copyState
  /-- the same with `time(NULL)` under the same lock -/
  | copyStateNow
  /-- `sys_state`, and maybe `state_timer`, written under `state_mutex` -/
  | writeState (s : SystemState) (timer : Option ℤ)
  /-- the same with `time(NULL)` taken under the lock -/
  | writeStateNow (s : SystemState)
  /-- `state_timer`, read without the lock -/
  | loadTimer
  | time
  | loadCloseFlag
  | storeCloseFlag (b : Bool)
  | loadPhase
  | storePhase (x : ℤ)
  | setBuzzer (on : Bool)
  | setEntryLed (on : Bool)
  | publishState (status : String)
  | publishEvent (event reason : String)

abbrev MainOp.Resp : MainOp → Type
  | .measure => Option ℤ
  | .copyState => SystemState
  | .copyStateNow => SystemState × ℤ
  | .writeStateNow _ => ℤ
  | .loadTimer => ℤ
  | .time => ℤ
  | .loadCloseFlag => Bool
  | .loadPhase => ℤ
  | _ => Unit

/-- The variables of `main.c` and of the controller, and the levels of the other outputs. -/
structure Node where
  controller : Controller
  sysState : SystemState
  stateTimer : ℤ
  switchCloseFlag : Bool
  buzzerPhase : ℤ
  buzzer : Bool
  entryLed : Bool

/-- When the loop is entered. -/
def Node.init : Node := ⟨.init, .idle, 0, false, 0, false, false⟩

def MainOp.Answers : (o : MainOp) → o.Resp → Node → Prop
  | .copyState, r, s => r = s.sysState
  | .copyStateNow, r, s => r.1 = s.sysState
  | .loadTimer, r, s => r = s.stateTimer
  | .loadCloseFlag, r, s => r = s.switchCloseFlag
  | .loadPhase, r, s => r = s.buzzerPhase
  | _, _, _ => True

instance : ∀ (o : MainOp) (r : o.Resp) (s : Node), Decidable (o.Answers r s)
  | .copyState, r, s => inferInstanceAs (Decidable (r = s.sysState))
  | .copyStateNow, r, s => inferInstanceAs (Decidable (r.1 = s.sysState))
  | .loadTimer, r, s => inferInstanceAs (Decidable (r = s.stateTimer))
  | .loadCloseFlag, r, s => inferInstanceAs (Decidable (r = s.switchCloseFlag))
  | .loadPhase, r, s => inferInstanceAs (Decidable (r = s.buzzerPhase))
  | .measure, _, _ | .writeState _ _, _, _ | .writeStateNow _, _, _ | .time, _, _
  | .storeCloseFlag _, _, _ | .storePhase _, _, _ | .setBuzzer _, _, _ | .setEntryLed _, _, _
  | .publishState _, _, _ | .publishEvent _ _, _, _ => inferInstanceAs (Decidable True)

def MainOp.effect : (o : MainOp) → o.Resp → Node → Node
  | .writeState x timer, _, s => { s with sysState := x, stateTimer := timer.getD s.stateTimer }
  | .writeStateNow x, now, s => { s with sysState := x, stateTimer := now }
  | .storeCloseFlag b, _, s => { s with switchCloseFlag := b }
  | .storePhase x, _, s => { s with buzzerPhase := x }
  | .setBuzzer on, _, s => { s with buzzer := on }
  | .setEntryLed on, _, s => { s with entryLed := on }
  | _, _, s => s

def MainOp.exec (o : MainOp) (r : o.Resp) (s : Node) : Option Node :=
  if o.Answers r s then some (o.effect r s) else none

abbrev NodeOp := CtlOp ⊕ MainOp

abbrev NodeResp : NodeOp → Type := RespSum CtlOp.Resp MainOp.Resp

abbrev NodeProg := Prog NodeResp

def nodeExec : (o : NodeOp) → NodeResp o → Node → Option Node
  | .inl o, r, s => (o.exec r s.controller).map fun c ↦ { s with controller := c }
  | .inr o, r, s => o.exec r s

def nodePerform (o : MainOp) : NodeProg o.Resp := .op (.inr o) .ret

/-! ## `main.c` -/

/-- A quotient of type `double`: rounding decides neither of the comparisons that are made. -/
def ultrasonicMeasureCm : NodeProg ℚ := do
  match ← nodePerform .measure with
  | none => return -1
  | some echoUs => return echoUs / 58

/-- What a measurement returns. -/
def cmOf : Option ℤ → ℚ
  | none => -1
  | some echoUs => echoUs / 58

/-- A vehicle is in front of the sensor. -/
def InRange (d : ℚ) : Prop := 0 < d ∧ d ≤ vehicleDetectCm

/-- There is none, or no measurement. -/
def Gone (d : ℚ) : Prop := d < 0 ∨ vehicleDetectCm < d

instance (d : ℚ) : Decidable (InRange d) := inferInstanceAs (Decidable (_ ∧ _))

instance (d : ℚ) : Decidable (Gone d) := inferInstanceAs (Decidable (_ ∨ _))

def nextPhase : NodeProg ℤ := do
  let phase ← nodePerform .loadPhase
  nodePerform (.storePhase ((phase + 1).tmod 10))
  return (phase + 1).tmod 10

def closeVehicleCheck : NodeProg Bool := do
  let phase ← nextPhase
  nodePerform (.setBuzzer (decide (phase < 5)))
  let d ← ultrasonicMeasureCm
  if InRange d then return true
  else if ← nodePerform .loadCloseFlag then
    nodePerform (.storeCloseFlag false)
    return true
  else return false

def onSwitchPress : NodeProg Unit := do
  let s ← nodePerform .copyState
  if s = .entryDetected ∨ s = .entryWaiting then
    nodePerform (.storeCloseFlag true)
  else if s = .exitRequested ∨ s = .exitVehicleDetected ∨ s = .exitVehicleWaiting then
    nodePerform (.storeCloseFlag true)
  else if s = .idle then
    let _ ← nodePerform (.writeStateNow .exitRequested)
    gateOpen.inl
    nodePerform (.publishEvent "EXIT_OPEN" "switch_pressed")
    nodePerform (.publishState "OPEN")

def whenIdle (dist : ℚ) (now : ℤ) : NodeProg Unit := do
  if InRange dist then
    nodePerform (.writeState .entryDetected (some now))
    gateOpen.inl
    nodePerform (.publishEvent "ENTRY_OPEN" "vehicle_detected")
    nodePerform (.publishState "OPEN")

/-- The vehicle is gone: wait whether it comes back. -/
def whenDetected (waiting : SystemState) (dist : ℚ) (now : ℤ) : NodeProg Unit := do
  if Gone dist then
    nodePerform (.writeState waiting (some now))

/-- Close the gate; back to `reopened` if that is undone. -/
def closeOr (reopened : SystemState) : NodeProg Unit := do
  nodePerform (.storeCloseFlag false)
  if (← gateCloseInterruptible (some closeVehicleCheck)) < 0 then
    let freshNow ← nodePerform .time
    nodePerform (.writeState reopened (some freshNow))
    nodePerform (.publishState "OPEN")
  else
    nodePerform (.writeState .idle none)
    nodePerform (.publishState "CLOSED")

/-- Close the gate if the time is up. -/
def closeAfter (delaySec : ℤ) (reopened : SystemState) (now : ℤ) : NodeProg Unit := do
  let stateTimer ← nodePerform .loadTimer
  if delaySec ≤ now - stateTimer then
    closeOr reopened

/-- Unlike in the kernel module, the sensor comes before the clock. -/
def whenWaiting (detected : SystemState) (dist : ℚ) (now : ℤ) : NodeProg Unit := do
  if InRange dist then
    nodePerform (.writeState detected (some now))
  else closeAfter entryCloseDelaySec detected now

def whenExitRequested (dist : ℚ) (now : ℤ) : NodeProg Unit := do
  if InRange dist then
    nodePerform (.writeState .exitVehicleDetected none)
  else closeAfter exitTimeoutSec .exitRequested now

def dispatch (s : SystemState) (dist : ℚ) (now : ℤ) : NodeProg Unit :=
  match s with
  | .idle => whenIdle dist now
  | .entryDetected => whenDetected .entryWaiting dist now
  | .entryWaiting => whenWaiting .entryDetected dist now
  | .exitRequested => whenExitRequested dist now
  | .exitVehicleDetected => whenDetected .exitVehicleWaiting dist now
  | .exitVehicleWaiting => whenWaiting .exitVehicleDetected dist now

/-- Buzzer and LED at the end of a pass. -/
def signal : NodeProg Unit := do
  let curS ← nodePerform .copyState
  if curS ≠ .idle then
    let phase ← nextPhase
    nodePerform (.setBuzzer (decide (phase < 5)))
    nodePerform (.setEntryLed (decide (phase < 5)))
  else
    nodePerform (.storePhase 9)
    nodePerform (.setBuzzer false)
    nodePerform (.setEntryLed false)

/-- One pass through the loop. -/
def mainPass : NodeProg Unit := do
  let dist ← ultrasonicMeasureCm
  let (s, now) ← nodePerform .copyStateNow
  dispatch s dist now
  signal

/-! ## The machine -/

inductive NodeThread
  | main
  | switch
  deriving DecidableEq

/-- Each thread does one thing over and over: nothing comes from outside but answers. -/
def nodeMachine : Machine NodeThread Unit NodeResp Empty Node where
  entry
    | .main, _, s => some (mainPass, s)
    | .switch, _, s => some (onSwitchPress, s)
  exec := nodeExec
  ext e := e.elim

abbrev NodeLabel := Label NodeThread Unit NodeResp Empty

abbrev NodeSnap := Snap NodeThread Unit NodeResp Empty Node

abbrev NodeConfig := Config NodeThread Unit NodeResp Empty Node

def NodeReachable (c : NodeConfig) : Prop := nodeMachine.Steps (.init .init) c

/-! ## The state machine and what the threads have copied -/

/-- What the loop makes of a state. -/
def loopTransitions : SystemState → List SystemState
  | .idle => [.entryDetected]
  | .entryDetected => [.entryWaiting]
  | .entryWaiting => [.entryDetected, .idle]
  | .exitRequested => [.exitVehicleDetected, .exitRequested, .idle]
  | .exitVehicleDetected => [.exitVehicleWaiting]
  | .exitVehicleWaiting => [.exitVehicleDetected, .idle]

/-- The transitions of the state machine, by the thread that makes them. -/
def transitions : NodeThread → SystemState → List SystemState
  | .main, s => loopTransitions s
  | .switch, s => if s = .idle then [.exitRequested] else []

/-- What a label does about `sys_state`. -/
inductive StateAct
  | copy (s : SystemState)
  | write (s : SystemState)

def stateAct? : NodeLabel → Option StateAct
  | .op _ (.inr .copyState) s => some (.copy s)
  | .op _ (.inr .copyStateNow) r => some (.copy r.1)
  | .op _ (.inr (.writeState s _)) _ => some (.write s)
  | .op _ (.inr (.writeStateNow s)) _ => some (.write s)
  | _ => none

/-- What is remembered of a run: `sys_state`, what each thread has copied of it last, and whether
all writes so far were such that the thread makes them from what it had copied (`lawful`), that it
makes them from what they replaced (`legal`), and that the two were the same (`fresh`). -/
structure StateHistory where
  value : SystemState
  copied : NodeThread → SystemState
  lawful : Bool
  legal : Bool
  fresh : Bool

namespace StateHistory

def init : StateHistory := ⟨.idle, fun _ ↦ .idle, true, true, true⟩

def next (h : StateHistory) : Option NodeThread → StateAct → StateHistory
  | some t, .copy s => { h with copied := Function.update h.copied t s }
  | some t, .write s =>
    { h with
      value := s
      lawful := h.lawful && decide (s ∈ transitions t (h.copied t))
      legal := h.legal && decide (s ∈ transitions t h.value)
      fresh := h.fresh && decide (h.copied t = h.value) }
  | none, _ => h

def of (tr : List NodeLabel) : StateHistory :=
  tr.foldl (fun h l ↦ (stateAct? l).elim h (h.next l.by?)) init

variable {tr : List NodeLabel} {l : NodeLabel} {a : StateAct}

theorem of_append_of_none (ha : stateAct? l = none) : of (tr ++ [l]) = of tr := by
  simp [of, ha]

theorem of_append_of_some (ha : stateAct? l = some a) :
    of (tr ++ [l]) = (of tr).next l.by? a := by
  simp [of, ha]

end StateHistory

/-- A write is a transition of the state machine from the value it replaces. -/
def Transition (pre : List NodeLabel) (l : NodeLabel) : Prop :=
  ∀ t s, l.by? = some t → stateAct? l = some (.write s) →
    s ∈ transitions t (StateHistory.of pre).value

/-- A write finds `sys_state` as its thread has copied it. -/
def Undisturbed (pre : List NodeLabel) (l : NodeLabel) : Prop :=
  ∀ t s, l.by? = some t → stateAct? l = some (.write s) →
    (StateHistory.of pre).copied t = (StateHistory.of pre).value

section Records

variable {tr : List NodeLabel} {l : NodeLabel} {s : SystemState} {t : NodeThread}

theorem of_not_write (tr : List NodeLabel) (h : ∀ s, stateAct? l ≠ some (.write s)) :
    Transition tr l ∧ Undisturbed tr l :=
  ⟨fun _ s _ hs ↦ absurd hs (h s), fun _ s _ hs ↦ absurd hs (h s)⟩

theorem of_write (ht : l.by? = some t) (ha : stateAct? l = some (.write s)) :
    (Transition tr l ↔ s ∈ transitions t (StateHistory.of tr).value)
      ∧ (Undisturbed tr l ↔ (StateHistory.of tr).copied t = (StateHistory.of tr).value) := by
  refine ⟨⟨fun h ↦ h t s ht ha, fun h t' s' ht' ha' ↦ ?_⟩,
    fun h ↦ h t s ht ha, fun h t' s' ht' _ ↦ ?_⟩
  · obtain rfl : t = t' := Option.some.inj (ht.symm.trans ht')
    obtain rfl : s = s' := StateAct.write.inj (Option.some.inj (ha.symm.trans ha'))
    exact h
  · obtain rfl : t = t' := Option.some.inj (ht.symm.trans ht')
    exact h

/-- After an accepted press the loop goes on as it does from `STATE_EXIT_REQUESTED`. -/
theorem Transition.of_exitRequested (h : Transition tr l)
    (hvalue : (StateHistory.of tr).value = .exitRequested) (ht : l.by? = some t)
    (ha : stateAct? l = some (.write s)) :
    t = .main ∧ (s = .exitVehicleDetected ∨ s = .exitRequested ∨ s = .idle) := by
  have hs := h t s ht ha
  rw [hvalue] at hs
  cases t with
  | main => exact ⟨rfl, by simpa [transitions, loopTransitions] using hs⟩
  | switch => cases hs

/-- No press replaces a state of an entry. -/
theorem Transition.ne_exitRequested (h : Transition tr l)
    (hvalue : (StateHistory.of tr).value = .entryDetected
      ∨ (StateHistory.of tr).value = .entryWaiting)
    (ht : l.by? = some t) (ha : stateAct? l = some (.write s)) : s ≠ .exitRequested := by
  have hs := h t s ht ha
  rintro rfl
  rcases hvalue with hvalue | hvalue <;> rw [hvalue] at hs <;> cases t
  all_goals exact absurd hs (by decide)

theorem by?_of_stateAct {a : StateAct} (ha : stateAct? l = some a) : ∃ t, l.by? = some t := by
  cases l with
  | op t o r => exact ⟨t, rfl⟩
  | _ => cases ha

/-- What `legal` and `fresh` record. -/
theorem StateHistory.records (tr : List NodeLabel) :
    ((StateHistory.of tr).legal = true ↔ Always Transition tr)
      ∧ ((StateHistory.of tr).fresh = true ↔ Always Undisturbed tr) := by
  induction tr using List.reverseRecOn with
  | nil => exact ⟨iff_of_true rfl always_nil, iff_of_true rfl always_nil⟩
  | append_singleton tr l ih =>
    rw [always_append_singleton, always_append_singleton, ← ih.1, ← ih.2]
    cases ha : stateAct? l with
    | none =>
      obtain ⟨htransition, hundisturbed⟩ := of_not_write tr (l := l) (by simp [ha])
      rw [of_append_of_none ha]
      exact ⟨(and_iff_left htransition).symm, (and_iff_left hundisturbed).symm⟩
    | some a =>
      obtain ⟨t, ht⟩ := by?_of_stateAct ha
      rw [of_append_of_some ha, ht]
      cases a with
      | copy s =>
        obtain ⟨htransition, hundisturbed⟩ := of_not_write tr (l := l) (by simp [ha])
        exact ⟨(and_iff_left htransition).symm, (and_iff_left hundisturbed).symm⟩
      | write s =>
        rw [(of_write ht ha).1, (of_write ht ha).2]
        simp [next]

end Records

/-! ## What may come between a copy and a write -/

/-- The values that the other thread may have put in the place of what thread `t` has copied, as
long as every write was undisturbed. -/
def meanwhile : NodeThread → SystemState → List SystemState
  | .main, .idle => [.idle, .exitRequested]
  | .main, s => [s]
  | .switch, .idle => [.idle, .entryDetected, .entryWaiting]
  | .switch, _ => [.idle, .entryDetected, .entryWaiting, .exitRequested, .exitVehicleDetected,
    .exitVehicleWaiting]

theorem mem_meanwhile_self (t : NodeThread) (s : SystemState) : s ∈ meanwhile t s := by
  cases t <;> cases s <;> decide

theorem mem_transitions_switch {s x : SystemState} :
    x ∈ transitions .switch s ↔ s = .idle ∧ x = .exitRequested := by
  rw [transitions]
  split <;> simp [*]

/-- A write of the other thread stays within them. -/
theorem mem_meanwhile_of_transition {t u : NodeThread} {s v x : SystemState} (hu : u ≠ t)
    (hv : v ∈ meanwhile t s) (hx : x ∈ transitions u v) : x ∈ meanwhile t s := by
  cases t with
  | main =>
    obtain rfl : u = .switch := by
      cases u with
      | main => exact absurd rfl hu
      | switch => rfl
    obtain ⟨rfl, rfl⟩ := mem_transitions_switch.mp hx
    cases s with
    | idle => decide
    | _ => exact absurd hv (by decide)
  | switch =>
    obtain rfl : u = .main := by
      cases u with
      | main => rfl
      | switch => exact absurd rfl hu
    cases s with
    | idle =>
      -- the loop leaves these three only when a press has been written
      revert hv hx
      cases v <;> cases x <;> decide
    | _ => cases x <;> decide

/-- The first lost update is no transition: what a thread makes of its copy is a transition from
the value that is really there only if that is the copy. -/
theorem mem_transitions_iff {t : NodeThread} {s v x : SystemState} (hv : v ∈ meanwhile t s)
    (hx : x ∈ transitions t s) : x ∈ transitions t v ↔ s = v := by
  cases t with
  | main =>
    cases s with
    | idle =>
      obtain rfl : x = .entryDetected := List.mem_singleton.mp hx
      revert hv
      cases v <;> decide
    | _ =>
      obtain rfl := List.mem_singleton.mp hv
      exact iff_of_true hx rfl
  | switch =>
    obtain ⟨rfl, rfl⟩ := mem_transitions_switch.mp hx
    rw [mem_transitions_switch]
    exact ⟨fun h ↦ h.1.symm, fun h ↦ ⟨h.symm, rfl⟩⟩

/-! ## The invariant -/

/-- The history and the variable itself. -/
structure StateBoard extends StateHistory where
  sysState : SystemState

namespace StateBoard

def next (b : StateBoard) (u : Option NodeThread) (a : StateAct) : StateBoard where
  toStateHistory := b.toStateHistory.next u a
  sysState := match a with
    | .copy _ => b.sysState
    | .write s => s

def ofSnap (s : NodeSnap) : StateBoard := ⟨.of s.trace, s.state.sysState⟩

/-- Every write is one that its thread makes from what it has copied, and it is a transition if and
only if it finds the copy. -/
structure Sound (b : StateBoard) : Prop where
  value : b.value = b.sysState
  lawful : b.lawful = true
  agree : b.legal = b.fresh

/-- Thread `t` has copied `s`, and acts on it. -/
def Pending (t : NodeThread) (s : SystemState) (b : StateBoard) : Prop :=
  b.copied t = s ∧ (b.fresh = true → b.value ∈ meanwhile t s)

end StateBoard

/-- What an operation does to `sys_state`. -/
def StateAct.apply : Option StateAct → SystemState → SystemState
  | some (.write x), _ => x
  | _, s => s

theorem sysState_of_emits {s x : Node} {l : NodeLabel} (hx : nodeMachine.Emits s l x) :
    x.sysState = StateAct.apply (stateAct? l) s.sysState := by
  cases l with
  | start t j =>
    obtain ⟨p, hentry⟩ := hx
    cases t <;> obtain ⟨-, rfl⟩ := Prod.mk.inj (Option.some.inj hentry) <;> rfl
  | op t o r =>
    cases o with
    | inl o =>
      obtain ⟨c, -, rfl⟩ := Option.map_eq_some_iff.mp hx
      rfl
    | inr o =>
      obtain ⟨-, hx⟩ := Option.ite_none_right_eq_some.mp hx
      obtain rfl := Option.some.inj hx
      cases o <;> rfl
  | ext e => exact e.elim

def stateBoard : Board nodeMachine StateAct StateBoard where
  act? := stateAct?
  view := StateBoard.ofSnap
  next := StateBoard.next
  view_of_none {s l x} hx ha := by
    rw [StateBoard.ofSnap, StateBoard.ofSnap, Snap.log_trace, StateHistory.of_append_of_none ha,
      Snap.log_state, sysState_of_emits hx, ha]
    rfl
  view_of_some {s l x a} hx ha := by
    rw [StateBoard.ofSnap, Snap.log_trace, StateHistory.of_append_of_some ha, Snap.log_state,
      sysState_of_emits hx, ha]
    cases a <;> rfl

abbrev stateOutline : Outline nodeMachine := stateBoard.outline StateBoard.Sound

namespace StateBoard

variable {b : StateBoard} {t u : NodeThread} {s x : SystemState}

/-- What a sound board says of a write. -/
theorem Sound.of_write (h : (b.next (some u) (.write x)).Sound) :
    x ∈ transitions u (b.copied u)
      ∧ ((b.next (some u) (.write x)).fresh = true → b.fresh = true ∧ b.copied u = b.value) := by
  have hlawful : (b.lawful && decide (x ∈ transitions u (b.copied u))) = true := h.lawful
  refine ⟨of_decide_eq_true (Bool.and_eq_true_iff.mp hlawful).2, fun hfresh ↦ ?_⟩
  obtain ⟨hbefore, hnow⟩ := Bool.and_eq_true_iff.mp hfresh
  exact ⟨hbefore, of_decide_eq_true hnow⟩

/-- What the other thread does leaves a copy pending. -/
theorem Pending.next {w : Option NodeThread} {a : StateAct} (h : b.Pending t s)
    (hb : (b.next w a).Sound) (hw : w ≠ some t) : (b.next w a).Pending t s := by
  obtain ⟨hcopied, hvalue⟩ := h
  cases w with
  | none => exact ⟨hcopied, hvalue⟩
  | some u =>
    have hu : t ≠ u := fun h ↦ hw (congrArg some h.symm)
    cases a with
    | copy x => exact ⟨(Function.update_of_ne hu _ _).trans hcopied, hvalue⟩
    | write x =>
      obtain ⟨hx, hfresh⟩ := hb.of_write
      refine ⟨hcopied, fun h ↦ ?_⟩
      obtain ⟨hbefore, hfound⟩ := hfresh h
      rw [hfound] at hx
      exact mem_meanwhile_of_transition hu.symm (hvalue hbefore) hx

theorem Sound.copy (h : b.Sound) : (b.next (some t) (.copy b.sysState)).Sound
    ∧ (b.next (some t) (.copy b.sysState)).Pending t b.sysState := by
  refine ⟨⟨h.value, h.lawful, h.agree⟩, Function.update_self _ _ _, fun _ ↦ ?_⟩
  change b.value ∈ _
  rw [h.value]
  exact mem_meanwhile_self t _

/-- A thread writes what it makes of its copy. -/
theorem Sound.write (h : b.Sound) (hp : b.Pending t s) (hx : x ∈ transitions t s) :
    (b.next (some t) (.write x)).Sound := by
  obtain ⟨rfl, hvalue⟩ := hp
  refine ⟨rfl, ?_, ?_⟩
  · exact Bool.and_eq_true_iff.mpr ⟨h.lawful, decide_eq_true hx⟩
  · change (b.legal && decide (x ∈ transitions t b.value))
      = (b.fresh && decide (b.copied t = b.value))
    rw [h.agree]
    cases hfresh : b.fresh with
    | false => rfl
    | true => rw [decide_eq_decide.mpr (mem_transitions_iff (hvalue hfresh) hx)]

end StateBoard

/-! ## The threads -/

/-- Thread `t` has copied `s`, and acts on it. -/
def pending (t : NodeThread) (s : SystemState) : stateOutline.Assertion t :=
  stateBoard.assert _ t (StateBoard.Pending t s) fun _ _ _ _ hb hu h ↦ h.next hb hu

/-- Operations that neither copy nor write `sys_state`. -/
def Quiet : NodeOp → Prop
  | .inr .copyState | .inr .copyStateNow | .inr (.writeState _ _) | .inr (.writeStateNow _) => False
  | _ => True

theorem stateAct_of_quiet {t : NodeThread} {o : NodeOp} (ho : Quiet o) (r : NodeResp o) :
    stateAct? (.op t o r) = none := by
  cases o with
  | inl o => rfl
  | inr o => cases o <;> first | rfl | exact ho.elim

section Rules

variable {t : NodeThread} {s x : SystemState}

/-- An operation that copies `sys_state`. -/
theorem copy_rule {P : stateOutline.Assertion t} {o : MainOp} (f : o.Resp → SystemState)
    (hact : ∀ r, stateAct? (.op t (.inr o) r) = some (.copy (f r)))
    (hanswer : ∀ r (n : Node), o.Answers r n → f r = n.sysState) :
    stateOutline.Triple t P (nodePerform o) fun r ↦ pending t (f r) := by
  refine Board.act (W := stateBoard) (o := .inr o) (fun r ↦ .copy (f r)) hact
    fun n r y hsound _ hexec hview ↦ ?_
  have hr : f r = n.state.sysState := hanswer r _ (Option.ite_none_right_eq_some.mp hexec).1
  obtain ⟨hcopied, hpending⟩ := hsound.copy (t := t)
  rw [hr]
  rw [hr] at hview
  exact ⟨hcopied, show StateBoard.Pending t _ (stateBoard.view _) from hview ▸ hpending⟩

/-- An operation that writes `sys_state`. -/
theorem write_rule {o : MainOp} (hact : ∀ r, stateAct? (.op t (.inr o) r) = some (.write x))
    (hx : x ∈ transitions t s) :
    stateOutline.Triple t (pending t s) (nodePerform o) fun _ ↦ .top :=
  Board.act (W := stateBoard) (o := .inr o) (fun _ ↦ .write x) hact
    fun _ _ _ hsound hpending _ _ ↦ ⟨hsound.write hpending hx, trivial⟩

theorem quiet_rule {α : Type} {P : stateOutline.Assertion t} {p : NodeProg α}
    (hP : Board.About P) (hp : p.Uses Quiet) : stateOutline.Triple t P p fun _ ↦ P :=
  Board.quiet_program hP hp fun _ ho r ↦ stateAct_of_quiet ho r

theorem pending_about : Board.About (pending t s) := Board.about_assert

end Rules

/-! ## The controller is quiet -/

theorem uses_inl {α : Type} (p : CtlProg α) : (p.inl : NodeProg α).Uses Quiet :=
  Prog.uses_inl (Prog.uses_of_forall (fun _ ↦ trivial) p)

theorem nextPhase_uses : nextPhase.Uses Quiet := ⟨trivial, fun _ ↦ ⟨trivial, fun _ ↦ trivial⟩⟩

theorem ultrasonicMeasureCm_uses : ultrasonicMeasureCm.Uses Quiet :=
  ⟨trivial, fun echo ↦ by cases echo <;> trivial⟩

theorem closeVehicleCheck_uses : closeVehicleCheck.Uses Quiet := by
  refine Prog.uses_bind nextPhase_uses fun phase ↦ ?_
  refine Prog.uses_bind (p := nodePerform (.setBuzzer _)) ⟨trivial, fun _ ↦ trivial⟩ fun _ ↦ ?_
  refine Prog.uses_bind ultrasonicMeasureCm_uses fun d ↦ Prog.uses_ite (fun _ ↦ trivial) fun _ ↦ ?_
  refine ⟨trivial, fun flag ↦ ?_⟩
  cases flag with
  | true => exact ⟨trivial, fun _ ↦ trivial⟩
  | false => trivial

/-! ## The threads -/

section Threads

variable {s x : SystemState}

/-- What comes after a write. -/
theorem after_rule {t : NodeThread} {P : stateOutline.Assertion t} {p : NodeProg Unit}
    (hp : p.Uses Quiet) : stateOutline.Triple t P p fun _ ↦ .top :=
  .pre (fun _ _ _ ↦ trivial) (quiet_rule Board.about_top hp)

theorem write_main (timer : Option ℤ) (hx : x ∈ loopTransitions s) :
    stateOutline.Triple .main (pending .main s) (nodePerform (.writeState x timer))
      fun _ ↦ .top :=
  write_rule (o := .writeState x timer) (fun _ ↦ rfl) hx

theorem closeOr_rule (hx : x ∈ loopTransitions s) (hidle : .idle ∈ loopTransitions s) :
    stateOutline.Triple .main (pending .main s) (closeOr x) fun _ ↦ .top := by
  refine .bind (quiet_rule pending_about ⟨trivial, fun _ ↦ trivial⟩) fun _ ↦ ?_
  refine .bind (quiet_rule pending_about (gateCloseInterruptible_uses (fun _ ↦ trivial)
    closeVehicleCheck_uses))
    fun r ↦ .ite (fun _ ↦ ?_) fun _ ↦ ?_
  · refine .bind (quiet_rule pending_about ⟨trivial, fun _ ↦ trivial⟩) fun freshNow ↦ ?_
    exact .bind (write_main _ hx) fun _ ↦ after_rule ⟨trivial, fun _ ↦ trivial⟩
  · exact .bind (write_main _ hidle) fun _ ↦ after_rule ⟨trivial, fun _ ↦ trivial⟩

theorem closeAfter_rule (delaySec now : ℤ) (hx : x ∈ loopTransitions s)
    (hidle : .idle ∈ loopTransitions s) :
    stateOutline.Triple .main (pending .main s) (closeAfter delaySec x now) fun _ ↦ .top := by
  refine .bind (quiet_rule pending_about ⟨trivial, fun _ ↦ trivial⟩) fun stateTimer ↦ ?_
  exact .ite (fun _ ↦ closeOr_rule hx hidle) fun _ ↦ after_rule trivial

theorem whenDetected_rule (dist : ℚ) (now : ℤ) (hx : x ∈ loopTransitions s) :
    stateOutline.Triple .main (pending .main s) (whenDetected x dist now) fun _ ↦ .top :=
  .ite (fun _ ↦ write_main _ hx) fun _ ↦ after_rule trivial

theorem whenWaiting_rule (dist : ℚ) (now : ℤ) (hx : x ∈ loopTransitions s)
    (hidle : .idle ∈ loopTransitions s) :
    stateOutline.Triple .main (pending .main s) (whenWaiting x dist now) fun _ ↦ .top :=
  .ite (fun _ ↦ write_main _ hx) fun _ ↦ closeAfter_rule _ now hx hidle

/-- Every branch writes what the state machine makes of the state that was copied. -/
theorem dispatch_rule (s : SystemState) (dist : ℚ) (now : ℤ) :
    stateOutline.Triple .main (pending .main s) (dispatch s dist now) fun _ ↦ .top := by
  cases s with
  | idle =>
    refine .ite (fun _ ↦ ?_) fun _ ↦ after_rule trivial
    refine .bind (write_main _ (by decide)) fun _ ↦ after_rule ?_
    exact Prog.uses_bind (uses_inl _) fun _ ↦ ⟨trivial, fun _ ↦ ⟨trivial, fun _ ↦ trivial⟩⟩
  | entryDetected | exitVehicleDetected => exact whenDetected_rule dist now (by decide)
  | entryWaiting | exitVehicleWaiting => exact whenWaiting_rule dist now (by decide) (by decide)
  | exitRequested =>
    refine .ite (fun _ ↦ write_main _ (by decide)) fun _ ↦ ?_
    exact closeAfter_rule _ now (by decide) (by decide)

theorem signal_rule : stateOutline.Triple .main .top signal fun _ ↦ .top := by
  refine .bind (copy_rule (o := .copyState) id (fun _ ↦ rfl) fun _ _ h ↦ h) fun curS ↦ after_rule ?_
  refine Prog.uses_ite (fun _ ↦ ?_) fun _ ↦ ?_
  · exact Prog.uses_bind nextPhase_uses fun _ ↦ ⟨trivial, fun _ ↦ ⟨trivial, fun _ ↦ trivial⟩⟩
  · exact ⟨trivial, fun _ ↦ ⟨trivial, fun _ ↦ ⟨trivial, fun _ ↦ trivial⟩⟩⟩

theorem mainPass_rule : stateOutline.Triple .main .top mainPass fun _ ↦ .top := by
  refine .bind (quiet_rule Board.about_top ultrasonicMeasureCm_uses) fun dist ↦ ?_
  refine .bind (copy_rule (o := .copyStateNow) Prod.fst (fun _ ↦ rfl) fun _ _ h ↦ h) fun r ↦ ?_
  exact .bind (dispatch_rule r.1 dist r.2) fun _ ↦ signal_rule

theorem onSwitchPress_rule : stateOutline.Triple .switch .top onSwitchPress fun _ ↦ .top := by
  refine .bind (copy_rule (o := .copyState) id (fun _ ↦ rfl) fun _ _ h ↦ h) fun s ↦ ?_
  refine .ite (fun _ ↦ after_rule ⟨trivial, fun _ ↦ trivial⟩) fun _ ↦ ?_
  refine .ite (fun _ ↦ after_rule ⟨trivial, fun _ ↦ trivial⟩) fun _ ↦ .ite (fun hs ↦ ?_) fun _ ↦
    after_rule trivial
  have hwrite : stateOutline.Triple .switch (pending .switch s)
      (nodePerform (.writeStateNow .exitRequested)) fun _ ↦ .top :=
    write_rule (o := .writeStateNow .exitRequested) (fun _ ↦ rfl)
      (mem_transitions_switch.mpr ⟨hs, rfl⟩)
  refine .bind hwrite fun _ ↦ after_rule ?_
  exact Prog.uses_bind (uses_inl _) fun _ ↦ ⟨trivial, fun _ ↦ ⟨trivial, fun _ ↦ trivial⟩⟩

end Threads

/-! ## Every run -/

theorem stateOutline_valid : stateOutline.Valid fun _ ↦ .top := by
  refine Board.valid (fun {_ e} ↦ e.elim) (fun _ _ ↦ rfl) (fun _ ↦ Board.about_top) ?_
  intro t j s p x hentry
  cases t with
  | main =>
    obtain ⟨rfl, -⟩ := Prod.mk.inj (Option.some.inj hentry)
    exact mainPass_rule
  | switch =>
    obtain ⟨rfl, -⟩ := Prod.mk.inj (Option.some.inj hentry)
    exact onSwitchPress_rule

theorem stateSound_of_reachable {c : NodeConfig} (hc : NodeReachable c) :
    (StateBoard.ofSnap c.toSnap).Sound :=
  (Board.sound stateOutline_valid ⟨rfl, rfl, rfl⟩ (fun _ ↦ trivial) hc).1

/-- **When no update is lost.** Every write of `sys_state` is a transition of the state machine from
the value it replaces if and only if every write finds the value that its thread has copied. -/
theorem no_lost_update_iff {c : NodeConfig} (hc : NodeReachable c) :
    Always Transition c.trace ↔ Always Undisturbed c.trace := by
  obtain ⟨hlegal, hfresh⟩ := StateHistory.records c.trace
  have hagree : (StateHistory.of c.trace).legal = (StateHistory.of c.trace).fresh :=
    (stateSound_of_reachable hc).agree
  rw [← hlegal, ← hfresh, hagree]

/-! ## Jobs that nothing interrupts -/

abbrev NodeMay {α : Type} (t : NodeThread) (p : NodeProg α) (Q : α → NodeSnap → Prop)
    (s : NodeSnap) : Prop :=
  nodeMachine.May t p Q s

/-- A label of nothing that the state machine goes by. -/
def Silent : NodeLabel → Prop
  | .op _ (.inl _) _ => True
  | .op _ (.inr (.loadPhase)) _ | .op _ (.inr (.storePhase _)) _ | .op _ (.inr (.setBuzzer _)) _
  | .op _ (.inr (.setEntryLed _)) _ | .op _ (.inr (.storeCloseFlag _)) _
  | .op _ (.inr (.publishEvent _ _)) _ | .op _ (.inr (.publishState _)) _ => True
  | _ => False

theorem stateAct_of_silent {l : NodeLabel} (h : Silent l) : stateAct? l = none := by
  rcases l with _ | ⟨_, o | o, _⟩ | _
  · rfl
  · rfl
  · cases o <;> first | rfl | exact h.elim
  · rfl

/-- What has come since `s` makes no difference to the state machine. -/
structure Aside (s s' : NodeSnap) : Prop where
  sysState : s'.state.sysState = s.state.sysState
  stateTimer : s'.state.stateTimer = s.state.stateTimer
  trace : ∃ tr, s'.trace = s.trace ++ tr ∧ ∀ l ∈ tr, Silent l

namespace Aside

variable {s s' s'' : NodeSnap}

theorem refl (s : NodeSnap) : Aside s s := ⟨rfl, rfl, [], by simp, by simp⟩

theorem trans (h : Aside s s') (h' : Aside s' s'') : Aside s s'' := by
  obtain ⟨tr, htr, hsilent⟩ := h.trace
  obtain ⟨tr', htr', hsilent'⟩ := h'.trace
  refine ⟨h'.sysState.trans h.sysState, h'.stateTimer.trans h.stateTimer, tr ++ tr', ?_, ?_⟩
  · rw [htr', htr, List.append_assoc]
  · exact List.forall_mem_append.mpr ⟨hsilent, hsilent'⟩

/-- One more operation of the controller. -/
theorem ctl {k : Controller} {t : NodeThread} {o : CtlOp} {r : o.Resp} (h : Aside s s') :
    Aside s (s'.log { s'.state with controller := k } (.op t (.inl o) r)) :=
  h.trans ⟨rfl, rfl, _, rfl, List.forall_mem_singleton.mpr trivial⟩

/-- One more operation beside, which changes neither `sys_state` nor its timer. -/
theorem node {x : Node} {t : NodeThread} {o : MainOp} {r : o.Resp} (h : Aside s s')
    (hsilent : Silent (.op t (.inr o) r)) (hstate : x.sysState = s'.state.sysState)
    (htimer : x.stateTimer = s'.state.stateTimer) : Aside s (s'.log x (.op t (.inr o) r)) :=
  h.trans ⟨hstate, htimer, _, rfl, List.forall_mem_singleton.mpr hsilent⟩

end Aside

section Alone

variable {t : NodeThread} {s : NodeSnap}

theorem may_nodePerform {o : MainOp} (r : o.Resp) {Q : o.Resp → NodeSnap → Prop}
    (h : o.Answers r s.state) (hQ : Q r (s.log (o.effect r s.state) (.op t (.inr o) r))) :
    NodeMay t (nodePerform o) Q s :=
  Machine.May.call (M := nodeMachine) (o := Sum.inr o) r (if_pos h) hQ

theorem may_ctlPerform {o : CtlOp} (r : o.Resp) {Q : o.Resp → NodeSnap → Prop}
    (h : o.Answers r s.state.controller)
    (hQ : Q r (s.log { s.state with controller := o.effect s.state.controller }
      (.op t (.inl o) r))) : NodeMay t (ctlPerform o).inl Q s := by
  refine Machine.May.call (M := nodeMachine) (o := Sum.inl o) r ?_ hQ
  change (o.exec r s.state.controller).map _ = _
  rw [CtlOp.exec, if_pos h]
  rfl

theorem may_ultrasonicMeasureCm (echo : Option ℤ) {Q : ℚ → NodeSnap → Prop}
    (hQ : Q (cmOf echo) (s.log s.state (.op t (.inr .measure) echo))) :
    NodeMay t ultrasonicMeasureCm Q s := by
  refine .bind (may_nodePerform (o := .measure) echo trivial ?_)
  cases echo with
  | none => exact .ret hQ
  | some echoUs => exact .ret hQ

theorem may_steps (n : ℕ) (direction : ℤ) :
    NodeMay t (Prog.times n (ctlPerform (.stepperStep direction))).inl
      (fun _ s' ↦ Aside s s' ∧ s'.state.controller.gateMutex = s.state.controller.gateMutex) s := by
  induction n generalizing s with
  | zero => exact .ret ⟨.refl s, rfl⟩
  | succ n ih =>
    rw [Prog.times, Prog.inl_bind]
    refine .bind (may_ctlPerform (o := .stepperStep direction) () trivial ?_)
    refine ih.imp fun _ s' h ↦ ?_
    obtain ⟨haside, hmutex⟩ := h
    exact ⟨.trans (.ctl (.refl _)) haside, hmutex⟩

/-- A closed gate whose mutex is free is opened. -/
theorem may_gateOpen (hmutex : s.state.controller.gateMutex = false)
    (hclosed : s.state.controller.currentState = .closed) :
    NodeMay t gateOpen.inl (fun _ s' ↦ Aside s s' ∧ s'.state.controller.gateMutex = false
      ∧ s'.state.controller.currentState = .open) s := by
  rw [gateOpen, Prog.inl_bind]
  refine .bind (may_ctlPerform (o := .lockGate) () hmutex ?_)
  rw [Prog.inl_bind]
  refine .bind (may_ctlPerform (o := .readGate) .closed hclosed.symm ?_)
  rw [if_neg (by decide), stepperMove, Prog.inl_bind]
  refine .bind ((may_steps _ _).imp fun _ s₁ h ↦ ?_)
  obtain ⟨haside, -⟩ := h
  rw [Prog.inl_bind]
  refine .bind (may_ctlPerform (o := .deenergize) () trivial ?_)
  rw [Prog.inl_bind]
  refine .bind (may_ctlPerform (o := .writeGate .open) () trivial ?_)
  refine may_ctlPerform (o := .unlockGate) () trivial ⟨.ctl (.ctl (.ctl ?_)), rfl, rfl⟩
  exact .trans (.ctl (.ctl (.refl _))) haside

/-- Buzzer and LED make no difference, whether the gate is in use or not. -/
theorem may_signal : NodeMay .main signal (fun _ s' ↦
    Aside (s.log s.state (.op .main (.inr .copyState) s.state.sysState)) s'
      ∧ s'.state.controller = s.state.controller) s := by
  refine .bind (may_nodePerform (o := .copyState) s.state.sysState rfl ?_)
  by_cases hs : s.state.sysState = .idle
  · rw [if_neg (not_not.mpr hs)]
    refine .bind (may_nodePerform (o := .storePhase 9) () trivial ?_)
    refine .bind (may_nodePerform (o := .setBuzzer false) () trivial ?_)
    refine may_nodePerform (o := .setEntryLed false) () trivial ⟨.node ?_ trivial rfl rfl, rfl⟩
    exact .node (.node (.refl _) trivial rfl rfl) trivial rfl rfl
  · rw [if_pos hs]
    refine .bind (.bind (may_nodePerform (o := .loadPhase) s.state.buzzerPhase rfl ?_))
    refine .bind (may_nodePerform (o := .storePhase _) () trivial (.ret ?_))
    refine .bind (may_nodePerform (o := .setBuzzer _) () trivial ?_)
    refine may_nodePerform (o := .setEntryLed _) () trivial ⟨.node ?_ trivial rfl rfl, rfl⟩
    exact .node (.node (.node (.refl _) trivial rfl rfl) trivial rfl rfl) trivial rfl rfl

end Alone

/-- The labels of a pass that makes `x` of `s`; those in `tr` and `tr'` make no difference. -/
def passed (s : SystemState) (echo : Option ℤ) (now : ℤ) (x : SystemState) (timer : Option ℤ)
    (tr tr' : List NodeLabel) : List NodeLabel :=
  [.start .main (), .op .main (.inr .measure) echo, .op .main (.inr .copyStateNow) (s, now),
    .op .main (.inr (.writeState x timer)) ()] ++ tr ++ .op .main (.inr .copyState) x :: tr'

/-- The labels of a pass in which a node at rest sees nothing, up to its signals. -/
def stillPassed (now : ℤ) : List NodeLabel :=
  [.start .main (), .op .main (.inr .measure) none, .op .main (.inr .copyStateNow) (.idle, now),
    .op .main (.inr .copyState) .idle]

/-- The labels of a press while a vehicle is coming in. -/
def pressedEntry : List NodeLabel :=
  [.start .switch (), .op .switch (.inr .copyState) .entryDetected,
    .op .switch (.inr (.storeCloseFlag true)) ()]

/-- The labels of a press up to its write. -/
def pressed (now : ℤ) : List NodeLabel :=
  [.start .switch (), .op .switch (.inr .copyState) .idle,
    .op .switch (.inr (.writeStateNow .exitRequested)) now]

section Jobs

variable {c : NodeConfig} {s x : SystemState} {echo timer : Option ℤ}

/-- A pass that writes, with what it does then. -/
theorem steps_of_pass {rest : NodeProg Unit} {R : Controller → Prop} (now : ℤ)
    (hmain : c.thread .main = none) (hstate : c.state.sysState = s)
    (hdispatch : dispatch s (cmOf echo) now = nodePerform (.writeState x timer) >>= fun _ ↦ rest)
    (hrest : ∀ s : NodeSnap, s.state.controller = c.state.controller →
      NodeMay .main rest (fun _ s' ↦ Aside s s' ∧ R s'.state.controller) s) :
    ∃ c', nodeMachine.Steps c c' ∧ c'.thread = c.thread ∧ c'.state.sysState = x
      ∧ c'.state.stateTimer = timer.getD c.state.stateTimer ∧ R c'.state.controller
      ∧ ∃ tr tr', c'.trace = c.trace ++ passed s echo now x timer tr tr'
        ∧ (∀ l ∈ tr, Silent l) ∧ ∀ l ∈ tr', Silent l := by
  refine Machine.May.steps (M := nodeMachine) (t := .main) (j := ()) (p := mainPass)
    (Q := fun _ s' ↦ s'.state.sysState = x ∧ s'.state.stateTimer = timer.getD c.state.stateTimer
      ∧ R s'.state.controller ∧ ∃ tr tr', s'.trace = c.trace ++ passed s echo now x timer tr tr'
        ∧ (∀ l ∈ tr, Silent l) ∧ ∀ l ∈ tr', Silent l) ?_ hmain rfl
  refine .bind (may_ultrasonicMeasureCm echo ?_)
  refine .bind (may_nodePerform (o := .copyStateNow) (s, now) hstate.symm ?_)
  refine .bind ?_
  rw [hdispatch]
  refine .bind (may_nodePerform (o := .writeState x timer) () trivial ?_)
  refine Machine.May.imp (hrest _ ?_) fun _ s₁ h ↦ may_signal.imp fun _ s₂ h' ↦ ?_
  · rfl
  obtain ⟨haside, hR⟩ := h
  obtain ⟨hsignal, hcontroller⟩ := h'
  obtain ⟨tr, htr, hsilent⟩ := haside.trace
  obtain ⟨tr', htr', hsilent'⟩ := hsignal.trace
  have hx : s₁.state.sysState = x := haside.sysState
  refine ⟨hsignal.sysState.trans hx, hsignal.stateTimer.trans haside.stateTimer, hcontroller ▸ hR,
    tr, tr', ?_, hsilent, hsilent'⟩
  rw [htr', Snap.log_trace, htr, hx]
  simp [Snap.log, passed]

/-- A pass in which a node at rest sees nothing. -/
theorem steps_of_idle_pass (now : ℤ) (hmain : c.thread .main = none)
    (hstate : c.state.sysState = .idle) :
    ∃ c', nodeMachine.Steps c c' ∧ c'.thread = c.thread ∧ c'.state.sysState = .idle
      ∧ c'.state.controller = c.state.controller
      ∧ ∃ tr, c'.trace = c.trace ++ stillPassed now ++ tr
        ∧ ∀ l ∈ tr, Silent l := by
  refine Machine.May.steps (M := nodeMachine) (t := .main) (j := ()) (p := mainPass)
    (Q := fun _ s' ↦ s'.state.sysState = .idle ∧ s'.state.controller = c.state.controller
      ∧ ∃ tr, s'.trace = c.trace ++ stillPassed now ++ tr
        ∧ ∀ l ∈ tr, Silent l) ?_ hmain rfl
  refine .bind (may_ultrasonicMeasureCm none ?_)
  refine .bind (may_nodePerform (o := .copyStateNow) (.idle, now) hstate.symm ?_)
  refine .bind (.ret ?_)
  refine may_signal.imp fun _ s' h ↦ ?_
  obtain ⟨hsignal, hcontroller⟩ := h
  obtain ⟨tr, htr, hsilent⟩ := hsignal.trace
  refine ⟨hsignal.sysState.trans hstate, hcontroller, tr, ?_, hsilent⟩
  rw [htr]
  simp [Snap.log, hstate, MainOp.effect, stillPassed]

/-- A press that an idle gate accepts. -/
theorem steps_of_press (now : ℤ) (hswitch : c.thread .switch = none)
    (hstate : c.state.sysState = .idle) (hmutex : c.state.controller.gateMutex = false)
    (hclosed : c.state.controller.currentState = .closed) :
    ∃ c', nodeMachine.Steps c c' ∧ c'.thread = c.thread ∧ c'.state.sysState = .exitRequested
      ∧ c'.state.stateTimer = now ∧ c'.state.controller.currentState = .open
      ∧ ∃ tr, c'.trace = c.trace ++ pressed now ++ tr ∧ ∀ l ∈ tr, Silent l := by
  refine Machine.May.steps (M := nodeMachine) (t := .switch) (j := ()) (p := onSwitchPress)
    (Q := fun _ s' ↦ s'.state.sysState = .exitRequested ∧ s'.state.stateTimer = now
      ∧ s'.state.controller.currentState = .open
      ∧ ∃ tr, s'.trace = c.trace ++ pressed now ++ tr ∧ ∀ l ∈ tr, Silent l) ?_ hswitch rfl
  refine .bind (may_nodePerform (o := .copyState) .idle hstate.symm ?_)
  rw [if_neg (by decide), if_neg (by decide), if_pos rfl]
  refine .bind (may_nodePerform (o := .writeStateNow .exitRequested) now trivial ?_)
  refine .bind (Machine.May.imp (may_gateOpen (by exact hmutex) (by exact hclosed)) fun _ s₁ h ↦ ?_)
  obtain ⟨haside, -, hopen⟩ := h
  refine .bind (may_nodePerform (o := .publishEvent _ _) () trivial ?_)
  refine may_nodePerform (o := .publishState _) () trivial ?_
  obtain ⟨tr, htr, hsilent⟩ := haside.trace
  refine ⟨haside.sysState, haside.stateTimer, hopen,
    tr ++ [.op .switch (.inr (.publishEvent "EXIT_OPEN" "switch_pressed")) (),
      .op .switch (.inr (.publishState "OPEN")) ()],
    ?_, List.forall_mem_append.mpr ⟨hsilent, by simp [Silent]⟩⟩
  simp [Snap.log, htr, pressed]

/-- A press while a vehicle is coming in. -/
theorem steps_of_press_entry (hswitch : c.thread .switch = none)
    (hstate : c.state.sysState = .entryDetected) :
    ∃ c', nodeMachine.Steps c c' ∧ c'.thread = c.thread ∧ c'.state.sysState = .entryDetected
      ∧ c'.state.controller = c.state.controller ∧ c'.state.switchCloseFlag = true
      ∧ c'.trace = c.trace ++ pressedEntry := by
  refine Machine.May.steps (M := nodeMachine) (t := .switch) (j := ()) (p := onSwitchPress)
    (Q := fun _ s' ↦ s'.state.sysState = .entryDetected
      ∧ s'.state.controller = c.state.controller ∧ s'.state.switchCloseFlag = true
      ∧ s'.trace = c.trace ++ pressedEntry) ?_ hswitch rfl
  refine .bind (may_nodePerform (o := .copyState) .entryDetected hstate.symm ?_)
  rw [if_pos (.inl rfl)]
  refine may_nodePerform (o := .storeCloseFlag true) () trivial ⟨hstate, rfl, rfl, ?_⟩
  simp [Snap.log, pressedEntry]

end Jobs

namespace StateHistory

variable {tr tr' tr'' : List NodeLabel}

theorem of_append_silent (h : ∀ l ∈ tr', Silent l) : of (tr ++ tr') = of tr := by
  induction tr' using List.reverseRecOn with
  | nil => rw [List.append_nil]
  | append_singleton tr' l ih =>
    obtain ⟨hbefore, hl⟩ := List.forall_mem_append.mp h
    rw [← List.append_assoc, of_append_of_none (stateAct_of_silent (hl l (by simp))), ih hbefore]

/-- Nothing comes between the copy and the write of such a pass. -/
theorem fresh_passed {s : SystemState} (hvalue : (of tr).value = s) (echo : Option ℤ) (now : ℤ)
    (x : SystemState) (timer : Option ℤ) (htr' : ∀ l ∈ tr', Silent l)
    (htr'' : ∀ l ∈ tr'', Silent l) :
    (of (tr ++ passed s echo now x timer tr' tr'')).fresh = (of tr).fresh := by
  have hsplit : tr ++ passed s echo now x timer tr' tr''
      = tr ++ [.start .main (), .op .main (.inr .measure) echo,
          .op .main (.inr .copyStateNow) (s, now), .op .main (.inr (.writeState x timer)) ()]
        ++ tr' ++ [.op .main (.inr .copyState) x] ++ tr'' := by simp [passed]
  rw [hsplit, of_append_silent htr'', of_append_of_some (a := .copy x) rfl]
  change (of (tr ++ _ ++ tr')).fresh = _
  rw [of_append_silent htr']
  simp [of, next, stateAct?, Label.by?] at hvalue ⊢
  simp [hvalue]

theorem fresh_pressed (hvalue : (of tr).value = .idle) (now : ℤ) (htr' : ∀ l ∈ tr', Silent l) :
    (of (tr ++ pressed now ++ tr')).fresh = (of tr).fresh := by
  rw [of_append_silent htr']
  simp [of, next, stateAct?, Label.by?, pressed] at hvalue ⊢
  simp [hvalue]

end StateHistory

theorem value_of_reachable {c : NodeConfig} (hc : NodeReachable c) :
    (StateHistory.of c.trace).value = c.state.sysState :=
  (stateSound_of_reachable hc).value

theorem inRange_cm : InRange (cmOf (some 290)) := by decide +kernel

theorem gone_lost : Gone (cmOf none) := by decide +kernel

/-- Nothing is seen, then a press opens the gate, and a vehicle comes to leave. -/
theorem exists_exit : ∃ (c : NodeConfig) (tr₁ tr₂ tr₃ tr₄ : List NodeLabel), NodeReachable c
    ∧ Always Undisturbed c.trace ∧ c.thread .main = none
    ∧ c.state.sysState = .exitVehicleDetected ∧ c.state.controller.currentState = .open
    ∧ c.trace = stillPassed 0 ++ tr₁ ++ (pressed 3 ++ tr₂)
        ++ passed .exitRequested (some 290) 5 .exitVehicleDetected none tr₃ tr₄
    ∧ (∀ l ∈ tr₁, Silent l) ∧ (∀ l ∈ tr₂, Silent l) ∧ (∀ l ∈ tr₃, Silent l)
    ∧ ∀ l ∈ tr₄, Silent l := by
  obtain ⟨c₁, h₁, hthread₁, hstate₁, hcontroller₁, tr₁, htr₁, hsilent₁⟩ :=
    steps_of_idle_pass (c := .init .init) 0 rfl rfl
  obtain ⟨c₂, h₂, hthread₂, hstate₂, -, hopen, tr₂, htr₂, hsilent₂⟩ :=
    steps_of_press (c := c₁) 3 (by rw [hthread₁]; rfl) hstate₁ (by rw [hcontroller₁]; rfl)
      (by rw [hcontroller₁]; rfl)
  have hmain : c₂.thread .main = none := by
    rw [hthread₂, hthread₁]
    rfl
  have hdispatch : dispatch .exitRequested (cmOf (some 290)) 5
      = (nodePerform (.writeState .exitVehicleDetected none) >>= fun _ ↦ pure ()) := by
    rw [dispatch, whenExitRequested, if_pos inRange_cm]
    rfl
  obtain ⟨c₃, h₃, hthread₃, hstate₃, -, hopen', tr₃, tr₄, htr₃, hsilent₃, hsilent₄⟩ :=
    steps_of_pass (R := fun k ↦ k.currentState = .open) 5 hmain hstate₂ hdispatch
      fun s hs ↦ .ret ⟨.refl s, by rw [hs]; exact hopen⟩
  have htrace₁ : c₁.trace = stillPassed 0 ++ tr₁ := htr₁
  have hc₁ : NodeReachable c₁ := h₁
  have hc₂ : NodeReachable c₂ := hc₁.trans h₂
  have hfresh : (StateHistory.of c₃.trace).fresh = true := by
    rw [htr₃, StateHistory.fresh_passed ((value_of_reachable hc₂).trans hstate₂) _ _ _ _ hsilent₃
      hsilent₄, htr₂, StateHistory.fresh_pressed ((value_of_reachable hc₁).trans hstate₁) _
      hsilent₂, htrace₁, StateHistory.of_append_silent hsilent₁]
    rfl
  refine ⟨c₃, tr₁, tr₂, tr₃, tr₄, hc₂.trans h₃, (StateHistory.records _).2.mp hfresh, ?_, hstate₃,
    hopen', ?_, hsilent₁, hsilent₂, hsilent₃, hsilent₄⟩
  · rw [hthread₃, hmain]
  · rw [htr₃, htr₂, htrace₁, List.append_assoc (stillPassed 0 ++ tr₁)]

/-- A vehicle comes, and the gate is opened; the button is pressed; the vehicle is gone. -/
theorem exists_visit : ∃ (c : NodeConfig) (tr₁ tr₂ tr₃ tr₄ : List NodeLabel), NodeReachable c
    ∧ Always Undisturbed c.trace ∧ c.thread .main = none
    ∧ c.state.sysState = .entryWaiting ∧ c.state.controller.currentState = .open
    ∧ c.trace = passed .idle (some 290) 0 .entryDetected (some 0) tr₁ tr₂ ++ pressedEntry
        ++ passed .entryDetected none 7 .entryWaiting (some 7) tr₃ tr₄
    ∧ (∀ l ∈ tr₁, Silent l) ∧ (∀ l ∈ tr₂, Silent l) ∧ (∀ l ∈ tr₃, Silent l)
    ∧ ∀ l ∈ tr₄, Silent l := by
  have hopens : dispatch .idle (cmOf (some 290)) 0
      = (nodePerform (.writeState .entryDetected (some 0)) >>= fun _ ↦ gateOpen.inl >>= fun _ ↦
        nodePerform (.publishEvent "ENTRY_OPEN" "vehicle_detected") >>= fun _ ↦
        nodePerform (.publishState "OPEN")) := by
    rw [dispatch, whenIdle, if_pos inRange_cm]
  obtain ⟨c₁, h₁, hthread₁, hstate₁, -, hopen₁, tr₁, tr₂, htr₁, hsilent₁, hsilent₂⟩ :=
    steps_of_pass (c := .init .init) (R := fun k ↦ k.currentState = .open) 0 rfl rfl hopens
      fun s hs ↦ by
        refine .bind (Machine.May.imp (may_gateOpen (by rw [hs]; rfl) (by rw [hs]; rfl))
          fun _ s₁ h ↦ ?_)
        obtain ⟨haside, -, hopen⟩ := h
        refine .bind (may_nodePerform (o := .publishEvent _ _) () trivial ?_)
        refine may_nodePerform (o := .publishState _) () trivial ⟨?_, hopen⟩
        exact .node (.node haside trivial rfl rfl) trivial rfl rfl
  obtain ⟨c₂, h₂, hthread₂, hstate₂, hcontroller₂, -, htr₂⟩ :=
    steps_of_press_entry (c := c₁) (by rw [hthread₁]; rfl) hstate₁
  have hmain : c₂.thread .main = none := by
    rw [hthread₂, hthread₁]
    rfl
  have hgone : dispatch .entryDetected (cmOf none) 7
      = (nodePerform (.writeState .entryWaiting (some 7)) >>= fun _ ↦ pure ()) := by
    rw [dispatch, whenDetected, if_pos gone_lost]
    rfl
  obtain ⟨c₃, h₃, hthread₃, hstate₃, -, hopen₃, tr₃, tr₄, htr₃, hsilent₃, hsilent₄⟩ :=
    steps_of_pass (R := fun k ↦ k.currentState = .open) 7 hmain hstate₂ hgone
      fun s hs ↦ .ret ⟨.refl s, by rw [hs, hcontroller₂]; exact hopen₁⟩
  have htrace₁ : c₁.trace = [] ++ passed .idle (some 290) 0 .entryDetected (some 0) tr₁ tr₂ := htr₁
  have hc₂ : NodeReachable c₂ := .trans h₁ h₂
  have hidle : (StateHistory.of []).value = .idle := rfl
  have hpressed : (StateHistory.of (c₁.trace ++ pressedEntry)).fresh
      = (StateHistory.of c₁.trace).fresh := by
    simp [StateHistory.of, StateHistory.next, stateAct?, Label.by?, pressedEntry]
  have hfresh : (StateHistory.of c₃.trace).fresh = true := by
    rw [htr₃, StateHistory.fresh_passed ((value_of_reachable hc₂).trans hstate₂) _ _ _ _ hsilent₃
      hsilent₄, htr₂, hpressed, htrace₁, StateHistory.fresh_passed hidle _ _ _ _ hsilent₁ hsilent₂]
    rfl
  refine ⟨c₃, tr₁, tr₂, tr₃, tr₄, hc₂.trans h₃, (StateHistory.records _).2.mp hfresh, ?_, hstate₃,
    hopen₃, ?_, hsilent₁, hsilent₂, hsilent₃, hsilent₄⟩
  · rw [hthread₃, hmain]
  · rw [htr₃, htr₂, htrace₁, List.nil_append]

/-! ## A lost request -/

/-- The labels up to the decision of the main thread to let a vehicle in. -/
def decided : List NodeLabel :=
  [.start .main (), .op .main (.inr .measure) (some 290), .op .main (.inr .copyStateNow) (.idle, 0)]

/-- The write that follows. -/
theorem exists_write {c : NodeConfig} (hc : NodeReachable c)
    (hmain : c.thread .main = some (dispatch .idle (cmOf (some 290)) 0 >>= fun _ ↦ signal)) :
    ∃ c', NodeReachable c' ∧ c'.trace
      = c.trace ++ [.op .main (.inr (.writeState .entryDetected (some 0))) ()] := by
  rw [dispatch, whenIdle, if_pos inRange_cm] at hmain
  have hwrite : nodeMachine.exec (.inr (.writeState .entryDetected (some 0))) () c.state
      = some { c.state with sysState := .entryDetected, stateTimer := 0 } := rfl
  exact ⟨_, hc.tail (.op (t := .main) hmain hwrite), rfl⟩

/-- A press and a vehicle at the same time: the press is written between the copy and the write of
the main thread, which then replaces `STATE_EXIT_REQUESTED`. -/
theorem lost_request : ∃ c : NodeConfig, NodeReachable c ∧ ¬Always Transition c.trace := by
  obtain ⟨c, hc, hmain, htrace⟩ : ∃ c : NodeConfig, NodeReachable c
      ∧ c.thread .main = some (dispatch .idle (cmOf (some 290)) 0 >>= fun _ ↦ signal)
      ∧ c.trace = decided ++ pressed 0 :=
    ⟨_, .tail (.tail (.tail (.tail (.tail (.single (.start (t := .main) (j := ()) rfl rfl))
      (.op (t := .main) (o := .inr .measure) (r := some 290) rfl rfl))
      (.op (t := .main) (o := .inr .copyStateNow) (r := (.idle, 0)) rfl rfl))
      (.start (t := .switch) (j := ()) rfl rfl))
      (.op (t := .switch) (o := .inr .copyState) (r := SystemState.idle) rfl rfl))
      (.op (t := .switch) (o := .inr (.writeStateNow .exitRequested)) (r := (0 : ℤ)) rfl rfl),
      rfl, rfl⟩
  obtain ⟨c', hc', htrace'⟩ := exists_write hc hmain
  refine ⟨c', hc', fun h ↦ ?_⟩
  rw [htrace', htrace] at h
  have hlast : SystemState.entryDetected ∈ transitions .main .exitRequested :=
    (always_append_singleton.mp h).2 .main .entryDetected rfl rfl
  exact absurd hlast (by decide)

/-- A press that is handled between two passes is not lost. -/
theorem no_lost_update_exit : ∃ c : NodeConfig, Always Transition c.trace
    ∧ .op .switch (.inr (.writeStateNow .exitRequested)) (3 : ℤ) ∈ c.trace
    ∧ .op .main (.inr (.writeState .exitVehicleDetected none)) () ∈ c.trace
    ∧ c.state.sysState = .exitVehicleDetected := by
  obtain ⟨c, tr₁, tr₂, tr₃, tr₄, hc, hundisturbed, -, hstate, -, htr, -⟩ := exists_exit
  refine ⟨c, (no_lost_update_iff hc).mpr hundisturbed, ?_, ?_, hstate⟩
  · simp [htr, pressed]
  · simp [htr, passed]

end ParkingService.UserNode
