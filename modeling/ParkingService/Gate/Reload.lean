import ParkingService.Concurrency.Sessions
import ParkingService.Gate.Position

/-!
# Reloading the gate module

A load sets `current_state` to `STATE_IDLE` and knows nothing of the arm, which is where the last
unload has left it. `kthread_stop` lets the thread finish its turn, so the module is unloaded at the
top of the loop, in any of the six states, and nothing that `gate_node_exit` does afterwards moves
the arm: `gate_hw_cleanup` only cuts the coil current. In `STATE_IDLE` the arm is closed and the
next load is right about it. In the other five it is open, and the next load takes the open gate for
a closed one.

What is proved of one load with the gate closed carries over to one that finds the arm elsewhere:
the module cannot tell, and everything it does is moved by as much.
-/

namespace ParkingService

open Concurrency

/-! ## The life of the module -/

/-- Loaded and unloaded again and again, with the arm left where it is. -/
def gateLife : Lifecycle Unit Unit GateOp.Resp GateEvent GateState ℤ where
  machine := gateMachine
  boot position := { GateState.init with position := position }
  halt c position := AtLoopTop c ∧ c.state.position = position

abbrev GateLife := Life Unit Unit GateOp.Resp GateEvent GateState ℤ

/-- Unloaded in `STATE_IDLE` only. -/
def gateLifeIdle : Lifecycle Unit Unit GateOp.Resp GateEvent GateState ℤ :=
  gateLife.onlyIf fun c ↦ c.state.currentState = .idle

/-! ## The arm found elsewhere -/

/-- The arm `d` steps further up. -/
def GateState.raise (d : ℤ) (s : GateState) : GateState := { s with position := s.position + d }

theorem answers_raise {d : ℤ} {o : GateOp} {r : o.Resp} {s : GateState} :
    o.Answers r (s.raise d) ↔ o.Answers r s := by
  cases o <;> exact Iff.rfl

theorem effect_raise (d : ℤ) (o : GateOp) (s : GateState) :
    o.effect (s.raise d) = (o.effect s).raise d := by
  cases o with
  | openingStep => simp [GateOp.effect, GateState.openingStep, GateState.raise, Int.add_right_comm]
  | closingStep =>
    simp [GateOp.effect, GateState.closingStep, GateState.raise, Int.sub_eq_add_neg,
      Int.add_right_comm]
  | _ => rfl

/-- The module runs as it would with the arm anywhere else. -/
theorem steps_raise (d : ℤ) {c c' : GateConfig} (h : gateMachine.Steps c c') :
    gateMachine.Steps ⟨⟨c.state.raise d, c.trace⟩, c.thread⟩
      ⟨⟨c'.state.raise d, c'.trace⟩, c'.thread⟩ := by
  induction h with
  | refl => exact .refl
  | @tail c₁ c₂ _ hstep ih =>
    refine .tail ih ?_
    cases hstep with
    | start hidle hentry =>
      obtain ⟨rfl, rfl⟩ : stateMachineTurn = _ ∧ c₁.state = _ := by simpa [gateMachine] using hentry
      exact .start (c := ⟨⟨c₁.state.raise d, c₁.trace⟩, c₁.thread⟩) hidle rfl
    | @op t o k r x hrun hexec =>
      obtain ⟨hans, rfl⟩ := GateOp.exec_eq_some.mp hexec
      have hexec' : o.exec r (c₁.state.raise d) = some ((o.effect c₁.state).raise d) :=
        GateOp.exec_eq_some.mpr ⟨answers_raise.mpr hans, effect_raise d o c₁.state⟩
      exact .op (c := ⟨⟨c₁.state.raise d, c₁.trace⟩, c₁.thread⟩) hrun hexec'
    | finish hrun => exact .finish (c := ⟨⟨c₁.state.raise d, c₁.trace⟩, c₁.thread⟩) hrun
    | @ext e x hext =>
      have hext' : e.exec (c₁.state.raise d) = some (x.raise d) := by
        obtain ⟨rfl, rfl⟩ | ⟨rfl, rfl⟩ := GateEvent.exec_cases hext
        · rfl
        · simp [GateEvent.exec, gateDeviceRead_bridge, GateState.raise]
      exact .ext (c := ⟨⟨c₁.state.raise d, c₁.trace⟩, c₁.thread⟩) hext'

/-! ## Results -/

/-- At the top of the loop the gate is closed in `STATE_IDLE` and nowhere else. -/
theorem closed_iff_idle {c : GateConfig} (hc : GateReachable c) (htop : AtLoopTop c) :
    c.state.position = 0 ↔ c.state.currentState = .idle := by
  have hrest : c.state.position = Arm.rest c.state.currentState :=
    ((Arm.sound_of_reachable hc).2 htop).2.1
  rw [hrest, Arm.rest]
  split
  · exact iff_of_true rfl ‹_›
  · exact iff_of_false (by simp [stepperGateSteps]) ‹_›

/-- **Reloading a closed gate.** If the module is unloaded in `STATE_IDLE` only, then every load
finds the gate closed, as its `STATE_IDLE` says, and the arm never leaves its travel. This is just
what it takes: an unload at the top of the loop leaves the gate closed exactly in `STATE_IDLE`. -/
theorem reloads_agree {x : GateLife} (h : gateLifeIdle.Steps (.off 0) x) :
    (∀ position, x = .off position → position = 0)
      ∧ ∀ c, x = .on c → (0 ≤ c.state.position ∧ c.state.position ≤ stepperGateSteps)
        ∧ (AtLoopTop c → (c.state.position = 0 ↔ c.state.currentState = .idle)) := by
  obtain ⟨hoff, hon⟩ := Lifecycle.steps_induction (G := fun position ↦ position = 0) h rfl
    fun {position position' c} hzero hsteps hhalt ↦ by
      obtain ⟨⟨htop, hposition⟩, hidle⟩ := hhalt
      subst hzero
      exact hposition.symm.trans ((closed_iff_idle hsteps htop).mpr hidle)
  refine ⟨hoff, fun c hc ↦ ?_⟩
  obtain ⟨position, rfl, hsteps⟩ := hon c hc
  obtain ⟨hsound, -⟩ := Arm.sound_of_reachable hsteps
  exact ⟨⟨hsound.nonneg, hsound.le⟩, closed_iff_idle hsteps⟩

/-- A vehicle comes in and the gate closes behind it; then the module is unloaded and loaded again,
and the next vehicle finds the gate where the module takes it to be. -/
theorem reloads_agree_again : ∃ c c', gateLifeIdle.Steps (.off 0) (.on c)
    ∧ .op () .openingStep () ∈ c.trace ∧ .op () .closingStep () ∈ c.trace
    ∧ gateLifeIdle.Steps (.on c) (.off 0) ∧ gateLifeIdle.Steps (.off 0) (.on c')
    ∧ AtLoopTop c' ∧ c'.state.currentState = .entryWaiting ∧ c'.state.position ≠ 0 := by
  have hfar : ¬VehicleInRange (ultrasonicDistance (.ofCm 20)) := by
    rw [ultrasonicDistance_ofCm (by decide) (by decide)]
    decide
  obtain ⟨c, tr₁, tr₂, tr, tr', hc, htop, -, hidle, htr, -⟩ :=
    entryClosed_run (vehicleInRange_ofCm (d := 5) (by decide)) ultrasonicDistance_silent_neg hfar
      0 0 10 (by decide)
  obtain ⟨c', hc', htop', -, hstate', -⟩ :=
    entryWaiting_reachable (vehicleInRange_ofCm (d := 5) (by decide))
      ultrasonicDistance_silent_neg 0 0
  have hon {c : GateConfig} (hc : GateReachable c) : gateLifeIdle.Steps (.off 0) (.on c) :=
    .head (.load 0) (Lifecycle.steps_of_steps hc)
  have hposition : c.state.position = 0 := (((reloads_agree (hon hc)).2 c rfl).2 htop).mpr hidle
  have hunload : gateLifeIdle.Steps (.on c) (.off 0) := .single (.unload ⟨⟨htop, hposition⟩, hidle⟩)
  have hagain : gateLifeIdle.Steps (.off 0) (.on c') := ((hon hc).trans hunload).trans (hon hc')
  refine ⟨c, c', hon hc, ?_, ?_, hunload, hagain, htop', hstate', fun hzero ↦ ?_⟩
  · simp [htr, openingStep_mem_entryTurn]
  · simp [htr, closingStep_mem_closedTurn]
  · have hidle' := (((reloads_agree hagain).2 c' rfl).2 htop').mp hzero
    rw [hstate'] at hidle'
    cases hidle'

/-- The module is unloaded while a vehicle is about to leave the entry. The next load finds the gate
open and takes it for closed, and the next entry drives the arm once more as far. -/
theorem reload_finds_gate_open :
    gateLife.Steps (.off 0) (.on (.init { GateState.init with position := 1024 }))
      ∧ ∃ c, gateLife.Steps (.off 0) (.on c) ∧ c.state.position = 2048 := by
  obtain ⟨c, hc, htop, -, hstate, -⟩ :=
    entryWaiting_reachable (vehicleInRange_ofCm (d := 5) (by decide))
      ultrasonicDistance_silent_neg 0 0
  have hposition : c.state.position = 1024 := by
    have hrest : c.state.position = Arm.rest c.state.currentState :=
      ((Arm.sound_of_reachable hc).2 htop).2.1
    rw [hrest, hstate]
    rfl
  have hsession : gateLife.Steps (.off 0) (.off 1024) :=
    Lifecycle.steps_of_session hc ⟨htop, hposition⟩
  have hload : gateLife.Steps (.off 0) (.on (.init { GateState.init with position := 1024 })) :=
    hsession.tail (.load 1024)
  refine ⟨hload, _, hload.trans (Lifecycle.steps_of_steps (steps_raise 1024 hc)), ?_⟩
  rw [GateState.raise, hposition]
  rfl

end ParkingService
