import Mathlib.Tactic.Ring
import ParkingService.Gate.Turns

/-!
# Where the arm is

The arm follows the state: closed at `STATE_IDLE`, fully open in every other state, at every top of
the loop; and it stays within its travel at every motor step on the way. The view is the state, the
arm and the coil phase, with one bit of history: `on_switch_press` opens the gate *before* it
leaves `STATE_IDLE`, so while that movement runs the device reports a closed gate that is not.
`Unannounced` tracks that movement, and `device_reports_closed_iff` says it is the only time at
which the report is wrong.
-/

namespace ParkingService

open Concurrency

/-! ## The view -/

/-- Whether `on_switch_press` is opening the gate behind the back of `STATE_IDLE`. -/
inductive Unannounced
  /-- no such opening, or it has been followed by `gate_set_state` -/
  | settled
  /-- the opening is due, but the arm has not moved -/
  | due
  /-- the arm has moved, and the state is still the old one -/
  | moving
  deriving DecidableEq

def Unannounced.next : Unannounced → GateLabel → Unannounced
  | _, .op _ (.prInfo .exitOpen) _ => .due
  | .due, .op _ .openingStep _ => .moving
  | _, .op _ (.writeState _) _ => .settled
  | u, _ => u

def unannounced (tr : List GateLabel) : Unannounced := tr.foldl Unannounced.next .settled

/-- What the position argument follows. -/
structure Arm where
  state : SystemState
  position : ℤ
  stepperStep : ℤ
  unannounced : Unannounced

namespace Arm

def ofSnap (s : GateSnap) : Arm :=
  ⟨s.state.currentState, s.state.position, s.state.stepperStep, ParkingService.unannounced s.trace⟩

def step (o : GateOp) (r : o.Resp) (a : Arm) : Arm where
  state := match o with
    | .writeState s => s
    | _ => a.state
  position := match o with
    | .openingStep => a.position + 1
    | .closingStep => a.position - 1
    | _ => a.position
  stepperStep := match o with
    | .openingStep => (a.stepperStep + 1).tmod 8
    | .closingStep => (a.stepperStep - 1 + 8).tmod 8
    | _ => a.stepperStep
  unannounced := a.unannounced.next (.op () o r)

/-- The only answer that tells something about the arm is that of `gate_get_state`. -/
def guard (o : GateOp) (r : o.Resp) (a : Arm) : Prop :=
  match o, r with
  | .readState, r => r = a.state
  | _, _ => True

def view : View gateMachine Arm where
  assume _ _ := True
  proj := ofSnap
  guard := guard
  step := step
  proj_ext {s e x} _ h := by
    obtain ⟨rfl, rfl⟩ | ⟨rfl, rfl⟩ := GateEvent.exec_cases h <;>
      simp [ofSnap, ParkingService.unannounced, Unannounced.next]
  proj_start {s j p x} h := by
    obtain ⟨-, rfl⟩ : _ ∧ s.state = x := by simpa [gateMachine] using h
    simp [ofSnap, ParkingService.unannounced, Unannounced.next]
  proj_op {s o r x} _ h := by
    obtain ⟨hans, rfl⟩ := GateOp.exec_eq_some.mp h
    refine ⟨?_, ?_⟩
    · cases o <;> first | exact hans | trivial
    · cases o <;> simp [ofSnap, step, ParkingService.unannounced, GateOp.effect,
        GateState.openingStep, GateState.closingStep]

/-! ## The invariant -/

/-- What holds at every moment. -/
structure Sound (a : Arm) : Prop where
  nonneg : 0 ≤ a.position
  le : a.position ≤ stepperGateSteps
  phase : a.stepperStep = a.position % 8
  closed : a.state = .idle → a.unannounced ≠ .moving → a.position = 0
  moving : a.unannounced = .moving → a.state = .idle ∧ 0 < a.position

/-- The arm of a state that is not in the middle of a movement. -/
def rest (s : SystemState) : ℤ := if s = .idle then 0 else stepperGateSteps

/-- The state is `s`, the arm is at `x`, and nothing is going on unannounced. -/
def At (s : SystemState) (x : ℤ) (a : Arm) : Prop :=
  a.state = s ∧ a.position = x ∧ a.unannounced = .settled

/-- What holds at the top of the loop. -/
def AtRest (a : Arm) : Prop := At a.state (rest a.state) a

/-- After `i` steps of an opening movement that `on_switch_press` has started. -/
def ExitOpening (i : ℕ) (a : Arm) : Prop :=
  a.state = .idle ∧ a.position = i ∧ a.unannounced = if i = 0 then .due else .moving

/-- Operations that neither move the arm nor write the state nor start an exit opening. -/
def Quiet : GateOp → Prop
  | .openingStep | .closingStep | .writeState _ | .prInfo .exitOpen => False
  | _ => True

theorem step_of_quiet {o : GateOp} (ho : Quiet o) (r : o.Resp) (a : Arm) : step o r a = a := by
  cases o with
  | prInfo line => cases line <;> first | exact ho.elim | (cases a; cases ‹Unannounced› <;> rfl)
  | _ => first | exact ho.elim | (cases a; cases ‹Unannounced› <;> rfl)

variable {s s' : SystemState} {x : ℤ}

theorem quiet_program {A : Arm → Prop} {α : Type} {p : GateProg α} (hp : p.Uses Quiet) :
    view.Triple Sound A p fun _ ↦ A :=
  .still (fun _ ↦ step_of_quiet) hp

theorem quiet {A : Arm → Prop} {o : GateOp} (ho : Quiet o) :
    view.Triple Sound A (perform o) fun _ ↦ A :=
  quiet_program ⟨ho, fun _ ↦ trivial⟩

/-! ## Movements -/

theorem openingStep_step (a : Arm) (r : Unit) :
    step .openingStep r a = ⟨a.state, a.position + 1, (a.stepperStep + 1).tmod 8,
      if a.unannounced = .due then .moving else a.unannounced⟩ := by
  cases a
  cases ‹Unannounced› <;> rfl

theorem closingStep_step (a : Arm) (r : Unit) :
    step .closingStep r a
      = ⟨a.state, a.position - 1, (a.stepperStep - 1 + 8).tmod 8, a.unannounced⟩ := by
  cases a
  cases ‹Unannounced› <;> rfl

theorem writeState_step (a : Arm) (r : Unit) :
    step (.writeState s) r a = ⟨s, a.position, a.stepperStep, .settled⟩ := by
  cases a
  cases ‹Unannounced› <;> rfl

/-- The coil phase keeps up with the arm, in both directions. -/
private theorem phase_succ {x y : ℤ} (h : y = x % 8) : (y + 1).tmod 8 = (x + 1) % 8 := by
  rw [Int.tmod_eq_emod_of_nonneg (by omega)]
  omega

private theorem phase_pred {x y : ℤ} (h : y = x % 8) : (y - 1 + 8).tmod 8 = (x - 1) % 8 := by
  rw [Int.tmod_eq_emod_of_nonneg (by omega)]
  omega

/-- One opening step of an announced movement. -/
theorem openingStep_at (hs : s ≠ .idle) (hx : 0 ≤ x) (hlt : x < stepperGateSteps) :
    view.Triple Sound (At s x) (perform .openingStep) fun _ ↦ At s (x + 1) := by
  refine perform_rule fun a r ha hA _ ↦ ?_
  obtain ⟨hstate, hpos, hun⟩ := hA
  rw [show view.step .openingStep r a = _ from openingStep_step a r, hun]
  refine ⟨⟨?_, ?_, phase_succ ha.phase, fun h ↦ ?_, fun h ↦ ?_⟩, hstate, ?_, rfl⟩
  · simp only [hpos]; omega
  · simp only [hpos]; omega
  · exact absurd (hstate ▸ h) hs
  · simp at h
  · simp only [hpos]

/-- One step of an opening movement that is not announced yet. -/
theorem openingStep_exitOpening {i : ℕ} (hi : i < stepperGateSteps) :
    view.Triple Sound (ExitOpening i) (perform .openingStep) fun _ ↦ ExitOpening (i + 1) := by
  refine perform_rule fun a r ha hA _ ↦ ?_
  obtain ⟨hstate, hpos, hun⟩ := hA
  have hmoving : (if a.unannounced = .due then .moving else a.unannounced) = .moving := by
    by_cases hi0 : i = 0 <;> simp [hun, hi0]
  rw [show view.step .openingStep r a = _ from openingStep_step a r, hmoving]
  refine ⟨⟨?_, ?_, phase_succ ha.phase, fun _ h ↦ absurd rfl h, fun _ ↦ ⟨hstate, ?_⟩⟩,
    hstate, ?_, by simp⟩
  · simp only [hpos]; omega
  · simp only [hpos]; omega
  · simp only [hpos]; omega
  · simp only [hpos]; push_cast; ring

theorem closingStep_at (hs : s ≠ .idle) (hx : 0 < x) (hle : x ≤ stepperGateSteps) :
    view.Triple Sound (At s x) (perform .closingStep) fun _ ↦ At s (x - 1) := by
  refine perform_rule fun a r ha hA _ ↦ ?_
  obtain ⟨hstate, hpos, hun⟩ := hA
  rw [show view.step .closingStep r a = _ from closingStep_step a r]
  refine ⟨⟨?_, ?_, phase_pred ha.phase, fun h ↦ ?_, fun h ↦ ?_⟩, hstate, ?_, hun⟩
  · simp only [hpos]; omega
  · simp only [hpos]; omega
  · exact absurd (hstate ▸ h) hs
  · simp [hun] at h
  · simp only [hpos]

/-- The state may be written whenever the arm already is where the new state says. -/
theorem writeState_at {A : Arm → Prop} (hA : ∀ a, A a → a.position = x)
    (hx : s = .idle → x = 0) :
    view.Triple Sound A (gateSetState s) fun _ ↦ At s x := by
  refine perform_rule fun a r ha hAa _ ↦ ?_
  rw [show view.step (.writeState s) r a = _ from writeState_step a r]
  exact ⟨⟨ha.nonneg, ha.le, ha.phase, fun h _ ↦ (hA a hAa).trans (hx h), fun h ↦ by simp at h⟩,
    rfl, hA a hAa, rfl⟩

/-- A whole announced opening. -/
theorem gateOpen_at (hs : s ≠ .idle) :
    view.Triple Sound (At s 0) gateOpen fun _ ↦ At s stepperGateSteps := by
  refine .times (A := fun i ↦ At s i) stepperGateSteps fun i hi ↦ ?_
  simpa using openingStep_at hs (Int.natCast_nonneg i) (by exact_mod_cast hi)

theorem gateOpen_exitOpening :
    view.Triple Sound (ExitOpening 0) gateOpen fun _ ↦ ExitOpening stepperGateSteps :=
  .times stepperGateSteps fun _ hi ↦ openingStep_exitOpening hi

/-- A close started with the gate open ends with the gate closed, or back where it was. -/
theorem gateCloseInterruptible_at (hs : s ≠ .idle) :
    view.Triple Sound (At s stepperGateSteps) gateCloseInterruptible
      fun r ↦ At s (if r < 0 then stepperGateSteps else 0) := by
  have flags (d : ℤ) : (closeInterrupted d).Uses Quiet :=
    (closeInterrupted_uses d).mono fun o ho ↦ by cases o <;> trivial
  have houtline : CloseOutline view Sound (fun k ↦ At s (stepperGateSteps - k))
      (fun k ↦ At s (stepperGateSteps - k))
      (fun k _ ↦ At s (stepperGateSteps - k)) (fun k _ ↦ At s (stepperGateSteps - k))
      (fun k j ↦ At s (stepperGateSteps - k + j))
      (fun r ↦ At s (if r < 0 then stepperGateSteps else 0)) :=
    -- the arm is as far from open as steps have been made, whether the close goes on or is undone
    { step := fun k hk ↦ by
        have hstep := closingStep_at (x := stepperGateSteps - k) hs (by omega) (by omega)
        rwa [show (stepperGateSteps : ℤ) - k - 1 = stepperGateSteps - (k + 1 : ℕ) by
          push_cast; ring] at hstep
      skip := fun _ _ _ _ _ h ↦ h
      buzzer := fun k x ↦ quiet (o := .gpioSet .buzzer x) trivial
      measure := fun k ↦ quiet_program ⟨trivial, fun _ ↦ trivial⟩
      interrupted := fun k d ↦ (quiet_program (flags d)).post fun b a _ h ↦ by cases b <;> exact h
      report := fun k d ↦
          (quiet (o := .prInfo (.closeAborted d k)) trivial).post fun _ a _ h ↦ by simpa using h
      silence := fun k ↦ quiet (o := .gpioSet .buzzer 1) trivial
      undo := fun k hk j hj ↦ by
        have hstep := openingStep_at (x := stepperGateSteps - k + j) hs (by omega) (by omega)
        rwa [show (stepperGateSteps : ℤ) - k + j + 1 = stepperGateSteps - k + (j + 1 : ℕ) by
          push_cast; ring] at hstep
      reopened := fun k _ ↦ (quiet (o := .deenergize) trivial).post fun _ a _ h ↦ by simpa using h
      closed := (quiet (o := .deenergize) trivial).post fun _ a _ h ↦ by simpa using h }
  simpa using houtline.close

/-! ## The branches -/

theorem At.atRest {a : Arm} (h : At s (rest s) a) : AtRest a := by
  obtain ⟨rfl, hx, hun⟩ := h
  exact ⟨rfl, hx, hun⟩

theorem onSwitchPress_atRest :
    view.Triple Sound AtRest onSwitchPress fun _ ↦ AtRest := by
  refine .bind (R := fun s ↦ At s (rest s)) ?_ fun s ↦ .ite ?_ fun hs ↦ ?_
  · refine perform_rule fun a r ha hA hr ↦ ?_
    rw [show view.step .readState r a = a from step_of_quiet (o := .readState) trivial r a]
    obtain rfl : r = a.state := hr
    exact ⟨ha, hA⟩
  · rintro rfl
    -- the gate opens in `STATE_IDLE`, which is written only when it is open
    refine .bind (R := fun _ ↦ ExitOpening 0) ?_ fun _ ↦ ?_
    · refine perform_rule fun a r ha hA _ ↦ ?_
      have hstep : view.step (.prInfo .exitOpen) r a = ⟨.idle, 0, a.stepperStep, .due⟩ := by
        obtain ⟨hstate, hpos, -⟩ := hA
        change Arm.mk a.state a.position a.stepperStep .due = _
        rw [hstate, hpos, rest, if_pos rfl]
      rw [hstep]
      refine ⟨⟨le_rfl, by simp, ?_, fun _ _ ↦ rfl, fun h ↦ by simp at h⟩, rfl, rfl, rfl⟩
      simpa [hA.2.1, rest] using ha.phase
    refine .bind gateOpen_exitOpening fun _ ↦ ?_
    refine .bind (quiet (o := .ktime) trivial) fun now ↦ ?_
    refine .bind (quiet (o := .store .exitRequestTime now) trivial) fun _ ↦ ?_
    exact (writeState_at (fun _ h ↦ h.2.1) fun h ↦ by cases h).post fun _ _ _ h ↦ At.atRest h
  · exact (quiet (o := .setSwitchReopen) trivial).post fun _ a _ h ↦ At.atRest h

theorem quiet_of_minor {o : GateOp} (ho : o.Minor) : Quiet o := by
  cases o with
  | prInfo line => cases line <;> trivial
  | _ => trivial

theorem branchOutline :
    BranchOutline view Sound (fun s ↦ At s (rest s)) (fun s ↦ At s 0) AtRest where
  minor _ _ ho := quiet (quiet_of_minor ho)
  enter d now := by
    refine .bind (quiet (o := .prInfo (.entryOpen d)) trivial) fun _ ↦ ?_
    refine .bind (writeState_at (s := .entryDetected) (fun _ h ↦ h.2.1) fun _ ↦ rfl) fun _ ↦ ?_
    refine .bind (gateOpen_at (by decide)) fun _ ↦ ?_
    exact (quiet (o := .store .lastVehicleDetect now) trivial).post fun _ _ _ h ↦ At.atRest h
  onward s s' h := by
    obtain ⟨hs, hs'⟩ := SystemState.ne_idle_of_onward h
    rw [rest, rest, if_neg hs, if_neg hs']
    exact writeState_at (fun _ h ↦ h.2.1) fun h ↦ absurd h hs'
  close s hs := by
    rw [rest, if_neg hs]
    refine (gateCloseInterruptible_at hs).post fun r _ _ h ↦ ?_
    split at h
    · rwa [if_pos ‹_›]
    · rwa [if_neg ‹_›]
  closed _ _ :=
    (writeState_at (s := .idle) (fun _ h ↦ h.2.1) fun _ ↦ rfl).post fun _ _ _ h ↦ At.atRest h
  top _ _ _ := At.atRest

theorem readState_atRest :
    view.Triple Sound AtRest gateGetState fun s ↦ At s (rest s) := by
  refine perform_rule fun a r ha hA hr ↦ ?_
  rw [show view.step .readState r a = a from step_of_quiet (o := .readState) trivial r a]
  obtain rfl : r = a.state := hr
  exact ⟨ha, hA⟩

theorem turnOutline : TurnOutline view Sound AtRest AtRest AtRest (fun s ↦ At s (rest s))
    (fun s _ ↦ At s (rest s)) (fun s _ _ ↦ At s (rest s)) where
  take := (quiet (o := .xchgSwitchPressed) trivial).post fun b _ _ h ↦ by cases b <;> exact h
  press := onSwitchPress_atRest
  read := readState_atRest
  measure _ := quiet_program ⟨trivial, fun _ ↦ trivial⟩
  clock _ _ := quiet (o := .ktime) trivial
  act := branchOutline.dispatch
  signal o ho a r ha hA _ := by
    have hquiet : Quiet o := by cases o <;> trivial
    rw [show view.step o r a = a from step_of_quiet hquiet r a]
    exact ⟨ha, hA⟩

theorem sound_of_reachable {c : GateConfig} (hc : GateReachable c) :
    Sound (ofSnap c.toSnap) ∧ (AtLoopTop c → AtRest (ofSnap c.toSnap)) :=
  turnOutline.reachable (W := view)
    ⟨le_rfl, by decide, rfl, fun _ _ ↦ rfl, fun h ↦ by cases h⟩ ⟨rfl, rfl, rfl⟩ hc
    (always_of_forall fun _ _ ↦ trivial)

end Arm

/-! ## Results -/

/-- **The arm follows the state.** It never leaves its travel, the coil phase is the position
modulo the length of the step sequence, and at the top of the loop the gate is closed in
`STATE_IDLE` and fully open in every other state. -/
theorem gate_position_invariant {c : GateConfig} (hc : GateReachable c) :
    (0 ≤ c.state.position ∧ c.state.position ≤ stepperGateSteps)
      ∧ (c.state.stepperStep = c.state.position % 8
        ∧ 0 ≤ c.state.stepperStep ∧ c.state.stepperStep < stepperSequence.length)
      ∧ (AtLoopTop c →
        c.state.position = if c.state.currentState = .idle then 0 else (stepperGateSteps : ℤ)) := by
  obtain ⟨hsound, hrest⟩ := Arm.sound_of_reachable hc
  have hphase : c.state.stepperStep = c.state.position % 8 := hsound.phase
  refine ⟨⟨hsound.nonneg, hsound.le⟩, ⟨hphase, ?_, ?_⟩, fun htop ↦ (hrest htop).2.1⟩
  · omega
  · change _ < (8 : ℤ)
    omega

/-- After an entry the gate is open, whatever becomes of it later. -/
theorem gate_position_invariant_entry : ∃ c, GateReachable c ∧ AtLoopTop c
    ∧ c.state.currentState = .entryWaiting ∧ c.state.position = 1024 ∧ c.state.stepperStep = 0 := by
  obtain ⟨c, hc, htop, -, hstate, -⟩ :=
    entryWaiting_reachable (vehicleInRange_ofCm (d := 5) (by decide))
      ultrasonicDistance_silent_neg 0 0
  obtain ⟨-, ⟨hphase, -⟩, hrest⟩ := gate_position_invariant hc
  have hpos : c.state.position = 1024 := by
    rw [hrest htop, hstate]
    rfl
  exact ⟨c, hc, htop, hstate, hpos, by rw [hphase, hpos]; rfl⟩

/-- **When the report of a closed gate is right.** At any moment of any run, a reader of the
device that is told `IDLE` finds the gate closed, unless it reads after `on_switch_press` has
begun to move the arm and before it has written the new state. -/
theorem device_reports_closed_iff {c : GateConfig} (hc : GateReachable c) :
    (∀ len copied, gateDeviceRead c.state.currentState len 0 copied = .ok "IDLE" →
        c.state.position = 0)
      ↔ unannounced c.trace ≠ .moving := by
  obtain ⟨hsound, -⟩ := Arm.sound_of_reachable hc
  constructor
  · intro hread hmoving
    obtain ⟨hidle, hpos⟩ := hsound.moving hmoving
    change c.state.currentState = .idle at hidle
    have hzero := hread 63 true (by rw [hidle]; rfl)
    change 0 < c.state.position at hpos
    omega
  · intro hquiet len copied hread
    have hidle : c.state.currentState = .idle := stateString_injective (gateDeviceRead_ok hread)
    exact hsound.closed hidle hquiet

/-- Once the new state is written, an opening is no longer unannounced, and it takes another press
to start the next. -/
theorem unannounced_of_written {pre post : List GateLabel} {s : SystemState}
    (hpost : ∀ l ∈ post, l ≠ .op () (.prInfo .exitOpen) ()) :
    unannounced (pre ++ .op () (.writeState s) () :: post) = .settled := by
  have hnext (u : Unannounced) : u.next (.op () (.writeState s) ()) = .settled := by
    cases u <;> rfl
  rw [List.append_cons]
  refine append_induction (P := fun tr ↦ unannounced tr = .settled) ?_ hpost fun tr l hl htr ↦ ?_
  · rw [unannounced, List.foldl_append]
    exact hnext (unannounced pre)
  · have hkeep : Unannounced.settled.next l = .settled := by
      rcases l with _ | ⟨_, o, _⟩ | _
      · rfl
      · cases o with
        | prInfo line => cases line <;> first | rfl | exact absurd rfl hl
        | _ => rfl
      · rfl
    rw [unannounced, List.foldl_append]
    rw [unannounced] at htr
    rw [htr]
    exact hkeep

/-- The button has opened the gate, nobody has come, and the gate has closed again: a reader that is
told so finds it closed. -/
theorem device_reports_closed_again : ∃ c, GateReachable c
    ∧ .op () .openingStep () ∈ c.trace ∧ .op () .closingStep () ∈ c.trace
    ∧ gateDeviceRead c.state.currentState 63 0 true = .ok "IDLE" ∧ c.state.position = 0 := by
  have hfar : ¬VehicleInRange (ultrasonicDistance (.ofCm 20)) := by
    rw [ultrasonicDistance_ofCm (by decide) (by decide)]
    decide
  obtain ⟨c, tr₁, tr, tr', hc, -, hidle, htr, -, -, hsig⟩ :=
    exitClosed_run hfar hfar 0 10 (by decide)
  have hread : gateDeviceRead c.state.currentState 63 0 true = .ok "IDLE" := by
    rw [hidle]
    rfl
  have hquiet : unannounced c.trace = .settled := by
    have hsplit : c.trace = (.ext .press :: exitCalled 0 (.ofCm 20) 0 ++ tr₁
        ++ turnHead .exitRequested (.ofCm 20) 10 ++ [.op () (.load .exitRequestTime) 0,
          .op () (.prInfo .exitTimeoutClose) (), .op () .closingStep ()] ++ tr)
        ++ .op () (.writeState .idle) () :: tr' := by
      simp [htr, timeoutTurn, wholeClose]
    rw [hsplit]
    refine unannounced_of_written fun l hl ↦ ?_
    obtain ⟨o, r, ho, rfl⟩ := hsig l hl
    cases o <;> first | exact ho.elim | simp
  refine ⟨c, hc, ?_, ?_, hread, ?_⟩
  · simp [htr, exitCalled, exitOpening, openingStep_mem_opening]
  · simp [htr, timeoutTurn, wholeClose]
  · exact (device_reports_closed_iff hc).mpr (by simp [hquiet]) 63 true hread

/-- The first motor step of an opening by the button: the device still says `IDLE`. -/
theorem device_reports_closed_while_opening :
    ∃ c, GateReachable c
      ∧ c.trace = [.ext .press, .start () (), .op () .xchgSwitchPressed true,
          .op () .readState .idle, .op () (.prInfo .exitOpen) (), .op () .openingStep ()]
      ∧ gateDeviceRead c.state.currentState 63 0 true = .ok "IDLE" ∧ c.state.position = 1 := by
  refine ⟨_, .tail (.tail (.tail (.tail (.tail (.single (.ext (e := .press) rfl))
    (.start (t := ()) (j := ()) rfl rfl)) (.op (t := ()) (r := true) rfl rfl))
    (.op (t := ()) (r := SystemState.idle) rfl rfl)) (.op (t := ()) (r := ()) rfl rfl))
    (.op (t := ()) (r := ()) rfl rfl), rfl, rfl, rfl⟩

end ParkingService
