import ParkingService.Concurrency.Parallel
import ParkingService.Gate.Hardware

/-!
# The user-space gate node: the motor

`gate_controller.c`: the stepper motor behind the state of the gate. A movement is any number of
signed steps, an interruptible close moves in batches of at most 64 of them and asks a callback in
between. What the callback does is not the controller's business, so a close is a program over the
operations of the controller and any other operations.

`gate_mutex` protects `current_state`. `gate_open` holds it while the motor turns;
`gate_close_interruptible` does not, so the other thread may look at the gate during a close.
-/

namespace ParkingService.UserNode

open Concurrency

/-- `GateState` of `gate_controller.h`. -/
inductive GateStatus
  | closed
  | open
  deriving DecidableEq, Repr

/-- The atomic operations of the controller. -/
inductive CtlOp
  | lockGate
  | unlockGate
  /-- `current_state`, read under `gate_mutex` -/
  | readGate
  /-- `current_state`, written under `gate_mutex` -/
  | writeGate (g : GateStatus)
  /-- one pass through the loop of `stepper_move` -/
  | stepperStep (direction : ℤ)
  | deenergize

abbrev CtlOp.Resp : CtlOp → Type
  | .readGate => GateStatus
  | _ => Unit

/-- The variables of the controller, the levels of the motor pins, and where the arm is. -/
structure Controller where
  currentState : GateStatus
  gateMutex : Bool
  currentStep : ℤ
  pins : Coils
  position : ℤ

namespace Controller

/-- As `gate_controller_init` leaves it, the arm driven to its closed end. -/
def init : Controller := ⟨.closed, false, 0, .off, 0⟩

variable (s : Controller)

/-- Unlike the kernel module, the step is used as an index as it is. -/
def stepperStep (direction : ℤ) : Controller :=
  let step := (s.currentStep + direction + 8).tmod 8
  { s with
    currentStep := step
    pins := stepperSequence.getD step.toNat .off
    position := s.position + direction }

end Controller

def CtlOp.Answers : (o : CtlOp) → o.Resp → Controller → Prop
  | .lockGate, _, s => s.gateMutex = false
  | .readGate, r, s => r = s.currentState
  | _, _, _ => True

instance : ∀ (o : CtlOp) (r : o.Resp) (s : Controller), Decidable (o.Answers r s)
  | .lockGate, _, s => inferInstanceAs (Decidable (s.gateMutex = false))
  | .readGate, r, s => inferInstanceAs (Decidable (r = s.currentState))
  | .unlockGate, _, _ | .writeGate _, _, _ | .stepperStep _, _, _ | .deenergize, _, _ =>
    inferInstanceAs (Decidable True)

def CtlOp.effect : CtlOp → Controller → Controller
  | .lockGate, s => { s with gateMutex := true }
  | .unlockGate, s => { s with gateMutex := false }
  | .writeGate g, s => { s with currentState := g }
  | .stepperStep direction, s => s.stepperStep direction
  | .deenergize, s => { s with pins := .off }
  | .readGate, s => s

def CtlOp.exec (o : CtlOp) (r : o.Resp) (s : Controller) : Option Controller :=
  if o.Answers r s then some (o.effect s) else none

abbrev CtlProg := Prog CtlOp.Resp

def ctlPerform (o : CtlOp) : CtlProg o.Resp := .call o

/-! ## Movements -/

/-- `stepper_move`: forwards if `steps` is positive. -/
def stepperMove (steps : ℤ) : CtlProg Unit :=
  .times steps.natAbs (ctlPerform (.stepperStep (if 0 < steps then 1 else -1)))

def stepperDeenergize : CtlProg Unit := ctlPerform .deenergize

def gateOpen : CtlProg Unit := do
  ctlPerform .lockGate
  if (← ctlPerform .readGate) = .open then
    ctlPerform .unlockGate
  else
    stepperMove stepperGateSteps
    stepperDeenergize
    ctlPerform (.writeGate .open)
    ctlPerform .unlockGate

/-! ## Closing with a callback -/

section Close

variable {Op : Type} {Resp : Op → Type}

/-- `check != NULL && check()` -/
def checked (check : Option (Prog (RespSum CtlOp.Resp Resp) Bool)) :
    Prog (RespSum CtlOp.Resp Resp) Bool :=
  check.getD (pure false)

/-- The end of a close that got through. -/
def finishClose : CtlProg ℤ := do
  stepperDeenergize
  ctlPerform .lockGate
  ctlPerform (.writeGate .closed)
  ctlPerform .unlockGate
  return 0

/-- The end of a close that is undone. -/
def undoClose (done : ℕ) : CtlProg ℤ := do
  stepperMove done
  stepperDeenergize
  return -1

/-- The steps of the batch after `done` steps. -/
def batch (done : ℕ) : ℕ :=
  let steps := stepperGateSteps - done
  if closeBatch < steps then closeBatch else steps

theorem batch_pos {done : ℕ} (h : done < stepperGateSteps) : 0 < batch done := by
  rw [batch]
  split
  · decide
  · exact Nat.sub_pos_of_lt h

/-- The loop of `gate_close_interruptible`. -/
def closeFrom (check : Option (Prog (RespSum CtlOp.Resp Resp) Bool)) (done : ℕ) :
    Prog (RespSum CtlOp.Resp Resp) ℤ :=
  if _h : done < stepperGateSteps then do
    (stepperMove (-batch done)).inl
    let done' := done + batch done
    if done' < stepperGateSteps then
      if ← checked check then (undoClose done').inl else closeFrom check done'
    else closeFrom check done'
  else finishClose.inl
  termination_by stepperGateSteps - done
  decreasing_by
    all_goals
      have hpos := batch_pos ‹done < stepperGateSteps›
      simp_wf
      omega

def gateCloseInterruptible (check : Option (Prog (RespSum CtlOp.Resp Resp) Bool)) :
    Prog (RespSum CtlOp.Resp Resp) ℤ := do
  (ctlPerform .lockGate).inl
  let g ← (ctlPerform .readGate).inl
  (ctlPerform .unlockGate).inl
  if g = .closed then return 0 else closeFrom check 0

/-! What a close uses beside the operations of the controller is what its callback uses. -/

variable {S : CtlOp ⊕ Op → Prop} {check : Prog (RespSum CtlOp.Resp Resp) Bool}

theorem closeFrom_uses (hS : ∀ o, S (.inl o)) (hcheck : check.Uses S) (done : ℕ) :
    (closeFrom (some check) done).Uses S := by
  have hinl {α : Type} (p : CtlProg α) : (p.inl : Prog (RespSum CtlOp.Resp Resp) α).Uses S :=
    Prog.uses_inl (Prog.uses_of_forall hS p)
  induction hleft : stepperGateSteps - done using Nat.strongRecOn generalizing done with
  | _ left ih =>
    rw [closeFrom]
    split
    · rename_i hdone
      have hpos := batch_pos hdone
      have hrest := ih (stepperGateSteps - (done + batch done)) (by omega) (done + batch done) rfl
      refine Prog.uses_bind (hinl _) fun _ ↦ Prog.uses_ite (fun _ ↦ ?_) fun _ ↦ hrest
      exact Prog.uses_bind hcheck fun b ↦ Prog.uses_ite (fun _ ↦ hinl _) fun _ ↦ hrest
    · exact hinl _

theorem gateCloseInterruptible_uses (hS : ∀ o, S (.inl o)) (hcheck : check.Uses S) :
    (gateCloseInterruptible (some check)).Uses S := by
  have hinl {α : Type} (p : CtlProg α) : (p.inl : Prog (RespSum CtlOp.Resp Resp) α).Uses S :=
    Prog.uses_inl (Prog.uses_of_forall hS p)
  refine Prog.uses_bind (hinl _) fun _ ↦ Prog.uses_bind (hinl _) fun g ↦ ?_
  refine Prog.uses_bind (hinl _) fun _ ↦ Prog.uses_ite (fun _ ↦ trivial) fun _ ↦ ?_
  exact closeFrom_uses hS hcheck 0

end Close

end ParkingService.UserNode
