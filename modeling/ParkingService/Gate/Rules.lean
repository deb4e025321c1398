import ParkingService.Gate.StateMachine

/-!
# Proof rules for the gate thread

The control flow of `gate_close_interruptible`, of the branches of the `switch` and of one turn of
the state machine, traversed once. A development that follows some aspect of the thread through a
view states its assertions at the program points named here and proves what each operation between
them does; the rules put the pieces together.
-/

namespace ParkingService

open Concurrency

variable {V : Type} {W : View gateMachine V} {I : V → Prop}

/-- One operation under a view. -/
theorem perform_rule {A : V → Prop} {o : GateOp} {B : o.Resp → V → Prop}
    (h : ∀ v r, I v → A v → W.guard o r v → I (W.step o r v) ∧ B r (W.step o r v)) :
    W.Triple I A (perform o) B :=
  .call h

/-- A measurement is one ping; what it returns is computed from the echo. -/
theorem ultrasonicMeasureCm_rule {A : V → Prop} {B : ℤ → V → Prop}
    (h : ∀ v e, I v → A v → W.guard .ping e v →
      I (W.step .ping e v) ∧ B (ultrasonicDistance e) (W.step .ping e v)) :
    W.Triple I A ultrasonicMeasureCm B :=
  .bind (perform_rule (B := fun e ↦ B (ultrasonicDistance e)) h) fun _ ↦ .ret fun _ _ hB ↦ hB

theorem gateOpen_uses {S : GateOp → Prop} (h : S .openingStep) : gateOpen.Uses S :=
  Prog.uses_times (p := perform .openingStep) ⟨h, fun _ ↦ trivial⟩ _

/-! ## Closing -/

/-- Operations that take a button flag. -/
def GateOp.TakesFlag : GateOp → Prop
  | .xchgSwitchPressed | .xchgSwitchReopen => True
  | _ => False

theorem closeInterrupted_uses (d : ℤ) : (closeInterrupted d).Uses GateOp.TakesFlag := by
  unfold closeInterrupted
  split
  · trivial
  · refine ⟨trivial, fun b ↦ ?_⟩
    cases b with
    | true => trivial
    | false => exact ⟨trivial, fun _ ↦ trivial⟩

/-- Operations of `gate_close_interruptible`. -/
def GateOp.Closes : GateOp → Prop
  | .closingStep | .openingStep | .deenergize | .ping => True
  | .xchgSwitchPressed | .xchgSwitchReopen => True
  | .gpioSet pin _ => pin = .buzzer
  | .prInfo line => ∃ d k, line = .closeAborted d k
  | _ => False

theorem closeLoop_uses (left stepsDone phase : ℕ) :
    (closeLoop left stepsDone phase).Uses GateOp.Closes := by
  have hcall {o : GateOp} (ho : o.Closes) : (perform o).Uses GateOp.Closes := ⟨ho, fun _ ↦ trivial⟩
  induction left generalizing stepsDone phase with
  | zero => exact Prog.uses_bind (hcall (o := .deenergize) trivial) fun _ ↦ trivial
  | succ left ih =>
    refine Prog.uses_bind (hcall trivial) fun _ ↦ Prog.uses_ite (fun _ ↦ ?_) fun _ ↦ ih _ _
    refine Prog.uses_bind (p := buzzerPattern _) ?_ fun _ ↦ ?_
    · exact Prog.uses_ite (fun _ ↦ hcall (o := .gpioSet _ _) rfl) fun _ ↦
        hcall (o := .gpioSet _ _) rfl
    refine Prog.uses_bind (p := ultrasonicMeasureCm) ⟨trivial, fun _ ↦ trivial⟩ fun dist ↦ ?_
    refine Prog.uses_bind ((closeInterrupted_uses dist).mono fun o ho ↦ ?_) fun b ↦ ?_
    · cases o <;> trivial
    · refine Prog.uses_ite (fun _ ↦ ?_) fun _ ↦ ih _ _
      refine Prog.uses_bind (hcall (o := .prInfo _) ⟨_, _, rfl⟩) fun _ ↦ ?_
      refine Prog.uses_bind (hcall (o := .gpioSet _ _) rfl) fun _ ↦ ?_
      refine Prog.uses_bind (Prog.uses_times (hcall (o := .openingStep) trivial) _) fun _ ↦ ?_
      exact Prog.uses_bind (hcall (o := .deenergize) trivial) fun _ ↦ trivial

/-- After this many steps a close is checked for interruptions. -/
def CheckDue (stepsDone : ℕ) : Prop := stepsDone % closeBatch = 0 ∧ stepsDone < stepperGateSteps

/-- Assertions for a close: `S k` right after the `k`-th closing step, `A k` before the next one,
`D k d` when the check after step `k` has measured `d`, `X k d` when it decided to abort, `U k j`
after `j` of the `k` steps back, and `B` at the return. -/
structure CloseOutline (W : View gateMachine V) (I : V → Prop) (A S : ℕ → V → Prop)
    (D X : ℕ → ℤ → V → Prop) (U : ℕ → ℕ → V → Prop) (B : ℤ → V → Prop) : Prop where
  step : ∀ k < stepperGateSteps, W.Triple I (A k) (perform .closingStep) fun _ ↦ S (k + 1)
  skip : ∀ k ≤ stepperGateSteps, ¬CheckDue k → ∀ v, I v → S k v → A k v
  buzzer : ∀ k x, W.Triple I (S k) (perform (.gpioSet .buzzer x)) fun _ ↦ S k
  measure : ∀ k, W.Triple I (S k) ultrasonicMeasureCm (D k)
  interrupted : ∀ k d, W.Triple I (D k d) (closeInterrupted d) fun b v ↦
    if b then X k d v else A k v
  report : ∀ k d, W.Triple I (X k d) (prInfo (.closeAborted d k)) fun _ ↦ U k 0
  silence : ∀ k, W.Triple I (U k 0) buzzerOff fun _ ↦ U k 0
  undo : ∀ k, k < stepperGateSteps → ∀ j < k,
    W.Triple I (U k j) (perform .openingStep) fun _ ↦ U k (j + 1)
  reopened : ∀ k, k < stepperGateSteps → W.Triple I (U k k) stepperDeenergize fun _ ↦ B (-1)
  closed : W.Triple I (A stepperGateSteps) stepperDeenergize fun _ ↦ B 0

namespace CloseOutline

variable {A S : ℕ → V → Prop} {D X : ℕ → ℤ → V → Prop} {U : ℕ → ℕ → V → Prop} {B : ℤ → V → Prop}

theorem loop (h : CloseOutline W I A S D X U B) {left stepsDone phase : ℕ}
    (hsum : stepsDone + left = stepperGateSteps) :
    W.Triple I (A stepsDone) (closeLoop left stepsDone phase) B := by
  induction left generalizing stepsDone phase with
  | zero =>
    obtain rfl : stepsDone = stepperGateSteps := by omega
    exact .bind h.closed fun _ ↦ .ret fun _ _ hB ↦ hB
  | succ left ih =>
    refine .bind (h.step stepsDone (by omega)) fun _ ↦ ?_
    refine .ite (fun hdue ↦ ?_) fun hdue ↦ ?_
    · refine .bind (R := fun _ ↦ S (stepsDone + 1)) ?_ fun _ ↦ ?_
      · exact .ite (fun _ ↦ h.buzzer _ _) fun _ ↦ h.buzzer _ _
      refine .bind (h.measure _) fun d ↦ ?_
      refine .bind (h.interrupted (stepsDone + 1) d) fun b ↦ ?_
      cases b with
      | true =>
        refine .bind (h.report _ d) fun _ ↦ ?_
        refine .bind (h.silence _) fun _ ↦ ?_
        refine .bind (.times _ (h.undo _ hdue.2)) fun _ ↦ ?_
        exact .bind (h.reopened _ hdue.2) fun _ ↦ .ret fun _ _ hB ↦ hB
      | false => exact ih (by omega)
    · exact .pre (h.skip _ (by omega) hdue) (ih (by omega))

theorem close (h : CloseOutline W I A S D X U B) :
    W.Triple I (A 0) gateCloseInterruptible B :=
  h.loop (Nat.zero_add _)

end CloseOutline

/-! ## The `switch` -/

/-- Reports that announce no opening and no aborted close. -/
def LogLine.Minor : LogLine → Prop
  | .exitOpen | .entryOpen _ | .closeAborted _ _ => False
  | _ => True

/-- Operations of the branches beside movements, changes of state and announcements. -/
def GateOp.Minor : GateOp → Prop
  | .load _ | .store _ _ | .ktime => True
  | .prInfo line => line.Minor
  | _ => False

/-- Where the thread may go from a state while the gate stays open. -/
def SystemState.onward : SystemState → List SystemState
  | .idle => []
  | .entryDetected => [.entryWaiting]
  | .entryWaiting => [.entryDetected]
  | .exitRequested => [.exitVehicleDetected, .exitRequested]
  | .exitVehicleDetected => [.exitVehicleWaiting]
  | .exitVehicleWaiting => [.exitVehicleDetected]

theorem SystemState.ne_idle_of_onward {s s' : SystemState} (h : s' ∈ s.onward) :
    s ≠ .idle ∧ s' ≠ .idle := by
  cases s <;> simp only [onward, List.mem_cons, List.not_mem_nil, or_false] at h
  case exitRequested => rcases h with rfl | rfl <;> decide
  all_goals
    subst h
    decide

/-- Assertions for the branches where neither measurements nor timers matter: `R s` in a turn that
has read the state as `s`, `C s` when a close has got through there, and `T` at the end. -/
structure BranchOutline (W : View gateMachine V) (I : V → Prop) (R C : SystemState → V → Prop)
    (T : V → Prop) : Prop where
  minor : ∀ s o, o.Minor → W.Triple I (R s) (perform o) fun _ ↦ R s
  enter : ∀ d now, W.Triple I (R .idle) (do
    prInfo (.entryOpen d)
    gateSetState .entryDetected
    gateOpen
    perform (.store .lastVehicleDetect now)) fun _ ↦ T
  onward : ∀ s s', s' ∈ s.onward → W.Triple I (R s) (gateSetState s') fun _ ↦ R s'
  close : ∀ s, s ≠ .idle → W.Triple I (R s) gateCloseInterruptible fun r v ↦
    if r < 0 then R s v else C s v
  closed : ∀ s, s ≠ .idle → W.Triple I (C s) (gateSetState .idle) fun _ ↦ T
  top : ∀ s v, I v → R s v → T v

namespace BranchOutline

variable {R C : SystemState → V → Prop} {T : V → Prop} {s s' : SystemState}

theorem stay (h : BranchOutline W I R C T) : W.Triple I (R s) (pure ()) fun _ ↦ T := .ret (h.top s)

theorem store (h : BranchOutline W I R C T) (v : GateVar) (x : ℤ) :
    W.Triple I (R s) (perform (.store v x)) fun _ ↦ T :=
  (h.minor s (.store v x) trivial).post fun _ ↦ h.top s

theorem setState (h : BranchOutline W I R C T) (hs' : s' ∈ s.onward) :
    W.Triple I (R s) (gateSetState s') fun _ ↦ T :=
  (h.onward s s' hs').post fun _ ↦ h.top s'

theorem moveOn (h : BranchOutline W I R C T) {line : LogLine} (hline : line.Minor)
    (hs' : s' ∈ s.onward) (now : ℤ) :
    W.Triple I (R s) (ParkingService.moveOn line s' now) fun _ ↦ T := by
  refine .bind (h.minor s (.prInfo line) hline) fun _ ↦ ?_
  exact .bind (h.minor s (.store .lastVehicleDetect now) trivial) fun _ ↦ h.setState hs'

/-- What follows an aborted close keeps the gate open. -/
theorem closeOr (h : BranchOutline W I R C T) {line : LogLine} {p : GateProg Unit}
    (hs : s ≠ .idle) (hline : line.Minor) (hp : W.Triple I (R s) p fun _ ↦ T) :
    W.Triple I (R s) (ParkingService.closeOr line p) fun _ ↦ T := by
  refine .bind (h.minor s (.prInfo line) hline) fun _ ↦ ?_
  refine .bind (h.close s hs) fun r ↦ .ite (fun hr ↦ ?_) fun hr ↦ ?_
  · simpa only [if_pos hr] using hp
  · simpa only [if_neg hr] using h.closed s hs

theorem elapsedSince (h : BranchOutline W I R C T) (v : GateVar) (now : ℤ) :
    W.Triple I (R s) (ParkingService.elapsedSince v now) fun _ ↦ R s :=
  .bind (h.minor s (.load v) trivial) fun _ ↦ .ret fun _ _ hR ↦ hR

theorem whenWaiting (h : BranchOutline W I R C T) {closing reopened : LogLine}
    {back : ℤ → LogLine} (hclosing : closing.Minor) (hreopened : reopened.Minor)
    (hback : ∀ d, (back d).Minor) (hs' : s' ∈ s.onward) (d now : ℤ) :
    W.Triple I (R s) (ParkingService.whenWaiting closing reopened back s' d now) fun _ ↦ T := by
  have hs := (SystemState.ne_idle_of_onward hs').1
  refine .bind (h.elapsedSince _ now) fun _ ↦ .ite (fun _ ↦ h.closeOr hs hclosing ?_) fun _ ↦
    .ite (fun _ ↦ h.moveOn (hback d) hs' now) fun _ ↦ h.stay
  refine .bind (h.minor s (.prInfo reopened) hreopened) fun _ ↦ ?_
  refine .bind (h.minor s .ktime trivial) fun now' ↦ ?_
  exact .bind (h.minor s (.store .lastVehicleDetect now') trivial) fun _ ↦ h.setState hs'

theorem whenExitRequested (h : BranchOutline W I R C T) (d now : ℤ) :
    W.Triple I (R .exitRequested) (ParkingService.whenExitRequested d now) fun _ ↦ T := by
  refine .ite (fun _ ↦ ?_) fun _ ↦ ?_
  · refine .bind (h.minor _ (.prInfo (.exitVehicle d)) trivial) fun _ ↦ ?_
    exact .bind (h.onward _ .exitVehicleDetected (by decide)) fun _ ↦ h.store _ _
  refine .bind (h.elapsedSince _ now) fun _ ↦ .ite (fun _ ↦ ?_) fun _ ↦ h.stay
  refine h.closeOr (by decide) trivial ?_
  refine .bind (h.minor _ (.prInfo .exitTimeoutReopened) trivial) fun _ ↦ ?_
  refine .bind (h.minor _ .ktime trivial) fun now' ↦ ?_
  refine .bind (h.minor _ (.store .lastVehicleDetect now') trivial) fun _ ↦ ?_
  refine .bind (h.minor _ (.store .exitRequestTime now') trivial) fun _ ↦ ?_
  exact h.setState (by decide)

theorem dispatch (h : BranchOutline W I R C T) (s : SystemState) (d now : ℤ) :
    W.Triple I (R s) (ParkingService.dispatch s d now) fun _ ↦ T := by
  cases s with
  | idle => exact .ite (fun _ ↦ h.enter d now) fun _ ↦ h.stay
  | entryDetected | exitVehicleDetected =>
    -- the two differ in when the vehicle counts as gone, which does not matter here
    refine .ite (fun _ ↦ h.store _ now) fun _ ↦ .ite (fun _ ↦ ?_) fun _ ↦ h.stay
    exact h.moveOn (by trivial) (by decide) now
  | entryWaiting | exitVehicleWaiting =>
    exact h.whenWaiting (by trivial) (by trivial) (by intro; trivial) (by decide) d now
  | exitRequested => exact h.whenExitRequested d now

end BranchOutline

/-! ## One turn -/

/-- Operations of the last part of a turn, which only drives the buzzer and the LEDs. -/
def GateOp.Signals : GateOp → Prop
  | .readState => True
  | .load v => v = .buzzerPhase
  | .store v _ => v = .buzzerPhase
  | .gpioSet _ _ => True
  | _ => False

theorem signalActive_uses (state : SystemState) : (signalActive state).Uses GateOp.Signals := by
  refine ⟨rfl, fun phase ↦ ⟨rfl, fun _ ↦ ?_⟩⟩
  change Prog.Uses _ (ite _ _ _)
  split
  · exact ⟨trivial, fun _ ↦ ⟨trivial, fun _ ↦ ⟨trivial, fun _ ↦ trivial⟩⟩⟩
  · exact ⟨trivial, fun _ ↦ ⟨trivial, fun _ ↦ ⟨trivial, fun _ ↦ trivial⟩⟩⟩

theorem signalIdle_uses : signalIdle.Uses GateOp.Signals :=
  ⟨rfl, fun _ ↦ ⟨trivial, fun _ ↦ ⟨trivial, fun _ ↦ ⟨trivial, fun _ ↦ trivial⟩⟩⟩⟩

theorem signal_uses : signal.Uses GateOp.Signals := by
  refine ⟨trivial, fun state ↦ ?_⟩
  change Prog.Uses _ (ite _ _ _)
  split
  · exact signalActive_uses state
  · exact signalIdle_uses

/-- A turn that leads from an assertion back to it carries it from one loop top to every later one,
and keeps the invariant always, as long as the assumption of the view is met. -/
theorem sound_of_turn {T : V → Prop} (hturn : W.Triple I T stateMachineTurn fun _ ↦ T)
    {c c' : GateConfig} (htop : AtLoopTop c) (hI : I (W.proj c.toSnap)) (hT : T (W.proj c.toSnap))
    (hc : gateMachine.Steps c c') (hassume : Always W.assume c'.trace) :
    I (W.proj c'.toSnap) ∧ (AtLoopTop c' → T (W.proj c'.toSnap)) := by
  refine W.sound ?_ htop hI hT hc hassume
  intro j s p x hentry
  obtain ⟨rfl, -⟩ : stateMachineTurn = p ∧ s = x := by simpa [gateMachine] using hentry
  exact hturn

/-- Assertions for a turn: `T` at the top of the loop, `P` when a press has been taken, `S` when
the button has been dealt with, `R s` when the state has been read as `s`, `D s d` when distance
`d` has been measured, and `N s d now` when the clock has been read as `now`. -/
structure TurnOutline (W : View gateMachine V) (I T P S : V → Prop) (R : SystemState → V → Prop)
    (D : SystemState → ℤ → V → Prop) (N : SystemState → ℤ → ℤ → V → Prop) : Prop where
  take : W.Triple I T switchWasPressed fun b v ↦ if b then P v else S v
  press : W.Triple I P onSwitchPress fun _ ↦ S
  read : W.Triple I S gateGetState R
  measure : ∀ s, W.Triple I (R s) ultrasonicMeasureCm (D s)
  clock : ∀ s d, W.Triple I (D s d) ktimeGetSeconds (N s d)
  act : ∀ s d now, W.Triple I (N s d now) (dispatch s d now) fun _ ↦ T
  signal : ∀ o, o.Signals → ∀ v r, I v → T v → W.guard o r v → I (W.step o r v) ∧ T (W.step o r v)

namespace TurnOutline

variable {T P S : V → Prop} {R : SystemState → V → Prop} {D : SystemState → ℤ → V → Prop}
  {N : SystemState → ℤ → ℤ → V → Prop}

theorem turn (h : TurnOutline W I T P S R D N) : W.Triple I T stateMachineTurn fun _ ↦ T := by
  have hpoll : W.Triple I T pollSwitch fun _ ↦ S := by
    refine .bind h.take fun b ↦ ?_
    cases b with
    | true => exact h.press
    | false => exact .ret fun _ _ hS ↦ hS
  refine .bind hpoll fun _ ↦ ?_
  refine .bind h.read fun s ↦ ?_
  refine .bind (h.measure s) fun d ↦ ?_
  refine .bind (h.clock s d) fun now ↦ ?_
  exact .bind (h.act s d now) fun _ ↦ .frame signal_uses h.signal

theorem steps (h : TurnOutline W I T P S R D N) {c c' : GateConfig} (htop : AtLoopTop c)
    (hI : I (W.proj c.toSnap)) (hT : T (W.proj c.toSnap)) (hc : gateMachine.Steps c c')
    (hassume : Always W.assume c'.trace) :
    I (W.proj c'.toSnap) ∧ (AtLoopTop c' → T (W.proj c'.toSnap)) :=
  sound_of_turn h.turn htop hI hT hc hassume

theorem reachable (h : TurnOutline W I T P S R D N) (hI : I (W.proj ⟨.init, []⟩))
    (hT : T (W.proj ⟨.init, []⟩)) {c : GateConfig} (hc : GateReachable c)
    (hassume : Always W.assume c.trace) :
    I (W.proj c.toSnap) ∧ (AtLoopTop c → T (W.proj c.toSnap)) :=
  h.steps (c := .init .init) rfl hI hT hc hassume

end TurnOutline

end ParkingService
