import ParkingService.Gate.Rules

/-!
# Turns nobody interferes with

What a turn of the thread does when it is left alone, from any state and for any readings. These are
the turns from which particular runs are put together; what holds under interference is the business
of the other modules.
-/

namespace ParkingService

open Concurrency

/-- Left alone, the program may end in `Q`. -/
abbrev GateMay {α : Type} (p : GateProg α) (Q : α → GateSnap → Prop) (s : GateSnap) : Prop :=
  gateMachine.May () p Q s

variable {s : GateSnap}

theorem may_perform {o : GateOp} (r : o.Resp) {Q : o.Resp → GateSnap → Prop}
    (h : o.Answers r s.state) (hQ : Q r (s.log (o.effect s.state) (.op () o r))) :
    GateMay (perform o) Q s :=
  .call r (GateOp.exec_eq_some.mpr ⟨h, rfl⟩) hQ

theorem may_ultrasonicMeasureCm (e : Echo) {Q : ℤ → GateSnap → Prop}
    (hQ : Q (ultrasonicDistance e) (s.log s.state (.op () .ping e))) :
    GateMay ultrasonicMeasureCm Q s :=
  .bind (may_perform (o := .ping) e trivial (.ret hQ))

/-! ## What motor, buzzer and LEDs leave alone -/

structure SameControl (x y : GateState) : Prop where
  switchPressed : y.switchPressed = x.switchPressed
  currentState : y.currentState = x.currentState
  timer : ∀ v, v ≠ .buzzerPhase → y.var v = x.var v

namespace SameControl

theorem refl (x : GateState) : SameControl x x := ⟨rfl, rfl, fun _ _ ↦ rfl⟩

theorem trans {x y z : GateState} (h : SameControl x y) (h' : SameControl y z) :
    SameControl x z where
  switchPressed := h'.switchPressed.trans h.switchPressed
  currentState := h'.currentState.trans h.currentState
  timer v hv := (h'.timer v hv).trans (h.timer v hv)

theorem openingStep_iterate (n : ℕ) (x : GateState) :
    SameControl x (Nat.iterate GateState.openingStep n x) := by
  induction n generalizing x with
  | zero => exact refl x
  | succ n ih =>
    have hstep : SameControl x x.openingStep := ⟨rfl, rfl, fun _ _ ↦ rfl⟩
    exact hstep.trans (ih x.openingStep)

theorem of_signals {o : GateOp} (ho : o.Signals) (x : GateState) :
    SameControl x (o.effect x) := by
  cases o with
  | store v y =>
    obtain rfl : v = .buzzerPhase := ho
    exact ⟨rfl, rfl, fun v hv ↦ Function.update_of_ne hv _ _⟩
  | readState | load | gpioSet => exact ⟨rfl, rfl, fun _ _ ↦ rfl⟩
  | _ => exact ho.elim

end SameControl

/-- The labels of an opening movement. -/
def opening : List GateLabel := .replicate stepperGateSteps (.op () .openingStep ())

theorem may_gateOpen {Q : Unit → GateSnap → Prop}
    (hQ : ∀ x, SameControl s.state x → Q () ⟨x, s.trace ++ opening⟩) : GateMay gateOpen Q s := by
  have hbody (s : GateSnap) : gateMachine.Advances () (perform .openingStep) s (.ret ())
      (s.log s.state.openingStep (.op () .openingStep ())) :=
    .op (show gateMachine.exec .openingStep () s.state = some s.state.openingStep from rfl) .refl
  exact ⟨(), _, .times hbody stepperGateSteps, hQ _ (.openingStep_iterate _ _)⟩

/-! ## The end of a turn -/

/-- Labels of the last part of a turn. -/
def IsSignal (l : GateLabel) : Prop := ∃ o r, o.Signals ∧ l = .op () o r

theorem readings_of_signals {tr : List GateLabel} (h : ∀ l ∈ tr, IsSignal l) :
    readings tr = [] := by
  refine List.filterMap_eq_nil_iff.mpr fun l hl ↦ ?_
  obtain ⟨o, r, ho, rfl⟩ := h l hl
  cases o <;> first | rfl | exact ho.elim

theorem clocks_of_signals {tr : List GateLabel} (h : ∀ l ∈ tr, IsSignal l) : clocks tr = [] := by
  refine List.filterMap_eq_nil_iff.mpr fun l hl ↦ ?_
  obtain ⟨o, r, ho, rfl⟩ := h l hl
  cases o <;> first | rfl | exact ho.elim

theorem GateOp.Signals.answers {o : GateOp} (ho : o.Signals) (x : GateState) :
    ∃ r, o.Answers r x := by
  cases o with
  | readState | load => exact ⟨_, rfl⟩
  | store | gpioSet => exact ⟨(), trivial⟩
  | _ => exact ho.elim

theorem may_of_signals {α : Type} {p : GateProg α} (hp : p.Uses GateOp.Signals)
    {Q : α → GateSnap → Prop}
    (hQ : ∀ a x tr, SameControl s.state x → (∀ l ∈ tr, IsSignal l) → Q a ⟨x, s.trace ++ tr⟩) :
    GateMay p Q s := by
  induction p generalizing s with
  | ret a => exact .ret (by simpa using hQ a s.state [] (.refl _) (by simp))
  | op o k ih =>
    obtain ⟨ho, hk⟩ := hp
    obtain ⟨r, hr⟩ := ho.answers s.state
    refine .bind (p := perform o) (may_perform r hr (ih r (hk r) fun a x tr hsame htr ↦ ?_))
    have hend := hQ a x (.op () o r :: tr) ((SameControl.of_signals ho _).trans hsame)
      (by simpa using ⟨⟨o, r, ho, rfl⟩, htr⟩)
    simpa using hend

/-! ## Whole turns -/

/-- The labels of a turn from the button to the entry of the `switch`. -/
def measured (state : SystemState) (e : Echo) (now : ℤ) : List GateLabel :=
  [.op () .readState state, .op () .ping e, .op () .ktime now]

/-- One turn, given what the button and the branch of the `switch` do. -/
theorem may_turn {Q : Unit → GateSnap → Prop} (e : Echo) (now : ℤ)
    (h : GateMay pollSwitch (fun _ s₁ ↦
      GateMay (dispatch s₁.state.currentState (ultrasonicDistance e) now) (fun _ s₂ ↦
        ∀ x tr, SameControl s₂.state x → (∀ l ∈ tr, IsSignal l) → Q () ⟨x, s₂.trace ++ tr⟩)
      ⟨s₁.state, s₁.trace ++ measured s₁.state.currentState e now⟩) s) :
    GateMay stateMachineTurn Q s := by
  obtain ⟨⟨⟩, s₁, hpoll, ⟨⟩, s₂, hdispatch, hQ⟩ := h
  refine .bind ⟨(), s₁, hpoll, ?_⟩
  refine .bind (may_perform (o := .readState) _ rfl ?_)
  refine .bind (may_ultrasonicMeasureCm e ?_)
  refine .bind (may_perform (o := .ktime) now trivial ?_)
  refine .bind ⟨(), s₂, ?_, may_of_signals signal_uses fun _ ↦ hQ⟩
  simpa [Snap.log, measured, GateOp.effect] using hdispatch

theorem may_pollSwitch {Q : Unit → GateSnap → Prop} (hpress : s.state.switchPressed = false)
    (hQ : Q () (s.log s.state (.op () .xchgSwitchPressed false))) :
    GateMay pollSwitch Q s := by
  refine .bind (may_perform (o := .xchgSwitchPressed) false hpress.symm (.ret ?_))
  have hsame : GateOp.xchgSwitchPressed.effect s.state = s.state := by
    rw [GateOp.effect, ← hpress]
  rwa [hsame]

/-- The labels of an exit opening. -/
def exitOpening (now : ℤ) : List GateLabel :=
  [.op () .xchgSwitchPressed true, .op () .readState .idle, .op () (.prInfo .exitOpen) ()]
    ++ opening ++ [.op () .ktime now, .op () (.store .exitRequestTime now) (),
      .op () (.writeState .exitRequested) ()]

/-- A press that is taken in `STATE_IDLE`. -/
theorem may_pollSwitch_open {Q : Unit → GateSnap → Prop} (hpress : s.state.switchPressed = true)
    (hstate : s.state.currentState = .idle) (now : ℤ)
    (hQ : ∀ x : GateState, x.switchPressed = false → x.currentState = .exitRequested →
      x.var .exitRequestTime = now → Q () ⟨x, s.trace ++ exitOpening now⟩) :
    GateMay pollSwitch Q s := by
  refine .bind (may_perform (o := .xchgSwitchPressed) true hpress.symm ?_)
  refine .bind (may_perform (o := .readState) .idle hstate.symm ?_)
  refine .bind (may_perform (o := .prInfo .exitOpen) () trivial ?_)
  refine .bind (may_gateOpen fun x hsame ↦ ?_)
  refine .bind (may_perform (o := .ktime) now trivial ?_)
  refine .bind (may_perform (o := .store .exitRequestTime now) () trivial ?_)
  refine may_perform (o := .writeState .exitRequested) () trivial ?_
  have hend := hQ
    ((GateOp.writeState .exitRequested).effect ((GateOp.store .exitRequestTime now).effect x))
    hsame.switchPressed rfl (by simp [GateOp.effect])
  simpa [Snap.log, exitOpening, GateOp.effect] using hend

/-- The labels of a turn up to the entry of the `switch`, when no press is pending. -/
def turnHead (state : SystemState) (e : Echo) (now : ℤ) : List GateLabel :=
  [.start () (), .op () .xchgSwitchPressed false] ++ measured state e now

@[simp] theorem readings_turnHead (state : SystemState) (e : Echo) (now : ℤ) :
    readings (turnHead state e now) = [ultrasonicDistance e] := rfl

/-- The timer of the waiting states is read. -/
def IsTimerTest : GateLabel → Prop
  | .op _ (.load .lastVehicleDetect) _ => True
  | _ => False

theorem not_timerTest_of_signal {l : GateLabel} (h : IsSignal l) : ¬IsTimerTest l := by
  obtain ⟨o, r, ho, rfl⟩ := h
  cases o with
  | load v =>
    obtain rfl : v = .buzzerPhase := ho
    exact id
  | _ => exact id

theorem not_timerTest_turnHead (state : SystemState) (e : Echo) (now : ℤ) :
    ∀ l ∈ turnHead state e now, ¬IsTimerTest l := by
  simp [turnHead, measured, IsTimerTest]

theorem openingStep_mem_opening : .op () .openingStep () ∈ opening :=
  List.mem_replicate.mpr ⟨by decide, rfl⟩

theorem not_timerTest_opening : ∀ l ∈ opening, ¬IsTimerTest l := by
  intro l hl
  rw [List.eq_of_mem_replicate hl]
  exact id

variable {c : GateConfig} {e : Echo}

/-- From one loop top to the next. -/
theorem steps_of_turn (Q : GateSnap → Prop) (htop : AtLoopTop c)
    (h : GateMay stateMachineTurn (fun _ ↦ Q) (c.toSnap.log c.state (.start () ()))) :
    ∃ c', gateMachine.Steps c c' ∧ AtLoopTop c' ∧ Q c'.toSnap := by
  obtain ⟨c', hsteps, hthread, hQ⟩ := h.steps (j := ()) htop rfl
  exact ⟨c', hsteps, (congrFun hthread ()).trans htop, hQ⟩

/-- A turn without a press, given what its branch of the `switch` does. -/
theorem steps_of_dispatch (Q : GateSnap → Prop) (e : Echo) (now : ℤ) (htop : AtLoopTop c)
    (hpress : c.state.switchPressed = false) {state : SystemState}
    (hstate : c.state.currentState = state)
    (h : GateMay (dispatch state (ultrasonicDistance e) now)
      (fun _ s ↦ ∀ x tr, SameControl s.state x → (∀ l ∈ tr, IsSignal l) → Q ⟨x, s.trace ++ tr⟩)
      ⟨c.state, c.trace ++ turnHead state e now⟩) :
    ∃ c', gateMachine.Steps c c' ∧ AtLoopTop c' ∧ Q c'.toSnap := by
  subst hstate
  refine steps_of_turn Q htop (may_turn e now (may_pollSwitch hpress ?_))
  simpa [turnHead] using h

/-- The labels of a turn that opens for a vehicle, up to the signals. -/
def entryTurn (e : Echo) (now : ℤ) : List GateLabel :=
  turnHead .idle e now
    ++ [.op () (.prInfo (.entryOpen (ultrasonicDistance e))) (),
      .op () (.writeState .entryDetected) ()]
    ++ opening ++ [.op () (.store .lastVehicleDetect now) ()]

theorem not_timerTest_entryTurn (e : Echo) (now : ℤ) : ∀ l ∈ entryTurn e now, ¬IsTimerTest l := by
  simp only [entryTurn, List.mem_append, List.mem_cons, List.not_mem_nil, or_false]
  rintro l (((h | rfl | rfl) | h) | rfl)
  · exact not_timerTest_turnHead _ _ _ l h
  · exact id
  · exact id
  · exact not_timerTest_opening l h
  · exact id

theorem openingStep_mem_entryTurn (e : Echo) (now : ℤ) :
    .op () .openingStep () ∈ entryTurn e now := by
  rw [entryTurn]
  exact List.mem_append_left _ (List.mem_append_right _ openingStep_mem_opening)

/-- `STATE_IDLE`, a vehicle in front of the sensor. -/
theorem turn_entry (now : ℤ) (htop : AtLoopTop c) (hpress : c.state.switchPressed = false)
    (hstate : c.state.currentState = .idle) (hd : VehicleInRange (ultrasonicDistance e)) :
    ∃ c', gateMachine.Steps c c' ∧ AtLoopTop c' ∧ c'.state.switchPressed = false
      ∧ c'.state.currentState = .entryDetected
      ∧ ∃ tr, c'.trace = c.trace ++ entryTurn e now ++ tr ∧ ∀ l ∈ tr, IsSignal l := by
  refine steps_of_dispatch (fun s ↦ s.state.switchPressed = false
    ∧ s.state.currentState = .entryDetected
    ∧ ∃ tr, s.trace = c.trace ++ entryTurn e now ++ tr ∧ ∀ l ∈ tr, IsSignal l) e now htop hpress
    hstate ?_
  rw [dispatch, whenIdle, if_pos hd]
  refine .bind (may_perform (o := .prInfo _) () trivial ?_)
  refine .bind (may_perform (o := .writeState _) () trivial ?_)
  refine .bind (may_gateOpen fun x hopen ↦ ?_)
  refine may_perform (o := .store _ _) () trivial fun y tr hsame htr ↦ ?_
  refine ⟨hsame.switchPressed.trans (hopen.switchPressed.trans hpress),
    hsame.currentState.trans hopen.currentState, tr, ?_, htr⟩
  simp [Snap.log, entryTurn]

private theorem not_inRange_of_neg {d : ℤ} (hd : d < 0) : ¬VehicleInRange d := by
  intro h
  have hpos := h.1
  omega

/-- `STATE_ENTRY_WAITING`, the timer expired: the first closing step is made whatever the turn has
measured. -/
theorem turn_entry_close (now : ℤ) (htop : AtLoopTop c) (hpress : c.state.switchPressed = false)
    (hstate : c.state.currentState = .entryWaiting)
    (hdue : entryCloseDelaySec ≤ toInt32 (now - c.state.var .lastVehicleDetect)) :
    ∃ c', gateMachine.Steps c c' ∧ c'.trace = c.trace ++ turnHead .entryWaiting e now
      ++ [.op () (.load .lastVehicleDetect) (c.state.var .lastVehicleDetect)]
      ++ [.op () (.prInfo .entryClose) ()] ++ [.op () .closingStep ()] := by
  have hpass : gateMachine.MayPass () stateMachineTurn
      (fun s ↦ s.trace = c.trace ++ turnHead .entryWaiting e now
        ++ [.op () (.load .lastVehicleDetect) (c.state.var .lastVehicleDetect)]
        ++ [.op () (.prInfo .entryClose) ()] ++ [.op () .closingStep ()])
      (c.toSnap.log c.state (.start () ())) := by
    refine .bind (may_pollSwitch hpress ?_)
    refine .bind (may_perform (o := .readState) .entryWaiting hstate.symm ?_)
    refine .bind (may_ultrasonicMeasureCm e ?_)
    refine .bind (may_perform (o := .ktime) now trivial (.left ?_))
    rw [dispatch, whenEntryWaiting, whenWaiting]
    refine .bind (.bind (may_perform (o := .load .lastVehicleDetect) _ rfl (.ret ?_)))
    rw [if_pos (by exact hdue), closeOr]
    refine .bind (may_perform (o := .prInfo .entryClose) () trivial (.left ?_))
    refine .bind (may_perform (o := .closingStep) () trivial (.here ?_))
    simp [Snap.log, turnHead, measured, GateOp.effect]
  exact hpass.steps (j := ()) htop rfl

/-- The first batch of a close. -/
theorem advances_batch (left phase : ℕ) {j : ℕ} (hj : j < closeBatch) (s : GateSnap) :
    ∃ x, gateMachine.Advances () (closeLoop (left + j + 1) (closeBatch - (j + 1)) phase) s
        (afterStep left closeBatch phase)
        ⟨x, s.trace ++ .replicate (j + 1) (.op () .closingStep ())⟩
      ∧ x.switchPressed = s.state.switchPressed ∧ x.switchReopen = s.state.switchReopen := by
  have hbatch : closeBatch = 64 := rfl
  have hexec : gateMachine.exec .closingStep () s.state = some s.state.closingStep := rfl
  induction j generalizing s with
  | zero => exact ⟨_, .op hexec .refl, rfl, rfl⟩
  | succ j ih =>
    -- there is no check in the middle of a batch
    have hsucc : closeBatch - (j + 1 + 1) + 1 = closeBatch - (j + 1) := by omega
    have hmid : ¬((closeBatch - (j + 1)) % closeBatch = 0
        ∧ closeBatch - (j + 1) < stepperGateSteps) := by
      rw [hbatch, Nat.mod_eq_of_lt (by omega)]
      rintro ⟨hzero, -⟩
      omega
    obtain ⟨x, hrest, hpressed, hreopen⟩ :=
      ih (by omega) (s.log s.state.closingStep (.op () .closingStep ())) rfl
    rw [Snap.log_trace, List.append_assoc, List.singleton_append, ← List.replicate_succ] at hrest
    refine ⟨x, .op hexec ?_, hpressed, hreopen⟩
    rw [hsucc, afterStep, if_neg hmid]
    exact hrest

/-- The labels of a close up to its first check, from the timer test on. -/
def closeStart (since : ℤ) (e : Echo) : List GateLabel :=
  [.op () (.load .lastVehicleDetect) since, .op () (.prInfo .entryClose) ()]
    ++ .replicate closeBatch (.op () .closingStep ())
    ++ [.op () (.gpioSet .buzzer 0) (), .op () .ping e]

/-- In `STATE_ENTRY_WAITING` with the timer expired, a close that its first check breaks off. -/
theorem pass_entry_abort {s : GateSnap} (e : Echo) (d now : ℤ) (tr : List GateLabel)
    (hdue : entryCloseDelaySec ≤ toInt32 (now - s.state.var .lastVehicleDetect))
    (hcheck : ∀ x pre, x.switchPressed = s.state.switchPressed →
      x.switchReopen = s.state.switchReopen →
      GateMay (closeInterrupted (ultrasonicDistance e))
        (fun b s' ↦ b = true ∧ s'.trace = pre ++ tr) ⟨x, pre⟩) :
    gateMachine.MayPass () (dispatch .entryWaiting d now)
      (fun s' ↦ s'.trace = s.trace ++ closeStart (s.state.var .lastVehicleDetect) e ++ tr
        ++ [.op () (.prInfo (.closeAborted (ultrasonicDistance e) closeBatch)) ()]) s := by
  rw [dispatch, whenEntryWaiting, whenWaiting]
  refine .bind (.bind (may_perform (o := .load .lastVehicleDetect) _ rfl (.ret ?_)))
  rw [if_pos (by exact hdue), closeOr]
  refine .bind (may_perform (o := .prInfo .entryClose) () trivial (.left ?_))
  obtain ⟨x, hbatch, hpressed, hreopen⟩ := advances_batch 960 9 (j := 63) (by decide)
    (Snap.log (s.log s.state (.op () (.load .lastVehicleDetect) (s.state.var .lastVehicleDetect)))
      s.state (.op () (.prInfo .entryClose) ()))
  refine .of_advances hbatch ?_
  rw [afterStep, if_pos (by decide)]
  refine .bind (p := buzzerPattern ((9 + 1) % 10)) (may_perform (o := .gpioSet .buzzer 0) ()
    trivial ?_)
  refine .bind (may_ultrasonicMeasureCm e ?_)
  refine .bind ?_
  obtain ⟨b, s', hrun, rfl, htr⟩ :=
    hcheck ((GateOp.gpioSet .buzzer 0).effect x) _ hpressed hreopen
  refine ⟨true, s', hrun, .bind (may_perform (o := .prInfo _) () trivial (.here ?_))⟩
  rw [Snap.log_trace, htr]
  simp [Snap.log, closeStart, closeBatch]

/-- The same from one loop top, given what the button does. -/
theorem turn_entry_abort (e : Echo) (now : ℤ) (poll tr : List GateLabel) (htop : AtLoopTop c)
    (hdue : entryCloseDelaySec ≤ toInt32 (now - c.state.var .lastVehicleDetect))
    (hpoll : GateMay pollSwitch (fun _ s ↦ s.state.currentState = .entryWaiting
        ∧ s.state.var = c.state.var ∧ s.trace = c.trace ++ .start () () :: poll
        ∧ ∀ x pre, x.switchPressed = s.state.switchPressed →
          x.switchReopen = s.state.switchReopen →
          GateMay (closeInterrupted (ultrasonicDistance e))
            (fun b s' ↦ b = true ∧ s'.trace = pre ++ tr) ⟨x, pre⟩)
      (c.toSnap.log c.state (.start () ()))) :
    ∃ c', gateMachine.Steps c c' ∧ c'.trace = c.trace ++ .start () () :: poll
      ++ measured .entryWaiting .silent now ++ closeStart (c.state.var .lastVehicleDetect) e ++ tr
      ++ [.op () (.prInfo (.closeAborted (ultrasonicDistance e) closeBatch)) ()] := by
  obtain ⟨⟨⟩, s, hrun, hstate, hvar, htrace, hcheck⟩ := hpoll
  have hpass : gateMachine.MayPass () stateMachineTurn
      (fun s' ↦ s'.trace = s.trace ++ measured .entryWaiting .silent now
        ++ closeStart (s.state.var .lastVehicleDetect) e ++ tr
        ++ [.op () (.prInfo (.closeAborted (ultrasonicDistance e) closeBatch)) ()])
      (c.toSnap.log c.state (.start () ())) := by
    refine .bind ⟨(), s, hrun, ?_⟩
    refine .bind (may_perform (o := .readState) .entryWaiting hstate.symm ?_)
    refine .bind (may_ultrasonicMeasureCm .silent ?_)
    refine .bind (may_perform (o := .ktime) now trivial (.left ?_))
    have hdue' : entryCloseDelaySec ≤ toInt32 (now - s.state.var .lastVehicleDetect) := hvar ▸ hdue
    have habort := pass_entry_abort (s := ⟨s.state, s.trace ++ measured .entryWaiting .silent now⟩)
      e (ultrasonicDistance .silent) now tr hdue' hcheck
    simpa [Snap.log, measured, GateOp.effect] using habort
  obtain ⟨c', hsteps, htr⟩ := hpass.steps (j := ()) htop rfl
  refine ⟨c', hsteps, ?_⟩
  rw [htr, htrace, hvar]

/-! ## A close that nobody interrupts -/

/-- A label of a close all of whose checks hear `e` and find no press. -/
def OfClose (e : Echo) : GateLabel → Prop
  | .op _ .closingStep _ | .op _ .deenergize _ => True
  | .op _ (.gpioSet pin _) _ => pin = .buzzer
  | .op _ .ping r => r = e
  | .op _ .xchgSwitchPressed r | .op _ .xchgSwitchReopen r => r = false
  | _ => False

theorem may_closeInterrupted {d : ℤ} {Q : Bool → GateSnap → Prop} (hd : ¬VehicleInRange d)
    (hpress : s.state.switchPressed = false) (hreopen : s.state.switchReopen = false)
    (hQ : Q false ⟨s.state, s.trace
      ++ [.op () .xchgSwitchPressed false, .op () .xchgSwitchReopen false]⟩) :
    GateMay (closeInterrupted d) Q s := by
  rw [closeInterrupted, if_neg hd]
  refine .bind (may_perform (o := .xchgSwitchPressed) false hpress.symm ?_)
  have hsame : GateOp.xchgSwitchPressed.effect s.state = s.state := by rw [GateOp.effect, ← hpress]
  have hsame' : GateOp.xchgSwitchReopen.effect s.state = s.state := by
    rw [GateOp.effect, ← hreopen]
  refine may_perform (o := .xchgSwitchReopen) false (by rw [hsame]; exact hreopen.symm) ?_
  rw [Snap.log_state, hsame, hsame']
  simpa [Snap.log] using hQ

/-- The rest of a close. -/
theorem may_closeLoop {e : Echo} (he : ¬VehicleInRange (ultrasonicDistance e))
    (left stepsDone phase : ℕ) {Q : ℤ → GateSnap → Prop} (hpress : s.state.switchPressed = false)
    (hreopen : s.state.switchReopen = false)
    (hQ : ∀ x tr, SameControl s.state x → (∀ l ∈ tr, OfClose e l) → Q 0 ⟨x, s.trace ++ tr⟩) :
    GateMay (closeLoop left stepsDone phase) Q s := by
  induction left generalizing s stepsDone phase with
  | zero =>
    refine .bind (may_perform (o := .deenergize) () trivial (.ret ?_))
    exact hQ _ _ ⟨rfl, rfl, fun _ _ ↦ rfl⟩ (List.forall_mem_singleton.mpr trivial)
  | succ left ih =>
    rw [closeLoop_succ]
    refine .bind (may_perform (o := .closingStep) () trivial ?_)
    rw [afterStep]
    split
    · refine .bind (p := buzzerPattern _) ?_
      have hbuzzer {x : ℤ} : GateMay (perform (.gpioSet .buzzer x)) (fun _ s' ↦
          GateMay (do
            let dist ← ultrasonicMeasureCm
            if ← closeInterrupted dist then
              prInfo (.closeAborted dist (stepsDone + 1))
              buzzerOff
              .times (stepsDone + 1) (perform .openingStep)
              stepperDeenergize
              return -1
            else closeLoop left (stepsDone + 1) ((phase + 1) % 10)) Q s')
          (s.log s.state.closingStep (.op () .closingStep ())) := by
        refine may_perform (o := .gpioSet .buzzer x) () trivial ?_
        refine .bind (may_ultrasonicMeasureCm e (.bind (may_closeInterrupted he hpress hreopen ?_)))
        refine ih _ _ hpress hreopen fun y tr hsame htr ↦ ?_
        have hend := hQ y (.op () .closingStep () :: .op () (.gpioSet .buzzer x) ()
          :: .op () .ping e :: .op () .xchgSwitchPressed false :: .op () .xchgSwitchReopen false
          :: tr) ⟨hsame.switchPressed, hsame.currentState, hsame.timer⟩
          (by simpa [OfClose] using htr)
        simpa [Snap.log] using hend
      rw [buzzerPattern]
      split
      · exact hbuzzer
      · exact hbuzzer
    · refine ih _ _ hpress hreopen fun y tr hsame htr ↦ ?_
      have hend := hQ y (.op () .closingStep () :: tr)
        ⟨hsame.switchPressed, hsame.currentState, hsame.timer⟩
        (by simpa [OfClose] using htr)
      simpa [Snap.log] using hend

/-- The labels of a close that gets through, from the line that announces it; `tr` are those after
its first step. -/
def wholeClose (line : LogLine) (tr : List GateLabel) : List GateLabel :=
  [.op () (.prInfo line) (), .op () .closingStep ()] ++ tr ++ [.op () (.writeState .idle) ()]

/-- A close with nobody there and both flags down. -/
theorem may_closeOr {e : Echo} {line : LogLine} {reopened : GateProg Unit}
    {Q : Unit → GateSnap → Prop} (he : ¬VehicleInRange (ultrasonicDistance e))
    (hpress : s.state.switchPressed = false) (hreopen : s.state.switchReopen = false)
    (hQ : ∀ x tr, x.switchPressed = false → x.currentState = .idle →
      (∀ l ∈ tr, OfClose e l) → Q () ⟨x, s.trace ++ wholeClose line tr⟩) :
    GateMay (closeOr line reopened) Q s := by
  have hfirst : gateCloseInterruptible = (do
      perform .closingStep
      closeLoop 1023 1 9) := rfl
  rw [closeOr, hfirst]
  refine .bind (may_perform (o := .prInfo line) () trivial ?_)
  refine .bind (.bind (may_perform (o := .closingStep) () trivial ?_))
  refine may_closeLoop he _ _ _ hpress hreopen fun x tr hsame htr ↦ ?_
  refine may_perform (o := .writeState .idle) () trivial ?_
  have hend := hQ ((GateOp.writeState .idle).effect x) tr (hsame.switchPressed.trans hpress) rfl htr
  simpa [Snap.log, wholeClose] using hend

/-- The labels of a turn that closes after an entry, up to the signals. -/
def closedTurn (since : ℤ) (e : Echo) (now : ℤ) (tr : List GateLabel) : List GateLabel :=
  turnHead .entryWaiting e now
    ++ .op () (.load .lastVehicleDetect) since :: wholeClose .entryClose tr

theorem closingStep_mem_closedTurn (since : ℤ) (e : Echo) (now : ℤ) (tr : List GateLabel) :
    .op () .closingStep () ∈ closedTurn since e now tr := by
  simp [closedTurn, wholeClose]

/-- `STATE_ENTRY_WAITING`, the timer expired and nobody there: the gate closes. -/
theorem turn_entry_closed (now : ℤ) (htop : AtLoopTop c) (hpress : c.state.switchPressed = false)
    (hreopen : c.state.switchReopen = false) (hstate : c.state.currentState = .entryWaiting)
    (hdue : entryCloseDelaySec ≤ toInt32 (now - c.state.var .lastVehicleDetect))
    (he : ¬VehicleInRange (ultrasonicDistance e)) :
    ∃ c', gateMachine.Steps c c' ∧ AtLoopTop c' ∧ c'.state.switchPressed = false
      ∧ c'.state.currentState = .idle ∧ ∃ tr tr',
        c'.trace = c.trace ++ closedTurn (c.state.var .lastVehicleDetect) e now tr ++ tr'
          ∧ (∀ l ∈ tr, OfClose e l) ∧ ∀ l ∈ tr', IsSignal l := by
  refine steps_of_dispatch (fun s ↦ s.state.switchPressed = false ∧ s.state.currentState = .idle
    ∧ ∃ tr tr', s.trace = c.trace ++ closedTurn (c.state.var .lastVehicleDetect) e now tr ++ tr'
      ∧ (∀ l ∈ tr, OfClose e l) ∧ ∀ l ∈ tr', IsSignal l) e now htop hpress hstate ?_
  rw [dispatch, whenEntryWaiting, whenWaiting]
  refine .bind (.bind (may_perform (o := .load .lastVehicleDetect) _ rfl (.ret ?_)))
  rw [if_pos (by exact hdue)]
  refine may_closeOr he hpress hreopen fun x tr hx hidle htr y tr' hsame htr' ↦ ?_
  refine ⟨hsame.switchPressed.trans hx, hsame.currentState.trans hidle, tr, tr', ?_, htr, htr'⟩
  simp [Snap.log, closedTurn, GateOp.effect]

/-- The labels of a turn that finds the vehicle gone, up to the signals. -/
def goneTurn (e : Echo) (now : ℤ) : List GateLabel :=
  turnHead .entryDetected e now
    ++ [.op () (.prInfo (.entryVehicleGone (ultrasonicDistance e))) (),
      .op () (.store .lastVehicleDetect now) (), .op () (.writeState .entryWaiting) ()]

theorem not_timerTest_goneTurn (e : Echo) (now : ℤ) : ∀ l ∈ goneTurn e now, ¬IsTimerTest l := by
  simp [goneTurn, turnHead, measured, IsTimerTest]

/-- `STATE_ENTRY_DETECTED`, no echo: the vehicle counts as gone. -/
theorem turn_entry_gone (now : ℤ) (htop : AtLoopTop c) (hpress : c.state.switchPressed = false)
    (hstate : c.state.currentState = .entryDetected) (hd : ultrasonicDistance e < 0) :
    ∃ c', gateMachine.Steps c c' ∧ AtLoopTop c' ∧ c'.state.switchPressed = false
      ∧ c'.state.currentState = .entryWaiting ∧ c'.state.var .lastVehicleDetect = now
      ∧ ∃ tr, c'.trace = c.trace ++ goneTurn e now ++ tr ∧ ∀ l ∈ tr, IsSignal l := by
  refine steps_of_dispatch (fun s ↦ s.state.switchPressed = false
    ∧ s.state.currentState = .entryWaiting ∧ s.state.var .lastVehicleDetect = now ∧ ∃ tr,
      s.trace = c.trace ++ goneTurn e now ++ tr ∧ ∀ l ∈ tr, IsSignal l) e now htop hpress hstate ?_
  rw [dispatch, whenEntryDetected, if_neg (not_inRange_of_neg hd), if_pos (.inl hd), moveOn]
  refine .bind (may_perform (o := .prInfo _) () trivial ?_)
  refine .bind (may_perform (o := .store _ _) () trivial ?_)
  refine may_perform (o := .writeState _) () trivial fun y tr hsame htr ↦ ?_
  refine ⟨hsame.switchPressed.trans hpress, hsame.currentState, hsame.timer _ (by decide), tr, ?_,
    htr⟩
  simp [Snap.log, goneTurn]

/-- A turn whose branch of the `switch` does nothing. -/
theorem turn_still (now : ℤ) (htop : AtLoopTop c) (hpress : c.state.switchPressed = false)
    (hstill : dispatch c.state.currentState (ultrasonicDistance e) now = pure ()) :
    ∃ c', gateMachine.Steps c c' ∧ AtLoopTop c' ∧ c'.state.switchPressed = false
      ∧ c'.state.currentState = c.state.currentState ∧ ∃ tr,
        c'.trace = c.trace ++ turnHead c.state.currentState e now ++ tr
          ∧ ∀ l ∈ tr, IsSignal l := by
  refine steps_of_dispatch (fun s ↦ s.state.switchPressed = false
    ∧ s.state.currentState = c.state.currentState ∧ ∃ tr,
      s.trace = c.trace ++ turnHead c.state.currentState e now ++ tr ∧ ∀ l ∈ tr, IsSignal l)
    e now htop hpress rfl ?_
  rw [hstill]
  refine .ret fun x tr hsame htr ↦ ?_
  exact ⟨hsame.switchPressed.trans hpress, hsame.currentState, tr, rfl, htr⟩

/-- The labels of a turn that takes a press and finds a vehicle, up to the signals. -/
def exitTurn (t : ℤ) (e : Echo) (now : ℤ) : List GateLabel :=
  [.start () ()] ++ exitOpening t ++ measured .exitRequested e now
    ++ [.op () (.prInfo (.exitVehicle (ultrasonicDistance e))) (),
      .op () (.writeState .exitVehicleDetected) (), .op () (.store .lastVehicleDetect now) ()]

/-- `STATE_IDLE`, a press pending and a vehicle already in front of the sensor: the gate opens, and
the turn ends two states further on. -/
theorem turn_exit_press (t now : ℤ) (htop : AtLoopTop c) (hpress : c.state.switchPressed = true)
    (hstate : c.state.currentState = .idle) (hd : VehicleInRange (ultrasonicDistance e)) :
    ∃ c', gateMachine.Steps c c' ∧ AtLoopTop c' ∧ c'.state.switchPressed = false
      ∧ c'.state.currentState = .exitVehicleDetected
      ∧ ∃ tr, c'.trace = c.trace ++ exitTurn t e now ++ tr ∧ ∀ l ∈ tr, IsSignal l := by
  refine steps_of_turn (fun s ↦ s.state.switchPressed = false
    ∧ s.state.currentState = .exitVehicleDetected
    ∧ ∃ tr, s.trace = c.trace ++ exitTurn t e now ++ tr ∧ ∀ l ∈ tr, IsSignal l) htop ?_
  refine may_turn e now (may_pollSwitch_open hpress hstate t fun x hx hstate' _ ↦ ?_)
  simp only [hstate', dispatch, whenExitRequested, if_pos hd]
  refine .bind (may_perform (o := .prInfo _) () trivial ?_)
  refine .bind (may_perform (o := .writeState _) () trivial ?_)
  refine may_perform (o := .store _ _) () trivial fun y tr hsame htr ↦ ?_
  refine ⟨hsame.switchPressed.trans hx, hsame.currentState, tr, ?_, htr⟩
  simp [Snap.log, exitTurn]

/-- The labels of a turn that takes a press and finds nobody, up to the signals. -/
def exitCalled (t : ℤ) (e : Echo) (now : ℤ) : List GateLabel :=
  [.start () ()] ++ exitOpening t ++ measured .exitRequested e now
    ++ [.op () (.load .exitRequestTime) t]

/-- `STATE_IDLE`, a press pending and nobody in front of the sensor: the gate opens and waits. -/
theorem turn_exit_called (t now : ℤ) (htop : AtLoopTop c) (hpress : c.state.switchPressed = true)
    (hstate : c.state.currentState = .idle) (hd : ¬VehicleInRange (ultrasonicDistance e))
    (hsoon : ¬exitTimeoutSec ≤ toInt32 (now - t)) :
    ∃ c', gateMachine.Steps c c' ∧ AtLoopTop c' ∧ c'.state.switchPressed = false
      ∧ c'.state.currentState = .exitRequested ∧ c'.state.var .exitRequestTime = t
      ∧ ∃ tr, c'.trace = c.trace ++ exitCalled t e now ++ tr ∧ ∀ l ∈ tr, IsSignal l := by
  refine steps_of_turn (fun s ↦ s.state.switchPressed = false
    ∧ s.state.currentState = .exitRequested ∧ s.state.var .exitRequestTime = t
    ∧ ∃ tr, s.trace = c.trace ++ exitCalled t e now ++ tr ∧ ∀ l ∈ tr, IsSignal l) htop ?_
  refine may_turn e now (may_pollSwitch_open hpress hstate t fun x hx hstate' htime ↦ ?_)
  simp only [hstate', dispatch, whenExitRequested, if_neg hd]
  refine .bind (.bind (may_perform (o := .load .exitRequestTime) t htime.symm (.ret ?_)))
  rw [if_neg hsoon]
  refine .ret fun y tr hsame htr ↦ ?_
  refine ⟨hsame.switchPressed.trans hx, hsame.currentState.trans hstate',
    (hsame.timer _ (by decide)).trans htime, tr, ?_, htr⟩
  simp [Snap.log, exitCalled]

/-- The labels of a turn that closes because nobody has come to leave, up to the signals. -/
def timeoutTurn (since : ℤ) (e : Echo) (now : ℤ) (tr : List GateLabel) : List GateLabel :=
  turnHead .exitRequested e now
    ++ .op () (.load .exitRequestTime) since :: wholeClose .exitTimeoutClose tr

/-- `STATE_EXIT_REQUESTED`, the timer expired and nobody there: the gate closes. -/
theorem turn_exit_closed (now : ℤ) (htop : AtLoopTop c) (hpress : c.state.switchPressed = false)
    (hreopen : c.state.switchReopen = false) (hstate : c.state.currentState = .exitRequested)
    (hdue : exitTimeoutSec ≤ toInt32 (now - c.state.var .exitRequestTime))
    (he : ¬VehicleInRange (ultrasonicDistance e)) :
    ∃ c', gateMachine.Steps c c' ∧ AtLoopTop c' ∧ c'.state.currentState = .idle ∧ ∃ tr tr',
        c'.trace = c.trace ++ timeoutTurn (c.state.var .exitRequestTime) e now tr ++ tr'
          ∧ (∀ l ∈ tr, OfClose e l) ∧ ∀ l ∈ tr', IsSignal l := by
  refine steps_of_dispatch (fun s ↦ s.state.currentState = .idle
    ∧ ∃ tr tr', s.trace = c.trace ++ timeoutTurn (c.state.var .exitRequestTime) e now tr ++ tr'
      ∧ (∀ l ∈ tr, OfClose e l) ∧ ∀ l ∈ tr', IsSignal l) e now htop hpress hstate ?_
  rw [dispatch, whenExitRequested, if_neg he]
  refine .bind (.bind (may_perform (o := .load .exitRequestTime) _ rfl (.ret ?_)))
  rw [if_pos (by exact hdue)]
  refine may_closeOr he hpress hreopen fun x tr hx hidle htr y tr' hsame htr' ↦ ?_
  refine ⟨hsame.currentState.trans hidle, tr, tr', ?_, htr, htr'⟩
  simp [Snap.log, timeoutTurn, GateOp.effect]

/-! ## Particular runs -/

/-- Nothing but a press that is handled sets `switch_reopen`. -/
theorem switchReopen_of_reachable (hc : GateReachable c)
    (h : .op () .setSwitchReopen () ∉ c.trace) : c.state.switchReopen = false := by
  have hset : .op () .setSwitchReopen () ∈ c.trace ∨ c.state.switchReopen = false := by
    refine Machine.Steps.invariant (I := fun s ↦ .op () .setSwitchReopen () ∈ s.trace
      ∨ s.state.switchReopen = false) hc (.inr rfl) fun {s l x} hs hl ↦ ?_
    rcases hs with hs | hs
    · exact .inl (List.mem_append_left _ hs)
    · cases l with
      | start =>
        obtain ⟨p, hentry⟩ := hl
        obtain ⟨-, rfl⟩ : _ ∧ s.state = x := by simpa [gateMachine] using hentry
        exact .inr hs
      | op t o r =>
        obtain ⟨-, rfl⟩ := GateOp.exec_eq_some.mp hl
        cases o with
        | setSwitchReopen => exact .inl (by simp)
        | xchgSwitchReopen => exact .inr rfl
        | _ => exact .inr hs
      | ext e =>
        obtain ⟨-, rfl⟩ | ⟨-, rfl⟩ := GateEvent.exec_cases hl
        · exact .inr hs
        · exact .inr hs
  exact hset.resolve_left h

/-- An exit for which a vehicle is already waiting, right after load. -/
theorem exitVehicleDetected_reachable {e : Echo} (hin : VehicleInRange (ultrasonicDistance e))
    (t now : ℤ) : ∃ c, GateReachable c ∧ AtLoopTop c ∧ c.state.switchPressed = false
      ∧ c.state.currentState = .exitVehicleDetected
      ∧ ∃ tr, c.trace = .ext .press :: exitTurn t e now ++ tr ∧ ∀ l ∈ tr, IsSignal l := by
  let c : GateConfig := ⟨(Config.init GateState.init : GateConfig).toSnap.log
    { GateState.init with switchPressed := true } (.ext .press), fun _ ↦ none⟩
  have hpress : gateMachine.Step (.init .init) c := .ext (e := GateEvent.press) rfl
  obtain ⟨c', hsteps, htop, hp, hs, tr, htr, hsig⟩ :=
    turn_exit_press (c := c) t now rfl rfl rfl hin
  exact ⟨c', .head hpress hsteps, htop, hp, hs, tr, htr, hsig⟩

/-- An entry up to the waiting state, label by label: a vehicle comes, and is gone. -/
theorem entryWaiting_run {e e' : Echo} (hin : VehicleInRange (ultrasonicDistance e))
    (hgone : ultrasonicDistance e' < 0) (t now : ℤ) : ∃ c tr tr', GateReachable c ∧ AtLoopTop c
      ∧ c.state.switchPressed = false ∧ c.state.switchReopen = false
      ∧ c.state.currentState = .entryWaiting ∧ c.state.var .lastVehicleDetect = now
      ∧ c.trace = entryTurn e t ++ tr ++ (goneTurn e' now ++ tr')
      ∧ (∀ l ∈ tr, IsSignal l) ∧ ∀ l ∈ tr', IsSignal l := by
  obtain ⟨c₁, h₁, htop₁, hp₁, hs₁, tr₁, htr₁, hsig₁⟩ :=
    turn_entry (c := .init .init) t rfl rfl rfl hin
  obtain ⟨c₂, h₂, htop₂, hp₂, hs₂, ht₂, tr₂, htr₂, hsig₂⟩ :=
    turn_entry_gone now htop₁ hp₁ hs₁ hgone
  have htrace : c₂.trace = entryTurn e t ++ tr₁ ++ (goneTurn e' now ++ tr₂) := by
    rw [htr₂, htr₁, show (Config.init GateState.init : GateConfig).trace = [] from rfl,
      List.nil_append, List.append_assoc]
  have hreopen : c₂.state.switchReopen = false := by
    refine switchReopen_of_reachable (h₁.trans h₂) fun hset ↦ ?_
    rw [htrace] at hset
    simp only [List.mem_append] at hset
    rcases hset with (h | h) | h | h
    · simp [entryTurn, turnHead, measured, opening] at h
    · obtain ⟨o, r, ho, h⟩ := hsig₁ _ h
      cases h
      exact ho
    · simp [goneTurn, turnHead, measured] at h
    · obtain ⟨o, r, ho, h⟩ := hsig₂ _ h
      cases h
      exact ho
  exact ⟨c₂, tr₁, tr₂, h₁.trans h₂, htop₂, hp₂, hreopen, hs₂, ht₂, htrace, hsig₁, hsig₂⟩

theorem entryWaiting_reachable {e e' : Echo} (hin : VehicleInRange (ultrasonicDistance e))
    (hgone : ultrasonicDistance e' < 0) (t now : ℤ) : ∃ c, GateReachable c ∧ AtLoopTop c
      ∧ c.state.switchPressed = false ∧ c.state.currentState = .entryWaiting
      ∧ c.state.var .lastVehicleDetect = now
      ∧ ∀ l ∈ c.trace, l ∈ entryTurn e t ∨ l ∈ goneTurn e' now ∨ IsSignal l := by
  obtain ⟨c, tr, tr', hc, htop, hp, -, hs, ht, htrace, hsig, hsig'⟩ :=
    entryWaiting_run hin hgone t now
  refine ⟨c, hc, htop, hp, hs, ht, fun l hl ↦ ?_⟩
  rw [htrace] at hl
  simp only [List.mem_append] at hl
  rcases hl with (hl | hl) | hl | hl
  · exact .inl hl
  · exact .inr (.inr (hsig l hl))
  · exact .inr (.inl hl)
  · exact .inr (.inr (hsig' l hl))

/-- A whole entry: a vehicle comes, is gone, and the gate closes behind it. -/
theorem entryClosed_run {e e' e'' : Echo} (hin : VehicleInRange (ultrasonicDistance e))
    (hgone : ultrasonicDistance e' < 0) (hclear : ¬VehicleInRange (ultrasonicDistance e''))
    (t since now : ℤ) (hdue : entryCloseDelaySec ≤ toInt32 (now - since)) :
    ∃ c tr₁ tr₂ tr tr', GateReachable c ∧ AtLoopTop c ∧ c.state.switchPressed = false
      ∧ c.state.currentState = .idle
      ∧ c.trace = entryTurn e t ++ tr₁ ++ (goneTurn e' since ++ tr₂)
        ++ closedTurn since e'' now tr ++ tr'
      ∧ (∀ l ∈ tr, OfClose e'' l) ∧ ∀ l ∈ tr', IsSignal l := by
  obtain ⟨c₁, tr₁, tr₂, hc₁, htop₁, hp₁, hreopen, hs₁, ht₁, htr₁, -⟩ :=
    entryWaiting_run hin hgone t since
  obtain ⟨c, h, htop, hp, hs, tr, tr', htr, hclosing, hsig⟩ :=
    turn_entry_closed now htop₁ hp₁ hreopen hs₁ (by rwa [ht₁]) hclear
  exact ⟨c, tr₁, tr₂, tr, tr', hc₁.trans h, htop, hp, hs, by rw [htr, htr₁, ht₁], hclosing, hsig⟩

/-- A whole exit that nobody comes for: the button is pressed, and the gate closes when the time is
up. -/
theorem exitClosed_run {e e' : Echo} (he : ¬VehicleInRange (ultrasonicDistance e))
    (he' : ¬VehicleInRange (ultrasonicDistance e')) (t now : ℤ)
    (hdue : exitTimeoutSec ≤ toInt32 (now - t)) :
    ∃ c tr₁ tr tr', GateReachable c ∧ AtLoopTop c ∧ c.state.currentState = .idle
      ∧ c.trace = .ext .press :: exitCalled t e t ++ tr₁ ++ timeoutTurn t e' now tr ++ tr'
      ∧ (∀ l ∈ tr₁, IsSignal l) ∧ (∀ l ∈ tr, OfClose e' l) ∧ ∀ l ∈ tr', IsSignal l := by
  let c₀ : GateConfig := ⟨(Config.init GateState.init : GateConfig).toSnap.log
    { GateState.init with switchPressed := true } (.ext .press), fun _ ↦ none⟩
  have hpress : gateMachine.Step (.init .init) c₀ := .ext (e := GateEvent.press) rfl
  obtain ⟨c₁, h₁, htop₁, hp₁, hs₁, ht₁, tr₁, htr₁, hsig₁⟩ :=
    turn_exit_called (c := c₀) t t rfl rfl rfl he (by simp [exitTimeoutSec, toInt32])
  have hc₁ : GateReachable c₁ := .head hpress h₁
  have hreopen : c₁.state.switchReopen = false := by
    refine switchReopen_of_reachable hc₁ fun hset ↦ ?_
    rw [htr₁] at hset
    rcases List.mem_append.mp hset with h | h
    · simp [c₀, exitCalled, exitOpening, opening, measured, Config.init] at h
    · obtain ⟨o, r, ho, h⟩ := hsig₁ _ h
      cases h
      exact ho
  obtain ⟨c, h, htop, hs, tr, tr', htr, hclosing, hsig⟩ :=
    turn_exit_closed now htop₁ hp₁ hreopen hs₁ (by rwa [ht₁]) he'
  refine ⟨c, tr₁, tr, tr', hc₁.trans h, htop, hs, ?_, hsig₁, hclosing, hsig⟩
  rw [htr, htr₁, ht₁]
  rfl

end ParkingService
