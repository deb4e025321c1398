import ParkingService.Gate.Turns

/-!
# Current in the motor

Both ways out of `gate_close_interruptible` switch all coils off. `gate_open` does not: it leaves
the coils at the last pattern of its movement, whatever the phase was, and they stay so until the
next close. The view is whether there is current in the coils and whether the gate has been opened
since it was last moved towards closing; at the top of the loop the two are the same.
-/

namespace ParkingService

open Concurrency

/-! ## Openings and closes in a trace -/

/-- `gate_open` is about to be called. -/
def StartsOpening : GateLabel → Prop
  | .op _ (.prInfo .exitOpen) _ => True
  | .op _ (.prInfo (.entryOpen _)) _ => True
  | _ => False

/-- A step of a close is made. -/
def StepsClosing : GateLabel → Prop
  | .op _ .closingStep _ => True
  | _ => False

instance : DecidablePred StartsOpening := fun l ↦ by
  rcases l with _ | ⟨_, o, _⟩ | _
  · exact isFalse id
  · cases o with
    | prInfo line => cases line <;> first | exact isTrue trivial | exact isFalse id
    | _ => exact isFalse id
  · exact isFalse id

instance : DecidablePred StepsClosing := fun l ↦ by
  unfold StepsClosing
  split <;> infer_instance

/-- The last movement, if there was any, was `gate_open`. -/
def lastOpened (tr : List GateLabel) : Bool := outstanding StartsOpening StepsClosing tr

/-- The pattern of a step is never the one without current. -/
theorem stepperSetPins_ne_off (step : ℤ) : stepperSetPins step ≠ .off := by
  have hrange : ∀ n < 8, stepperSequence.getD n .off ≠ .off := by decide
  refine hrange _ ?_
  have hlt := Int.tmod_lt_of_pos step (b := 8) (by decide)
  split
  · rw [Int.tmod_tmod]
    omega
  · omega

/-! ## The view -/

/-- What the argument follows. -/
structure Power where
  /-- no coil has current -/
  off : Bool
  opened : Bool

namespace Power

def ofSnap (s : GateSnap) : Power := ⟨decide (s.state.coils = .off), lastOpened s.trace⟩

def step (o : GateOp) (r : o.Resp) (p : Power) : Power where
  off := match o with
    | .openingStep | .closingStep => false
    | .deenergize => true
    | _ => p.off
  opened :=
    if StepsClosing (.op () o r) then false else p.opened || decide (StartsOpening (.op () o r))

def view : View gateMachine Power where
  assume _ _ := True
  proj := ofSnap
  guard _ _ _ := True
  step := step
  proj_ext {s e x} _ h := by
    obtain ⟨rfl, rfl⟩ | ⟨rfl, rfl⟩ := GateEvent.exec_cases h <;>
      exact congrArg (Power.mk _) (outstanding_append_of_not id id)
  proj_start {s j p x} h := by
    obtain ⟨-, rfl⟩ : _ ∧ s.state = x := by simpa [gateMachine] using h
    exact congrArg (Power.mk _) (outstanding_append_of_not id id)
  proj_op {s o r x} _ h := by
    obtain ⟨-, rfl⟩ := GateOp.exec_eq_some.mp h
    refine ⟨trivial, ?_⟩
    rw [ofSnap, lastOpened, Snap.log_trace, outstanding_append_singleton]
    refine congrArg (Power.mk · _) ?_
    cases o <;> first | rfl | exact decide_eq_false (stepperSetPins_ne_off _)

/-- At the top of the loop. -/
def AtRest (p : Power) : Prop := p.off = !p.opened

/-- The gate has been opened, and the coils are as the last step left them. -/
def Opened (p : Power) : Prop := p.off = false ∧ p.opened = true

/-- Steps towards closing have been made. -/
def Closing (p : Power) : Prop := p.opened = false

/-- After `i` steps of an opening. -/
def Opening (i : ℕ) (p : Power) : Prop := (0 < i → p.off = false) ∧ p.opened = true

/-- The coils have been switched off at the end of a close. -/
def Closed (p : Power) : Prop := p.off = true ∧ p.opened = false

theorem Opened.atRest {p : Power} (h : Opened p) : AtRest p := by rw [AtRest, h.1, h.2]; rfl

theorem Closed.atRest {p : Power} (h : Closed p) : AtRest p := by rw [AtRest, h.1, h.2]; rfl

/-! ## Movements -/

/-- Operations that neither move the motor nor announce an opening. -/
def Quiet : GateOp → Prop
  | .openingStep | .closingStep | .deenergize => False
  | .prInfo line => ∀ r, ¬StartsOpening (.op () (.prInfo line) r)
  | _ => True

theorem step_opened {o : GateOp} {r : o.Resp} (hstart : ¬StartsOpening (.op () o r))
    (hclosing : ¬StepsClosing (.op () o r)) (p : Power) : (step o r p).opened = p.opened := by
  simp [step, hstart, hclosing]

theorem step_of_quiet {o : GateOp} (ho : Quiet o) (r : o.Resp) (p : Power) : step o r p = p := by
  have hopened : (step o r p).opened = p.opened := by
    refine step_opened ?_ ?_ p
    · cases o <;> first | exact ho r | exact id
    · cases o <;> first | exact ho.elim | exact id
  have hoff : (step o r p).off = p.off := by
    cases o <;> first | exact ho.elim | rfl
  exact congrArg₂ Power.mk hoff hopened

variable {A : Power → Prop}

theorem quiet_program {α : Type} {p : GateProg α} (hp : p.Uses Quiet) :
    view.Triple (fun _ ↦ True) A p fun _ ↦ A :=
  .still (fun _ ↦ step_of_quiet) hp

theorem quiet {o : GateOp} (ho : Quiet o) :
    view.Triple (fun _ ↦ True) A (perform o) fun _ ↦ A :=
  quiet_program ⟨ho, fun _ ↦ trivial⟩

/-- An opening, from the line that announces it. -/
theorem opens (line : LogLine) (hline : StartsOpening (.op () (.prInfo line) ())) :
    view.Triple (fun _ ↦ True) A (prInfo line) fun _ ↦ Opening 0 :=
  perform_rule fun p r _ _ _ ↦ ⟨trivial, fun h ↦ absurd h (Nat.lt_irrefl 0), by
    change (step (.prInfo line) () p).opened = true
    simp [step, StepsClosing, hline]⟩

theorem gateOpen_opening : view.Triple (fun _ ↦ True) (Opening 0) gateOpen fun _ ↦ Opened :=
  (View.Triple.times (A := Opening) stepperGateSteps fun i _ ↦
    perform_rule fun p r _ hp _ ↦
      ⟨trivial, fun _ ↦ rfl, (step_opened (o := .openingStep) id id p).trans hp.2⟩).post
    fun _ p _ h ↦ ⟨h.1 (by decide), h.2⟩

/-- A close ends without current, whether it gets through or is undone. -/
theorem gateCloseInterruptible_closed :
    view.Triple (fun _ ↦ True) A gateCloseInterruptible fun _ ↦ Closed := by
  have hflags (d : ℤ) : (closeInterrupted d).Uses Quiet :=
    (closeInterrupted_uses d).mono fun o ho ↦ by cases o <;> trivial
  have hoff {B : Power → Prop} (hB : ∀ p, B p → Closing p) :
      view.Triple (fun _ ↦ True) B stepperDeenergize fun _ ↦ Closed :=
    perform_rule fun p r _ hp _ ↦
      ⟨trivial, rfl, (step_opened (o := .deenergize) id id p).trans (hB p hp)⟩
  -- the first step is one towards closing, and nothing announces an opening from then on
  have houtline : CloseOutline view (fun _ ↦ True) (fun k p ↦ 0 < k → Closing p)
      (fun _ ↦ Closing) (fun _ _ ↦ Closing) (fun _ _ ↦ Closing) (fun _ _ ↦ Closing)
      (fun _ ↦ Closed) :=
    { step := fun k _ ↦ perform_rule fun p r _ _ _ ↦ ⟨trivial, rfl⟩
      skip := fun _ _ _ _ _ h _ ↦ h
      buzzer := fun k x ↦ quiet (o := .gpioSet .buzzer x) trivial
      measure := fun k ↦ quiet_program ⟨trivial, fun _ ↦ trivial⟩
      interrupted := fun k d ↦ (quiet_program (hflags d)).post fun b p _ h ↦ by
        cases b with
        | true => exact h
        | false => exact fun _ ↦ h
      report := fun k d ↦ quiet (o := .prInfo (.closeAborted d k)) fun _ ↦ id
      silence := fun k ↦ quiet (o := .gpioSet .buzzer 1) trivial
      undo := fun k _ j _ ↦ perform_rule fun p r _ hp _ ↦
        ⟨trivial, (step_opened (o := .openingStep) id id p).trans hp⟩
      reopened := fun k _ ↦ hoff fun _ h ↦ h
      closed := hoff fun _ h ↦ h (by decide) }
  exact houtline.close.pre fun _ _ _ h ↦ absurd h (Nat.lt_irrefl 0)

/-! ## The branches -/

theorem onSwitchPress_atRest :
    view.Triple (fun _ ↦ True) AtRest onSwitchPress fun _ ↦ AtRest := by
  refine .bind (quiet (o := .readState) trivial) fun s ↦ .ite (fun _ ↦ ?_) fun _ ↦ ?_
  · refine .bind (opens .exitOpen trivial) fun _ ↦ ?_
    refine .bind gateOpen_opening fun _ ↦ ?_
    refine .bind (quiet (o := .ktime) trivial) fun now ↦ ?_
    refine .bind (quiet (o := .store .exitRequestTime now) trivial) fun _ ↦ ?_
    exact (quiet (o := .writeState .exitRequested) trivial).post fun _ _ _ h ↦ h.atRest
  · exact quiet (o := .setSwitchReopen) trivial

theorem quiet_of_minor {o : GateOp} (ho : o.Minor) : Quiet o := by
  cases o with
  | prInfo line => cases line <;> first | exact fun _ ↦ id | exact ho.elim
  | _ => trivial

theorem branchOutline : BranchOutline view (fun _ ↦ True) (fun _ ↦ AtRest) (fun _ ↦ Closed)
    AtRest where
  minor _ _ ho := quiet (quiet_of_minor ho)
  enter d now := by
    refine .bind (opens (.entryOpen d) trivial) fun _ ↦ ?_
    refine .bind (quiet (o := .writeState .entryDetected) trivial) fun _ ↦ ?_
    refine .bind gateOpen_opening fun _ ↦ ?_
    exact (quiet (o := .store .lastVehicleDetect now) trivial).post fun _ _ _ h ↦ h.atRest
  onward _ s' _ := quiet (o := .writeState s') trivial
  close s _ := gateCloseInterruptible_closed.post fun r _ _ h ↦ by
    split
    · exact h.atRest
    · exact h
  closed s _ := (quiet (o := .writeState .idle) trivial).post fun _ _ _ h ↦ h.atRest
  top _ _ _ h := h

theorem turnOutline : TurnOutline view (fun _ ↦ True) AtRest AtRest AtRest (fun _ ↦ AtRest)
    (fun _ _ ↦ AtRest) (fun _ _ _ ↦ AtRest) where
  take := (quiet (o := .xchgSwitchPressed) trivial).post fun b _ _ h ↦ by cases b <;> exact h
  press := onSwitchPress_atRest
  read := quiet (o := .readState) trivial
  measure _ := quiet_program ⟨trivial, fun _ ↦ trivial⟩
  clock _ _ := quiet (o := .ktime) trivial
  act := branchOutline.dispatch
  signal o ho p r _ hp _ := by
    have hquiet : Quiet o := by cases o <;> trivial
    rw [show view.step o r p = p from step_of_quiet hquiet r p]
    exact ⟨trivial, hp⟩

/-- At the top of the loop. -/
theorem atRest_of_reachable {c : GateConfig} (hc : GateReachable c) (htop : AtLoopTop c) :
    AtRest (ofSnap c.toSnap) :=
  (turnOutline.reachable (W := view) trivial rfl hc (always_of_forall fun _ _ ↦ trivial)).2 htop

end Power

/-! ## Results -/

/-- **When the motor has no current.** At the top of the loop all coils are off if and only if the
last movement was not `gate_open`, by the button or by the sensor. -/
theorem coils_off_iff {c : GateConfig} (hc : GateReachable c) (htop : AtLoopTop c) :
    c.state.coils = .off ↔ lastOpened c.trace = false := by
  have hrest : decide (c.state.coils = .off) = !lastOpened c.trace :=
    Power.atRest_of_reachable hc htop
  rw [← decide_eq_true_iff (p := c.state.coils = .off), hrest, Bool.not_eq_true']

/-- Nothing that comes after the first step of a close announces an opening. -/
theorem lastOpened_closedTurn {pre tr tr' : List GateLabel} {e : Echo} {since now : ℤ}
    (htr : ∀ l ∈ tr, OfClose e l) (htr' : ∀ l ∈ tr', IsSignal l) :
    lastOpened (pre ++ closedTurn since e now tr ++ tr') = false := by
  have hsplit : pre ++ closedTurn since e now tr ++ tr'
      = (pre ++ turnHead .entryWaiting e now ++ [.op () (.load .lastVehicleDetect) since,
          .op () (.prInfo .entryClose) ()])
        ++ .op () .closingStep () :: (tr ++ .op () (.writeState .idle) () :: tr') := by
    simp [closedTurn, wholeClose]
  rw [hsplit]
  refine outstanding_eq_false_of_append trivial fun l hl ↦ ?_
  rcases List.mem_append.mp hl with hl | hl
  · have hclosing := htr l hl
    rcases l with _ | ⟨_, o, _⟩ | _
    · exact id
    · cases o <;> first | exact id | exact hclosing.elim
    · exact id
  · rcases List.mem_cons.mp hl with rfl | hl
    · exact id
    · obtain ⟨o, r, ho, rfl⟩ := htr' l hl
      cases o <;> first | exact ho.elim | exact id

/-- A vehicle has come in, and the gate has closed behind it: the motor has no current. -/
theorem coils_off_after_close : ∃ c : GateConfig, GateReachable c ∧ AtLoopTop c
    ∧ .op () .openingStep () ∈ c.trace ∧ .op () .closingStep () ∈ c.trace
    ∧ c.state.coils = .off := by
  have hclear : ¬VehicleInRange (ultrasonicDistance (.ofCm 20)) := by
    rw [ultrasonicDistance_ofCm (by decide) (by decide)]
    decide
  obtain ⟨c, tr₁, tr₂, tr, tr', hc, htop, -, -, htr, hclosing, hsignals⟩ :=
    entryClosed_run (vehicleInRange_ofCm (d := 5) (by decide)) ultrasonicDistance_silent_neg
      hclear 0 0 10 (by decide)
  have hopened : lastOpened c.trace = false := by
    rw [htr]
    exact lastOpened_closedTurn hclosing hsignals
  refine ⟨c, hc, htop, ?_, ?_, (coils_off_iff hc htop).mpr hopened⟩
  · simp [htr, openingStep_mem_entryTurn]
  · simp [htr, closingStep_mem_closedTurn]

/-- After a vehicle has come, the gate stands open and the motor has current. -/
theorem coils_on_after_opening : ∃ c : GateConfig, GateReachable c ∧ AtLoopTop c
    ∧ c.state.coils ≠ .off := by
  obtain ⟨c, hc, htop, -, -, tr, htr, hsignals⟩ := turn_entry (c := .init .init) (e := .ofCm 5) 0
    rfl rfl rfl (vehicleInRange_ofCm (by decide))
  refine ⟨c, hc, htop, fun hoff ↦ ?_⟩
  have hrest : decide (c.state.coils = .off) = !lastOpened c.trace :=
    Power.atRest_of_reachable hc htop
  have hopened : lastOpened c.trace = false := by simpa [hoff] using hrest
  have hsplit : c.trace = (turnHead .idle (.ofCm 5) 0)
      ++ .op () (.prInfo (.entryOpen (ultrasonicDistance (.ofCm 5)))) ()
        :: (.op () (.writeState .entryDetected) () :: opening
          ++ [.op () (.store .lastVehicleDetect 0) ()] ++ tr) := by
    rw [htr]
    simp [entryTurn, Config.init]
  rw [lastOpened, hsplit] at hopened
  -- no step towards closing comes after the opening
  obtain ⟨l, hl, hclosing⟩ := exists_discharge hopened trivial id
  simp only [List.mem_append, List.mem_cons, List.not_mem_nil, or_false] at hl
  rcases hl with ((rfl | hl) | rfl) | hl
  · exact hclosing
  · rw [List.eq_of_mem_replicate hl] at hclosing
    exact hclosing
  · exact hclosing
  · obtain ⟨o, r, ho, rfl⟩ := hsignals l hl
    cases o <;> first | exact ho | exact hclosing

end ParkingService
