import ParkingService.Gate.Turns

/-!
# How long the gate stays open

When the arm comes down, ten seconds have passed since it came to stand open and since a vehicle was
last seen in an earlier turn. The two timers are not set alike: `STATE_IDLE` reads the clock before
it opens the gate, `on_switch_press` after it, and an aborted close restarts the timer of its state
once the arm is back. What makes them agree is that a waiting state is entered with the clock
reading of a turn that found the gate open already.

The argument needs no arithmetic of time until its end. `Quiet since` says of the labels of a run
that the clock has once been read as `since` and that from then on the arm has not been opened and
no vehicle been seen; the state that waits for a timer keeps this for the value of its timer. The
reading of the turn that decides to close is left out: a waiting state whose time is up does not
look at it.
-/

namespace ParkingService

open Concurrency

/-! ## What a run shows -/

/-- The arm makes an opening step. -/
def IsOpening : GateLabel → Prop
  | .op _ .openingStep _ => True
  | _ => False

/-- A measurement shows a vehicle in range. -/
def IsSighting : GateLabel → Prop
  | .op _ .ping e => VehicleInRange (ultrasonicDistance e)
  | _ => False

/-- A turn begins. -/
def IsTurnStart : GateLabel → Prop
  | .start _ _ => True
  | _ => False

/-- The line that is printed right before `gate_close_interruptible` is called. -/
def EntersClose : GateLabel → Prop
  | .op _ (.prInfo .entryClose) _ => True
  | .op _ (.prInfo .exitTimeoutClose) _ => True
  | .op _ (.prInfo .exitClose) _ => True
  | _ => False

/-- The clock has been read as `now` in the present turn, and not again. -/
def Decided (now : ℤ) : List GateLabel → Prop :=
  Since (fun _ l ↦ clockOf l = some now) fun l ↦ clockOf l = none ∧ ¬IsTurnStart l

/-- The clock has once been read as `since`, and from then on the arm has not been opened and no
vehicle been seen. -/
def Quiet (since : ℤ) : List GateLabel → Prop :=
  Since (fun _ l ↦ clockOf l = some since) fun l ↦ ¬IsOpening l ∧ ¬IsSighting l

/-- It was so when the present turn began, and the arm has not been opened in it. -/
def QuietBefore (since : ℤ) : List GateLabel → Prop :=
  Since (fun pre l ↦ IsTurnStart l ∧ Quiet since pre) fun l ↦ ¬IsOpening l ∧ ¬IsTurnStart l

/-- A timer is found expired in the present turn. -/
def Overdue (tr : List GateLabel) : Prop :=
  ∃ since now, Decided now tr ∧ entryCloseDelaySec ≤ toInt32 (now - since)
    ∧ (Quiet since tr ∨ QuietBefore since tr)

namespace HoldOpen

/-! ## The outline -/

/-- What the argument follows. -/
structure Book where
  state : SystemState
  lastVehicleDetect : ℤ
  exitRequestTime : ℤ
  trace : List GateLabel

def ofSnap (s : GateSnap) : Book :=
  ⟨s.state.currentState, s.state.var .lastVehicleDetect, s.state.var .exitRequestTime, s.trace⟩

/-- When the timer was started that the state waits for. -/
def Book.timer (b : Book) : Option ℤ :=
  match b.state with
  | .entryWaiting | .exitVehicleWaiting => some b.lastVehicleDetect
  | .exitRequested => some b.exitRequestTime
  | .idle | .entryDetected | .exitVehicleDetected => none

/-- The book after an operation. -/
def Book.log (b : Book) (o : GateOp) (r : o.Resp) : Book where
  state := match o with
    | .writeState s => s
    | _ => b.state
  lastVehicleDetect := match o with
    | .store .lastVehicleDetect x => x
    | _ => b.lastVehicleDetect
  exitRequestTime := match o with
    | .store .exitRequestTime x => x
    | _ => b.exitRequestTime
  trace := b.trace ++ [.op () o r]

theorem ofSnap_log (s : GateSnap) (o : GateOp) (r : o.Resp) :
    ofSnap (s.log (o.effect s.state) (.op () o r)) = (ofSnap s).log o r := by
  cases o with
  | store v x => cases v <;> rfl
  | _ => rfl

/-- What an answer says about the book. -/
def Told (o : GateOp) (r : o.Resp) (b : Book) : Prop :=
  match o, r with
  | .readState, r => r = b.state
  | .load .lastVehicleDetect, r => r = b.lastVehicleDetect
  | .load .exitRequestTime, r => r = b.exitRequestTime
  | _, _ => True

theorem told_of_answers {o : GateOp} {r : o.Resp} {s : GateSnap} (h : o.Answers r s.state) :
    Told o r (ofSnap s) := by
  cases o with
  | load v => cases v <;> first | exact h | exact trivial
  | readState => exact h
  | _ => exact trivial

/-- Labels that no assertion minds. -/
structure Idle (l : GateLabel) : Prop where
  opening : ¬IsOpening l
  sighting : ¬IsSighting l
  start : ¬IsTurnStart l
  clock : clockOf l = none

/-- An assertion on the book that such labels keep. -/
structure Fact where
  holds : Book → Prop
  steady : ∀ {b l}, Idle l → holds b → holds { b with trace := b.trace ++ [l] }

/-- Every close that is entered is overdue. -/
def outline : Outline gateMachine where
  known _ := True
  inv s := Always (fun pre l ↦ EntersClose l → Overdue pre) s.trace

def note (F : Fact) : outline.Assertion () where
  holds s := F.holds (ofSnap s)
  stable {s l x} _ hby hx _ h := by
    cases l with
    | start t j => exact absurd rfl hby
    | op t o r => exact absurd rfl hby
    | ext e =>
      have hidle : Idle (.ext e) := ⟨id, id, id, rfl⟩
      obtain ⟨-, rfl⟩ | ⟨-, rfl⟩ := GateEvent.exec_cases hx
      · exact F.steady hidle h
      · exact F.steady hidle h

abbrev Triple {α : Type} (F : Fact) (p : GateProg α) (G : α → Fact) : Prop :=
  outline.Triple () (note F) p fun a ↦ note (G a)

variable {F G : Fact} {α : Type} {since now : ℤ} {st st' : SystemState} {d : ℤ}

theorem call_rule {o : GateOp} {G : o.Resp → Fact}
    (h : ∀ b r, F.holds b → Told o r b →
      (EntersClose (.op () o r) → Overdue b.trace) ∧ (G r).holds (b.log o r)) :
    Triple F (perform o) G := by
  refine .call fun s r x hs hF hexec _ ↦ ?_
  obtain ⟨hans, rfl⟩ := GateOp.exec_eq_some.mp hexec
  obtain ⟨hclose, hG⟩ := h (ofSnap s) r hF (told_of_answers hans)
  refine ⟨always_append_singleton.mpr ⟨hs.2, hclose⟩, ?_⟩
  change (G r).holds (ofSnap _)
  rwa [ofSnap_log]

/-- Operations that only leave an idle label. -/
def Mild : GateOp → Prop
  | .openingStep | .ping | .ktime | .writeState _ => False
  | .store v _ => v = .buzzerPhase
  | .prInfo line => line ≠ .entryClose ∧ line ≠ .exitTimeoutClose ∧ line ≠ .exitClose
  | _ => True

theorem idle_of_mild {o : GateOp} (ho : Mild o) (r : o.Resp) : Idle (.op () o r) := by
  cases o <;> first | exact ⟨id, id, id, rfl⟩ | exact ho.elim

theorem log_of_mild {o : GateOp} (ho : Mild o) (r : o.Resp) (b : Book) :
    b.log o r = { b with trace := b.trace ++ [.op () o r] } := by
  cases o with
  | store v x =>
    obtain rfl : v = .buzzerPhase := ho
    rfl
  | _ => first | rfl | exact ho.elim

theorem not_entersClose {o : GateOp} (ho : Mild o) (r : o.Resp) : ¬EntersClose (.op () o r) := by
  cases o with
  | prInfo line =>
    obtain ⟨h₁, h₂, h₃⟩ := ho
    cases line <;> first | exact id | contradiction
  | _ => exact id

theorem mild {o : GateOp} (ho : Mild o) : Triple F (perform o) fun _ ↦ F :=
  call_rule fun b r hF _ ↦ by
    refine ⟨fun hc ↦ absurd hc (not_entersClose ho r), ?_⟩
    rw [log_of_mild ho]
    exact F.steady (idle_of_mild ho r) hF

theorem mild_program {p : GateProg α} (hp : p.Uses Mild) : Triple F p fun _ ↦ F := by
  refine .frame hp fun o ho s r x hs hF hexec _ ↦ ?_
  obtain ⟨hans, rfl⟩ := GateOp.exec_eq_some.mp hexec
  refine ⟨always_append_singleton.mpr ⟨hs.2, fun hc ↦ absurd hc (not_entersClose ho r)⟩, ?_⟩
  change F.holds (ofSnap _)
  rw [ofSnap_log, log_of_mild ho]
  exact F.steady (idle_of_mild ho r) hF

/-! ## Facts -/

variable {tr : List GateLabel} {l : GateLabel}

theorem Idle.quiet (hl : Idle l) (h : Quiet since tr) : Quiet since (tr ++ [l]) :=
  Since.append h ⟨hl.opening, hl.sighting⟩

theorem Idle.quietBefore (hl : Idle l) (h : QuietBefore since tr) : QuietBefore since (tr ++ [l]) :=
  Since.append h ⟨hl.opening, hl.start⟩

theorem Idle.decided (hl : Idle l) (h : Decided now tr) : Decided now (tr ++ [l]) :=
  Since.append h ⟨hl.clock, hl.start⟩

def top : Fact := ⟨fun _ ↦ True, fun _ _ ↦ trivial⟩

/-- The state is `st`. -/
def inState (st : SystemState) : Fact := ⟨fun b ↦ b.state = st, fun _ h ↦ h⟩

/-- The clock has been read as `now`, and since then nothing has happened that would count. -/
def read (now : ℤ) : Fact := ⟨fun b ↦ Quiet now b.trace, fun hl h ↦ hl.quiet h⟩

/-- What holds at the top of the loop. -/
def atTop : Fact where
  holds b := ∀ since ∈ b.timer, Quiet since b.trace
  steady hl h since hs := hl.quiet (h since hs)

/-- What holds when the button has been dealt with. -/
def polled : Fact where
  holds b := ∀ since ∈ b.timer, Quiet since b.trace
    ∧ (b.state ≠ .exitRequested → QuietBefore since b.trace)
  steady hl h since hs := ⟨hl.quiet (h since hs).1, fun hst ↦ hl.quietBefore ((h since hs).2 hst)⟩

/-- What holds when the state has been read. -/
def known (st : SystemState) : Fact where
  holds b := b.state = st ∧ polled.holds b
  steady hl h := ⟨h.1, polled.steady hl h.2⟩

/-- What is left of it when the turn has measured `d`. -/
def measured (st : SystemState) (d : ℤ) : Fact where
  holds b := b.state = st ∧ ∀ since ∈ b.timer, (¬VehicleInRange d → Quiet since b.trace)
    ∧ (st ≠ .exitRequested → QuietBefore since b.trace)
  steady hl h := by
    refine ⟨h.1, fun since hs ↦ ⟨fun hd ↦ hl.quiet ((h.2 since hs).1 hd), fun hst ↦ ?_⟩⟩
    exact hl.quietBefore ((h.2 since hs).2 hst)

/-- And when it has read the clock. -/
def timed (st : SystemState) (d now : ℤ) : Fact where
  holds b := (measured st d).holds b ∧ Decided now b.trace ∧ Quiet now b.trace
  steady hl h := ⟨(measured st d).steady hl h.1, hl.decided h.2.1, hl.quiet h.2.2⟩

/-! ## Operations -/

theorem ktime_read : Triple F ktimeGetSeconds read :=
  call_rule fun _ _ _ _ ↦ ⟨fun hc ↦ hc.elim, Since.now rfl⟩

theorem writeState_inState : Triple F (gateSetState st) fun _ ↦ inState st :=
  call_rule fun _ _ _ _ ↦ ⟨fun hc ↦ hc.elim, rfl⟩

/-- A state without a timer may be written at any time. -/
theorem writeState_atTop (hst : st ∈ [.idle, .entryDetected, .exitVehicleDetected]) :
    Triple F (gateSetState st) fun _ ↦ atTop := by
  refine call_rule fun b _ _ _ ↦ ⟨fun hc ↦ hc.elim, fun since hs ↦ ?_⟩
  have hnone : (b.log (.writeState st) ()).timer = none := by
    simp only [List.mem_cons, List.not_mem_nil, or_false] at hst
    rcases hst with rfl | rfl | rfl <;> rfl
  rw [hnone] at hs
  cases hs

/-- Setting a timer changes neither the state nor what the labels say. -/
theorem store_rule {v : GateVar} {x : ℤ} (h : ∀ b b' : Book, b'.state = b.state →
      b'.trace = b.trace ++ [.op () (.store v x) ()] → F.holds b → G.holds b') :
    Triple F (perform (.store v x)) fun _ ↦ G :=
  call_rule fun b _ hF _ ↦ ⟨fun hc ↦ hc.elim, h b _ rfl rfl hF⟩

theorem idle_store (v : GateVar) (x : ℤ) : Idle (.op () (.store v x) ()) := ⟨id, id, id, rfl⟩

theorem store_inState (v : GateVar) (x : ℤ) :
    Triple (inState st) (perform (.store v x)) fun _ ↦ inState st :=
  store_rule fun _ _ hst _ h ↦ hst.trans h

theorem store_read (v : GateVar) (x : ℤ) :
    Triple (read now) (perform (.store v x)) fun _ ↦ read now :=
  store_rule fun b b' _ htr h ↦ by
    change Quiet now b'.trace
    rw [htr]
    exact (idle_store v x).quiet h

/-- The timer of the waiting states is started. -/
def vehicleTimer (now : ℤ) : Fact where
  holds b := b.lastVehicleDetect = now ∧ Quiet now b.trace
  steady hl h := ⟨h.1, hl.quiet h.2⟩

/-- The timer of an exit request is started. -/
def exitTimer (now : ℤ) : Fact where
  holds b := b.exitRequestTime = now ∧ Quiet now b.trace
  steady hl h := ⟨h.1, hl.quiet h.2⟩

theorem store_vehicleTimer :
    Triple (read now) (perform (.store .lastVehicleDetect now)) fun _ ↦ vehicleTimer now :=
  call_rule fun _ _ h _ ↦ ⟨fun hc ↦ hc.elim, rfl, (idle_store _ _).quiet h⟩

theorem store_exitTimer :
    Triple (read now) (perform (.store .exitRequestTime now)) fun _ ↦ exitTimer now :=
  call_rule fun _ _ h _ ↦ ⟨fun hc ↦ hc.elim, rfl, (idle_store _ _).quiet h⟩

theorem idle_writeState (st : SystemState) : Idle (.op () (.writeState st) ()) :=
  ⟨id, id, id, rfl⟩

/-- A state that waits for the first timer may be written once that has been started. -/
theorem writeState_vehicleTimer (hst : st ≠ .exitRequested) :
    Triple (vehicleTimer now) (gateSetState st) fun _ ↦ atTop := by
  refine call_rule fun b _ h _ ↦ ⟨fun hc ↦ hc.elim, fun since hs ↦ ?_⟩
  have hquiet := (idle_writeState st).quiet h.2
  have hsince : now = since := by
    rw [← h.1]
    cases st <;> first | exact absurd rfl hst | cases hs
    · rfl
    · rfl
  rwa [← hsince]

theorem writeState_exitTimer :
    Triple (exitTimer now) (gateSetState .exitRequested) fun _ ↦ polled := by
  refine call_rule fun b _ h _ ↦ ⟨fun hc ↦ hc.elim, fun since hs ↦ ?_⟩
  have hquiet := (idle_writeState .exitRequested).quiet h.2
  obtain rfl : b.exitRequestTime = since := Option.some.inj hs
  rw [h.1]
  exact ⟨hquiet, fun hst ↦ absurd rfl hst⟩

theorem polled_atTop {b : Book} (h : polled.holds b) : atTop.holds b :=
  fun since hs ↦ (h since hs).1

theorem gateOpen_top : Triple top gateOpen fun _ ↦ top :=
  .times (A := fun _ ↦ note top) stepperGateSteps fun _ _ ↦
    call_rule (o := .openingStep) fun _ _ _ _ ↦ ⟨fun hc ↦ hc.elim, trivial⟩

theorem gateOpen_inState : Triple (inState st) gateOpen fun _ ↦ inState st :=
  .times (A := fun _ ↦ note (inState st)) stepperGateSteps fun _ _ ↦
    call_rule fun _ _ h _ ↦ ⟨fun hc ↦ hc.elim, h⟩

/-- A state without a timer asks for nothing. -/
theorem inState_atTop (hst : st ∈ [.idle, .entryDetected, .exitVehicleDetected]) {b : Book}
    (h : b.state = st) : atTop.holds b := by
  intro since hs
  subst h
  simp only [List.mem_cons, List.not_mem_nil, or_false] at hst
  rw [Book.timer] at hs
  rcases hst with hst | hst | hst <;> rw [hst] at hs <;> cases hs

/-- Out of range, the turn's own measurement does no harm. -/
theorem timed_atTop (hd : ¬VehicleInRange d) {b : Book} (h : (timed st d now).holds b) :
    atTop.holds b :=
  fun since hs ↦ (h.1.2 since hs).1 hd

/-! ## Closing -/

/-- Operations that do not announce a close. -/
def Silent (o : GateOp) : Prop := ∀ r, ¬EntersClose (.op () o r)

theorem closeLoop_silent (left stepsDone phase : ℕ) :
    (closeLoop left stepsDone phase).Uses Silent := by
  have hcall {o : GateOp} (ho : Silent o) : (perform o).Uses Silent := ⟨ho, fun _ ↦ trivial⟩
  induction left generalizing stepsDone phase with
  | zero => exact Prog.uses_bind (p := stepperDeenergize) (hcall fun _ ↦ id) fun _ ↦ trivial
  | succ left ih =>
    refine Prog.uses_bind (hcall fun _ ↦ id) fun _ ↦ Prog.uses_ite (fun _ ↦ ?_) fun _ ↦ ih _ _
    refine Prog.uses_bind (Prog.uses_ite (fun _ ↦ hcall fun _ ↦ id) fun _ ↦ hcall fun _ ↦ id)
      fun _ ↦ ?_
    refine Prog.uses_bind (p := ultrasonicMeasureCm) ⟨fun _ ↦ id, fun _ ↦ trivial⟩ fun dist ↦ ?_
    refine Prog.uses_bind ((closeInterrupted_uses dist).mono fun o ho ↦ ?_) fun b ↦ ?_
    · cases o <;> first | exact fun _ ↦ id | exact ho.elim
    · refine Prog.uses_ite (fun _ ↦ ?_) fun _ ↦ ih _ _
      refine Prog.uses_bind (p := prInfo _) (hcall fun _ ↦ id) fun _ ↦ ?_
      refine Prog.uses_bind (p := buzzerOff) (hcall fun _ ↦ id) fun _ ↦ ?_
      refine Prog.uses_bind (Prog.uses_times (hcall fun _ ↦ id) _) fun _ ↦ ?_
      exact Prog.uses_bind (p := stepperDeenergize) (hcall fun _ ↦ id) fun _ ↦ trivial

theorem gateCloseInterruptible_rule : Triple top gateCloseInterruptible fun _ ↦ top := by
  refine .frame (closeLoop_silent _ _ _) fun o ho s r x hs _ _ _ ↦ ⟨?_, trivial⟩
  exact always_append_singleton.mpr ⟨hs.2, fun hc ↦ absurd hc (ho r)⟩

theorem closeOr_rule {line : LogLine} {p : GateProg Unit}
    (hdue : ∀ b, F.holds b → Overdue b.trace) (hp : Triple top p fun _ ↦ atTop) :
    Triple F (closeOr line p) fun _ ↦ atTop := by
  refine .bind (R := fun _ ↦ note top) ?_ fun _ ↦ ?_
  · exact call_rule (o := .prInfo line) fun b _ h _ ↦ ⟨fun _ ↦ hdue b h, trivial⟩
  refine .bind gateCloseInterruptible_rule fun r ↦ .ite (fun _ ↦ hp) fun _ ↦ ?_
  exact writeState_atTop (by simp)

/-! ## The branches -/

theorem onSwitchPress_rule : Triple polled onSwitchPress fun _ ↦ polled := by
  refine .bind (mild (o := .readState) trivial) fun state ↦ .ite (fun _ ↦ ?_) fun _ ↦ ?_
  · refine .bind (mild (o := .prInfo .exitOpen) (by simp [Mild])) fun _ ↦ ?_
    refine .bind (.pre (P := note top) (fun _ _ _ ↦ trivial) gateOpen_top) fun _ ↦ ?_
    refine .bind ktime_read fun now ↦ ?_
    exact .bind store_exitTimer fun _ ↦ writeState_exitTimer
  · exact mild (o := .setSwitchReopen) trivial

theorem whenIdle_rule : Triple (timed .idle d now) (whenIdle d now) fun _ ↦ atTop := by
  refine .ite (fun _ ↦ ?_) fun hd ↦ .ret fun _ _ h ↦ timed_atTop hd h
  refine .bind (mild (o := .prInfo (.entryOpen d)) (by simp [Mild])) fun _ ↦ ?_
  refine .bind writeState_inState fun _ ↦ ?_
  refine .bind gateOpen_inState fun _ ↦ ?_
  exact (store_inState _ _).post fun _ _ _ h ↦ inState_atTop (by simp) h

/-- Restart the timer of the waiting states and move on. -/
theorem moveOn_rule {line : LogLine} (hline : Mild (.prInfo line)) (hst : st ≠ .exitRequested) :
    Triple (timed st' d now) (moveOn line st now) fun _ ↦ atTop := by
  refine .pre (P := note (read now)) (fun _ _ h ↦ h.2.2) ?_
  refine .bind (mild (o := .prInfo line) hline) fun _ ↦ ?_
  exact .bind store_vehicleTimer fun _ ↦ writeState_vehicleTimer hst

/-- What the two detecting states do with a vehicle that is still there. -/
theorem still_there (hst : st ∈ [.idle, .entryDetected, .exitVehicleDetected]) :
    Triple (timed st d now) (perform (.store .lastVehicleDetect now)) fun _ ↦ atTop := by
  refine .pre (P := note (inState st)) (fun _ _ h ↦ h.1.1) ?_
  exact (store_inState _ _).post fun _ _ _ h ↦ inState_atTop hst h

theorem whenEntryDetected_rule :
    Triple (timed .entryDetected d now) (whenEntryDetected d now) fun _ ↦ atTop := by
  refine .ite (fun _ ↦ still_there (by simp)) fun hd ↦ .ite (fun _ ↦ ?_) fun _ ↦ ?_
  · exact moveOn_rule (by simp [Mild]) (by decide)
  · exact .ret fun _ _ h ↦ timed_atTop hd h

theorem whenExitVehicleDetected_rule :
    Triple (timed .exitVehicleDetected d now) (whenExitVehicleDetected d now) fun _ ↦ atTop := by
  refine .ite (fun _ ↦ still_there (by simp)) fun hd ↦ .ite (fun _ ↦ ?_) fun _ ↦ ?_
  · exact moveOn_rule (by simp [Mild]) (by decide)
  · exact .ret fun _ _ h ↦ timed_atTop hd h

/-- The timer of the state is read. -/
def timerRead (st : SystemState) (d now since : ℤ) : Fact where
  holds b := (timed st d now).holds b ∧ b.timer = some since
  steady hl h := ⟨(timed st d now).steady hl h.1, h.2⟩

/-- A timer that is found expired has run since the reading it was started with. -/
theorem timerRead_overdue (hd : st = .exitRequested → ¬VehicleInRange d)
    (hdue : entryCloseDelaySec ≤ toInt32 (now - since)) {b : Book}
    (h : (timerRead st d now since).holds b) : Overdue b.trace := by
  obtain ⟨⟨⟨-, hmeasured⟩, hdecided, -⟩, htimer⟩ := h
  obtain ⟨hquiet, hbefore⟩ := hmeasured since htimer
  refine ⟨since, now, hdecided, hdue, ?_⟩
  by_cases hst : st = .exitRequested
  · exact .inl (hquiet (hd hst))
  · exact .inr (hbefore hst)

theorem load_timerRead {v : GateVar} (h : ∀ b since, b.state = st → Told (.load v) since b →
      b.timer = some since) :
    Triple (timed st d now) (perform (.load v)) (timerRead st d now) := by
  refine call_rule fun b since ht htold ↦ ⟨fun hc ↦ hc.elim, ?_, h b since ht.1.1 htold⟩
  exact (timed st d now).steady ⟨id, id, id, rfl⟩ ht

theorem elapsedSince_rule {v : GateVar} (h : ∀ b since, b.state = st → Told (.load v) since b →
      b.timer = some since) :
    Triple (timed st d now) (elapsedSince v now) fun elapsed ↦
      ⟨fun b ↦ ∃ since, elapsed = toInt32 (now - since) ∧ (timerRead st d now since).holds b,
        fun hl ⟨since, he, h⟩ ↦ ⟨since, he, (timerRead st d now since).steady hl h⟩⟩ :=
  .bind (load_timerRead h) fun since ↦ .ret fun _ _ h ↦ ⟨since, rfl, h⟩

/-- What follows an aborted close in the two waiting states. -/
theorem reopened_rule {line : LogLine} (hline : Mild (.prInfo line)) (hst : st ≠ .exitRequested) :
    Triple top (do
      prInfo line
      let now ← ktimeGetSeconds
      perform (.store .lastVehicleDetect now)
      gateSetState st) fun _ ↦ atTop := by
  refine .bind (mild (o := .prInfo line) hline) fun _ ↦ ?_
  refine .bind ktime_read fun now ↦ ?_
  exact .bind store_vehicleTimer fun _ ↦ writeState_vehicleTimer hst

theorem whenWaiting_rule {closing reopened : LogLine} {back : ℤ → LogLine}
    (hreopened : Mild (.prInfo reopened)) (hback : ∀ d, Mild (.prInfo (back d)))
    (hst : st = .entryWaiting ∨ st = .exitVehicleWaiting) (hst' : st' ≠ .exitRequested) :
    Triple (timed st d now) (whenWaiting closing reopened back st' d now) fun _ ↦ atTop := by
  have htimer (b : Book) (since : ℤ) (hb : b.state = st)
      (htold : Told (.load .lastVehicleDetect) since b) : b.timer = some since := by
    obtain rfl : since = b.lastVehicleDetect := htold
    rw [Book.timer, hb]
    rcases hst with rfl | rfl <;> rfl
  have hne : st ≠ .exitRequested := by rcases hst with rfl | rfl <;> decide
  refine .bind (elapsedSince_rule htimer) fun elapsed ↦ .ite (fun hdue ↦ ?_) fun _ ↦ ?_
  · refine closeOr_rule ?_ (reopened_rule hreopened hst')
    rintro b ⟨since, rfl, h⟩
    exact timerRead_overdue (fun hst ↦ absurd hst hne) hdue h
  · refine .pre (P := note (timed st d now)) (fun _ _ ⟨_, _, h⟩ ↦ h.1) ?_
    refine .ite (fun _ ↦ moveOn_rule (hback d) hst') fun hd ↦ ?_
    exact .ret fun _ _ h ↦ timed_atTop hd h

theorem whenExitRequested_rule :
    Triple (timed .exitRequested d now) (whenExitRequested d now) fun _ ↦ atTop := by
  refine .ite (fun _ ↦ ?_) fun hd ↦ ?_
  · refine .bind (mild (o := .prInfo (.exitVehicle d)) (by simp [Mild])) fun _ ↦ ?_
    refine .bind writeState_inState fun _ ↦ ?_
    exact (store_inState _ _).post fun _ _ _ h ↦ inState_atTop (by simp) h
  have htimer (b : Book) (since : ℤ) (hb : b.state = .exitRequested)
      (htold : Told (.load .exitRequestTime) since b) : b.timer = some since := by
    obtain rfl : since = b.exitRequestTime := htold
    rw [Book.timer, hb]
  refine .bind (elapsedSince_rule htimer) fun elapsed ↦ .ite (fun hdue ↦ ?_) fun _ ↦ ?_
  · refine closeOr_rule ?_ ?_
    · rintro b ⟨since, rfl, h⟩
      exact timerRead_overdue (fun _ ↦ hd) hdue h
    · refine .bind (mild (o := .prInfo .exitTimeoutReopened) (by simp [Mild])) fun _ ↦ ?_
      refine .bind ktime_read fun now ↦ ?_
      refine .bind (store_read _ _) fun _ ↦ .bind store_exitTimer fun _ ↦ ?_
      exact writeState_exitTimer.post fun _ _ _ h ↦ polled_atTop h
  · exact .ret fun _ _ ⟨_, _, h⟩ ↦ timed_atTop hd h.1

theorem dispatch_rule : Triple (timed st d now) (dispatch st d now) fun _ ↦ atTop := by
  cases st with
  | idle => exact whenIdle_rule
  | entryDetected => exact whenEntryDetected_rule
  | entryWaiting =>
    exact whenWaiting_rule (by simp [Mild]) (by simp [Mild]) (.inl rfl) (by decide)
  | exitRequested => exact whenExitRequested_rule
  | exitVehicleDetected => exact whenExitVehicleDetected_rule
  | exitVehicleWaiting =>
    exact whenWaiting_rule (by simp [Mild]) (by simp [Mild]) (.inr rfl) (by decide)

/-! ## A turn -/

theorem measure_rule : Triple (known st) ultrasonicMeasureCm (measured st) := by
  refine .bind (R := fun e ↦ note (measured st (ultrasonicDistance e))) ?_ fun e ↦
    .ret fun _ _ h ↦ h
  refine call_rule fun b e h _ ↦ ⟨fun hc ↦ hc.elim, h.1, fun since hs ↦ ⟨fun hd ↦ ?_, fun hst ↦ ?_⟩⟩
  · exact Since.append (h.2 since hs).1 ⟨id, hd⟩
  · refine Since.append ((h.2 since hs).2 ?_) ⟨id, id⟩
    rwa [h.1]

theorem clock_rule : Triple (measured st d) ktimeGetSeconds (timed st d) := by
  refine call_rule fun b now h _ ↦ ⟨fun hc ↦ hc.elim, ⟨h.1, fun since hs ↦ ?_⟩, Since.now rfl,
    Since.now rfl⟩
  obtain ⟨hquiet, hbefore⟩ := h.2 since hs
  exact ⟨fun hd ↦ Since.append (hquiet hd) ⟨id, id⟩, fun hst ↦ Since.append (hbefore hst) ⟨id, id⟩⟩

theorem signal_mild : signal.Uses Mild :=
  signal_uses.mono fun o ho ↦ by cases o <;> first | exact ho | exact trivial | exact ho.elim

theorem turn_rule : Triple polled stateMachineTurn fun _ ↦ atTop := by
  refine .bind (R := fun _ ↦ note polled) ?_ fun _ ↦ ?_
  · refine .bind (mild (o := .xchgSwitchPressed) trivial) fun b ↦ .ite (fun _ ↦ ?_) fun _ ↦ ?_
    · exact onSwitchPress_rule
    · exact .ret fun _ _ h ↦ h
  refine .bind (R := fun s ↦ note (known s)) ?_ fun s ↦ ?_
  · refine call_rule fun b s h htold ↦ ⟨fun hc ↦ hc.elim, htold.symm, ?_⟩
    exact polled.steady ⟨id, id, id, rfl⟩ h
  refine .bind measure_rule fun d ↦ .bind clock_rule fun now ↦ ?_
  exact .bind dispatch_rule fun _ ↦ mild_program signal_mild

theorem outline_valid : outline.Valid fun _ ↦ note atTop where
  ext hs _ _ := always_append_singleton.mpr ⟨hs.2, fun hc ↦ hc.elim⟩
  start {t j s p x} hs htop hentry hknown := by
    obtain ⟨rfl, rfl⟩ : stateMachineTurn = p ∧ s.state = x := by simpa [gateMachine] using hentry
    have hinv : outline.inv (s.log s.state (.start () j)) :=
      always_append_singleton.mpr ⟨hs.2, fun hc ↦ hc.elim⟩
    refine ⟨hinv, turn_rule _ ⟨hknown, hinv⟩ fun since hsince ↦ ?_⟩
    have hquiet : Quiet since s.trace := htop since hsince
    exact ⟨Since.append hquiet ⟨id, id⟩, fun _ ↦ Since.now ⟨trivial, hquiet⟩⟩

/-- Whenever a close is entered, a timer has been found expired. -/
theorem overdue_of_reachable {c : GateConfig} (hc : GateReachable c) :
    Always (fun pre l ↦ EntersClose l → Overdue pre) c.trace :=
  (outline_valid.reachable always_nil (fun _ _ hs ↦ by cases hs) hc fun _ _ ↦ trivial).1

end HoldOpen

/-! ## The clock -/

/-- `time pre` is what the clock shows when what comes after `pre` happens. It does not go back, and
it is what a reading of the clock returns. -/
structure Clocked (time : List GateLabel → ℤ) (tr : List GateLabel) : Prop where
  mono : ∀ {pre mid}, pre <+: mid → mid <+: tr → time pre ≤ time mid
  read : ∀ {pre l post now}, tr = pre ++ l :: post → clockOf l = some now → time pre = now

/-- A label of this kind is the last thing that the thread has done. -/
def JustDone (P : GateLabel → Prop) : List GateLabel → Prop :=
  Since (fun _ l ↦ P l) fun l ↦ l.by? = none

section Clock

variable {P : GateLabel → Prop} {a b q r tr : List GateLabel} {x : GateLabel}
  {time : List GateLabel → ℤ} {since now : ℤ}

/-- What was done last in `q` was done before `x`, if `x` is something else the thread has done and
it has not been done after `x`. -/
theorem JustDone.prefix_of_append (hq : JustDone P q) (h : a ++ x :: b = q ++ r)
    (hby : x.by? ≠ none)
    (hx : ¬P x) (hb : ∀ l ∈ b, ¬P l) : q <+: a := by
  obtain ⟨q₀, y, idle, rfl, hy, hidle⟩ := hq
  rw [List.append_assoc, List.cons_append] at h
  rcases List.append_eq_append_iff.mp h with ⟨late, rfl, hlate⟩ | ⟨early, rfl, hearly⟩
  · -- `y` is `x` or comes after it
    have hmem : y ∈ x :: b := by simp [hlate]
    rcases List.mem_cons.mp hmem with rfl | hmem
    · exact absurd hy hx
    · exact absurd hy (hb y hmem)
  · cases early with
    | nil =>
      obtain ⟨rfl, -⟩ := List.cons.inj hearly
      exact absurd hy hx
    | cons y' early =>
      obtain ⟨rfl, hidle'⟩ := List.cons.inj hearly
      rcases List.append_eq_append_iff.mp hidle' with ⟨mid, rfl, -⟩ | ⟨mid, rfl, hmid⟩
      · exact (List.prefix_append_right_inj q₀).mpr (List.prefix_append (y :: idle) mid)
      · cases mid with
        | nil => simp
        | cons z mid =>
          -- `x` itself would be idle
          obtain ⟨rfl, -⟩ := List.cons.inj hmid
          exact absurd (hidle x (by simp)) hby

theorem by?_of_clockOf (hx : clockOf x = some now) : x.by? ≠ none := by
  cases x with
  | ext e => cases hx
  | _ => simp [Label.by?]

/-- What was done last in `q` was done before the reading that it has not been done since. -/
theorem Clocked.le_since {Keep : GateLabel → Prop} (htime : Clocked time tr)
    (hsince : Since (fun _ l ↦ clockOf l = some since) Keep a) (ha : a <+: tr)
    (hclock : ∀ l, P l → clockOf l = none) (hkeep : ∀ l, Keep l → ¬P l) (hq : JustDone P q)
    (hqa : q <+: a) : time q ≤ since := by
  obtain ⟨pre, l, post, rfl, hl, hpost⟩ := hsince
  obtain ⟨rest, hrest⟩ := hqa
  have hprefix : q <+: pre := by
    refine hq.prefix_of_append hrest.symm (by?_of_clockOf hl) (fun hP ↦ ?_) fun l' hl' ↦
      hkeep l' (hpost l' hl')
    rw [hclock l hP] at hl
    cases hl
  obtain ⟨rest', htr⟩ := ha
  have hread : time pre = since :=
    htime.read (show tr = pre ++ l :: (post ++ rest') by simp [← htr]) hl
  rw [← hread]
  exact htime.mono hprefix ⟨l :: (post ++ rest'), by simp [← htr]⟩

/-- What was done last before a label that has not come again was done before its latest coming. -/
theorem prefix_of_append_of_mem {S : GateLabel → Prop} (h : a ++ x :: b = q ++ r)
    (hb : ∀ l ∈ b, ¬S l)
    (hr : ∃ l ∈ r, S l) : q <+: a := by
  rcases List.append_eq_append_iff.mp h with ⟨late, rfl, hlate⟩ | ⟨early, rfl, -⟩
  · cases late with
    | nil => simp
    | cons z late =>
      obtain ⟨rfl, rfl⟩ := List.cons.inj hlate
      obtain ⟨l, hl, hSl⟩ := hr
      exact absurd hSl (hb l (List.mem_append_right _ hl))
  · exact List.prefix_append _ _

/-- The reading that decides is the latest one. -/
theorem Clocked.since_le_decided {Keep : GateLabel → Prop} (htime : Clocked time tr)
    (hsince : Since (fun _ l ↦ clockOf l = some since) Keep a) (hdecided : Decided now a)
    (ha : a <+: tr) : since ≤ now := by
  obtain ⟨pre, l, post, rfl, hl, -⟩ := hsince
  obtain ⟨pre', l', post', heq, hl', hpost'⟩ := hdecided
  obtain ⟨rest, htr⟩ := ha
  have hread : time pre = since :=
    htime.read (show tr = pre ++ l :: (post ++ rest) by simp [← htr]) hl
  have hread' : time pre' = now :=
    htime.read (show tr = pre' ++ l' :: (post' ++ rest) by simp [← htr, heq]) hl'
  have hpre' : pre' <+: tr := ⟨l' :: (post' ++ rest), by simp [← htr, heq]⟩
  rw [← hread, ← hread']
  rcases List.append_eq_append_iff.mp heq with ⟨late, rfl, -⟩ | ⟨early, rfl, hearly⟩
  · exact htime.mono (List.prefix_append _ _) hpre'
  · cases early with
    | nil => simp
    | cons z early =>
      obtain ⟨rfl, rfl⟩ := List.cons.inj hearly
      have hnone := (hpost' l (by simp)).1
      rw [hl] at hnone
      cases hnone

theorem toInt32_le {x : ℤ} (hx : 0 ≤ x) : toInt32 x ≤ x := by
  by_cases hlt : x < 2 ^ 31
  · exact Int.le_of_eq (Int.bmod_eq_of_le (by omega) (by omega))
  · have hbmod : toInt32 x < (2 ^ 32 + 1) / 2 := Int.bmod_lt (by decide)
    omega

/-- For every run in which the readings of the clock do not decrease there is such a clock. -/
theorem exists_clocked (h : (clocks tr).Pairwise (· ≤ ·)) : ∃ time, Clocked time tr := by
  -- what is read next, and after the last reading what was read last
  refine ⟨fun pre ↦ (clocks (tr.drop pre.length)).headD ((clocks tr).getLastD 0), ?_, ?_⟩
  · rintro pre mid ⟨m, rfl⟩ ⟨rest, rfl⟩
    rw [List.append_assoc, List.drop_left, ← List.append_assoc, List.drop_left, clocks_append]
    simp only [clocks_append] at h ⊢
    cases hm : clocks m with
    | nil => simp
    | cons t ts =>
      rw [hm] at h
      have htail := (List.pairwise_append.mp (List.append_assoc .. ▸ h)).2.1
      rw [List.cons_append] at htail
      have hle := (List.pairwise_cons.mp htail).1
      cases hr : clocks rest with
      | cons t' ts' => exact hle t' (by simp [hr])
      | nil =>
        change t ≤ (clocks pre ++ t :: ts ++ []).getLastD 0
        rcases List.eq_nil_or_concat ts with rfl | ⟨ts', t', rfl⟩
        · simp
        · rw [List.concat_eq_append, List.append_nil, ← List.cons_append, ← List.append_assoc,
            List.getLastD_concat]
          exact hle t' (by simp)
  · rintro pre l post now rfl hl
    simp [clocks, hl]

end Clock

/-! ## Results -/

/-- **The gate stays open for ten seconds.** Nothing is assumed of the clock but that it does not go
back. Whenever a close is entered, the reading that decided it is late enough: ten seconds after the
thread has done with the last opening step, of whichever opening movement, and ten seconds after it
has done with any reading of an earlier turn that shows a vehicle. -/
theorem closes_after_hold_open {c : GateConfig} (hc : GateReachable c)
    {time : List GateLabel → ℤ} (htime : Clocked time c.trace) :
    Always (fun pre l ↦ EntersClose l → ∃ now, Decided now pre
      ∧ (∀ q, q <+: pre → JustDone IsOpening q → time q + exitTimeoutSec ≤ now)
      ∧ ∀ q late, pre = q ++ late → JustDone IsSighting q → (∃ l ∈ late, IsTurnStart l) →
        time q + entryCloseDelaySec ≤ now) c.trace := by
  intro pre l post htr hl
  obtain ⟨since, now, hdecided, hdue, hcause⟩ := HoldOpen.overdue_of_reachable hc pre l post htr hl
  have hpre : pre <+: c.trace := ⟨l :: post, htr.symm⟩
  have hopening (l : GateLabel) (h : IsOpening l) : clockOf l = none := by
    cases l with
    | op t o r => cases o <;> first | rfl | exact h.elim
    | _ => rfl
  have hsighting (l : GateLabel) (h : IsSighting l) : clockOf l = none := by
    cases l with
    | op t o r => cases o <;> first | rfl | exact h.elim
    | _ => rfl
  have hlate {t : ℤ} (h : t ≤ since) (hle : since ≤ now) : t + 10 ≤ now := by
    have hint := toInt32_le (x := now - since) (by omega)
    change 10 ≤ toInt32 (now - since) at hdue
    omega
  rcases hcause with hquiet | ⟨p, s, rest, rfl, ⟨hs, hquiet⟩, hrest⟩
  · have hle := htime.since_le_decided hquiet hdecided hpre
    refine ⟨now, hdecided, fun q hq hdone ↦ ?_, fun q late heq hdone _ ↦ ?_⟩
    · exact hlate (htime.le_since hquiet hpre hopening (fun _ h ↦ h.1) hdone hq) hle
    · exact hlate (htime.le_since hquiet hpre hsighting (fun _ h ↦ h.2) hdone ⟨late, heq.symm⟩) hle
  -- a waiting state: what counts is how things were when the turn began
  have hp : p <+: c.trace := (List.prefix_append _ _).trans hpre
  have hle : since ≤ now := by
    obtain ⟨a, x, b, rfl, hx, hb⟩ := hquiet
    have hlonger : Since (fun _ l ↦ clockOf l = some since) (fun _ ↦ True)
        (a ++ x :: b ++ s :: rest) := ⟨a, x, b ++ s :: rest, by simp, hx, fun _ _ ↦ trivial⟩
    exact htime.since_le_decided hlonger hdecided hpre
  have hby : s.by? ≠ none := by
    cases s with
    | start t j => simp [Label.by?]
    | _ => exact hs.elim
  have hnot : ¬IsOpening s := by
    cases s with
    | start t j => exact id
    | _ => exact hs.elim
  refine ⟨now, hdecided, fun q hq hdone ↦ ?_, fun q late heq hdone hstart ↦ ?_⟩
  · obtain ⟨r, hr⟩ := hq
    have hqp := hdone.prefix_of_append hr.symm hby hnot fun l hl ↦ (hrest l hl).1
    exact hlate (htime.le_since hquiet hp hopening (fun _ h ↦ h.1) hdone hqp) hle
  · have hqp := prefix_of_append_of_mem heq (fun l hl ↦ (hrest l hl).2) hstart
    exact hlate (htime.le_since hquiet hp hsighting (fun _ h ↦ h.2) hdone hqp) hle

/-- An exit without a vehicle: the press is taken at `0`, and the gate closes at `10`. -/
theorem closes_after_hold_open_exit :
    ∃ (c : GateConfig) (time : List GateLabel → ℤ) (pre : List GateLabel),
    GateReachable c ∧ Clocked time c.trace ∧
      c.trace = pre ++ [.op () (.prInfo .exitTimeoutClose) ()]
      ∧ ∃ now, Decided now pre
        ∧ (∀ q, q <+: pre → JustDone IsOpening q → time q + exitTimeoutSec ≤ now)
        ∧ ∀ q late, pre = q ++ late → JustDone IsSighting q → (∃ l ∈ late, IsTurnStart l) →
          time q + entryCloseDelaySec ≤ now := by
  let c₁ : GateConfig := ⟨(Config.init GateState.init : GateConfig).toSnap.log
    { GateState.init with switchPressed := true } (.ext .press), fun _ ↦ none⟩
  have h₁ : GateReachable c₁ := .single (.ext (e := GateEvent.press) rfl)
  let pre : List GateLabel := [.ext .press, .start () ()] ++ exitOpening 0
    ++ measured .exitRequested .silent 10 ++ [.op () (.load .exitRequestTime) 0]
  have hpass : gateMachine.MayPass () stateMachineTurn
      (fun s ↦ s.trace = pre ++ [.op () (.prInfo .exitTimeoutClose) ()])
      (c₁.toSnap.log c₁.state (.start () ())) := by
    refine .bind (may_pollSwitch_open rfl rfl 0 fun x _ hstate hsince ↦ ?_)
    refine .bind (may_perform (o := .readState) .exitRequested hstate.symm ?_)
    refine .bind (may_ultrasonicMeasureCm .silent ?_)
    refine .bind (may_perform (o := .ktime) 10 trivial (.left ?_))
    rw [dispatch, whenExitRequested, ultrasonicDistance_silent, if_neg (by decide)]
    refine .bind (.bind (may_perform (o := .load .exitRequestTime) 0 hsince.symm (.ret ?_)))
    rw [if_pos (by decide), closeOr]
    refine .bind (may_perform (o := .prInfo .exitTimeoutClose) () trivial (.here ?_))
    simp [Snap.log, pre, measured, c₁, Config.init]
  obtain ⟨c, hsteps, htr⟩ := hpass.steps (c := c₁) (j := ()) rfl rfl
  have hclocks : clocks c.trace = [0, 10] := by
    have hopening : clocks opening = [] :=
      List.filterMap_eq_nil_iff.mpr fun l hl ↦ by
        rw [opening, List.mem_replicate] at hl
        rw [hl.2]
        rfl
    rw [htr]
    simp only [pre, exitOpening, clocks_append, hopening]
    rfl
  have hsorted : (clocks c.trace).Pairwise (· ≤ ·) := by
    rw [hclocks]
    decide
  obtain ⟨time, htime⟩ := exists_clocked hsorted
  have hc : GateReachable c := h₁.trans hsteps
  exact ⟨c, time, pre, hc, htime, htr, closes_after_hold_open hc htime pre _ [] htr trivial⟩

end ParkingService
