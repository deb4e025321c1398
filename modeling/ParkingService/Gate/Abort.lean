import ParkingService.Gate.Power
import ParkingService.Gate.Presses

/-!
# What reverses a close

A check between two batches breaks a close off for one of three reasons: the distance it has just
measured, `switch_pressed`, or `switch_reopen`. The measurement is fresh. The flags need not be: a
press that is handled while the gate stands open is put down in `switch_reopen`, nobody looks at it
before the first check of the next close, and that check reverses the arm with nobody there
(`stale_press_reverses`).

The thread's own part is followed by a view: it aborts only after one of its checks has found
something since the first step, and it sets `switch_reopen` only between closes. That what it finds
in a flag was put there since the first step is then shown label by label, for runs in which every
close begins with both flags down.
-/

namespace ParkingService

open Concurrency

/-! ## Closes in a trace -/

/-- All coils are switched off, as at both ends of `gate_close_interruptible`. -/
def EndsClosing : GateLabel → Prop
  | .op _ .deenergize _ => True
  | _ => False

/-- A close is broken off. -/
def IsAbort : GateLabel → Prop
  | .op _ (.prInfo (.closeAborted _ _)) _ => True
  | _ => False

/-- A distance in range is measured, or a press is accepted. -/
def IsCause : GateLabel → Prop
  | .op _ .ping e => VehicleInRange (ultrasonicDistance e)
  | .ext .press => True
  | _ => False

/-- The thread finds a reason to break off: a distance in range, or a flag that is up. -/
def FindsReason : GateLabel → Prop
  | .op _ .ping e => VehicleInRange (ultrasonicDistance e)
  | .op _ .xchgSwitchPressed r => r = true
  | .op _ .xchgSwitchReopen r => r = true
  | _ => False

def SetsReopen : GateLabel → Prop
  | .op _ .setSwitchReopen _ => True
  | _ => False

def TakesReopen : GateLabel → Prop
  | .op _ .xchgSwitchReopen r => r = true
  | _ => False

instance : DecidablePred EndsClosing := fun l ↦ by
  unfold EndsClosing
  split <;> infer_instance

instance : DecidablePred SetsReopen := fun l ↦ by
  unfold SetsReopen
  split <;> infer_instance

instance : DecidablePred TakesReopen := fun l ↦ by
  unfold TakesReopen
  split <;> infer_instance

/-- The first step of a close has been made, and the coils are not off yet. -/
def closing (tr : List GateLabel) : Bool := outstanding StepsClosing EndsClosing tr

/-- Since the first step of the close that is going on, an `X` has come. -/
def DuringClose (X : GateLabel → Prop) (tr : List GateLabel) : Prop :=
  Within StepsClosing EndsClosing X tr

/-- The first step of a close is made with no press waiting in either flag. -/
def StartsFresh (pre : List GateLabel) (l : GateLabel) : Prop :=
  StepsClosing l → closing pre = false →
    outstanding IsPress TakesPress pre = false ∧ outstanding SetsReopen TakesReopen pre = false

/-- A close is broken off only after a distance in range or a press since its first step. -/
def AbortsForCause (pre : List GateLabel) (l : GateLabel) : Prop :=
  IsAbort l → DuringClose IsCause pre

theorem not_endsClosing_of_stepsClosing {l : GateLabel} (h : StepsClosing l) : ¬EndsClosing l := by
  unfold StepsClosing at h
  split at h
  · exact id
  · exact h.elim

section Labels

variable {X : GateLabel → Prop} {tr : List GateLabel} {l : GateLabel}

theorem closing_append_singleton (tr : List GateLabel) (l : GateLabel) : closing (tr ++ [l])
    = if EndsClosing l then false else closing tr || decide (StepsClosing l) :=
  outstanding_append_singleton _ _ _ _

theorem duringClose_append_singleton : DuringClose X (tr ++ [l])
    ↔ ¬EndsClosing l ∧ (DuringClose X tr ∨ X l ∧ closing tr = true) :=
  within_append_singleton fun _ ↦ not_endsClosing_of_stepsClosing

theorem DuringClose.closing (h : DuringClose X tr) : closing tr = true :=
  h.outstanding fun _ ↦ not_endsClosing_of_stepsClosing

end Labels

/-! ## The view -/

/-- What the argument follows: whether a close is going on, whether it has found a reason to break
off, and whether so far no close was broken off without one and `switch_reopen` was set between
closes only. -/
structure Inquiry where
  closing : Bool
  found : Prop
  proper : Prop

namespace Inquiry

/-- Aborting only for a reason, and `switch_reopen` only between closes. -/
def Proper (pre : List GateLabel) (l : GateLabel) : Prop :=
  (IsAbort l → DuringClose FindsReason pre) ∧ (SetsReopen l → ParkingService.closing pre = false)

def ofTrace (tr : List GateLabel) : Inquiry :=
  ⟨ParkingService.closing tr, DuringClose FindsReason tr, Always Proper tr⟩

def next (v : Inquiry) (l : GateLabel) : Inquiry where
  closing := if EndsClosing l then false else v.closing || decide (StepsClosing l)
  found := ¬EndsClosing l ∧ (v.found ∨ FindsReason l ∧ v.closing = true)
  proper := v.proper ∧ (IsAbort l → v.found) ∧ (SetsReopen l → v.closing = false)

theorem ofTrace_append (tr : List GateLabel) (l : GateLabel) :
    ofTrace (tr ++ [l]) = (ofTrace tr).next l := by
  rw [ofTrace, next, closing_append_singleton, duringClose_append_singleton.eq,
    always_append_singleton.eq]
  rfl

/-- A label the inquiry does not look at. -/
structure Ignores (l : GateLabel) : Prop where
  ends : ¬EndsClosing l
  steps : ¬StepsClosing l
  finds : ¬FindsReason l
  aborts : ¬IsAbort l
  sets : ¬SetsReopen l

theorem Ignores.next {l : GateLabel} (h : Ignores l) (v : Inquiry) : v.next l = v := by
  simp [Inquiry.next, h.ends, h.steps, h.finds, h.aborts, h.sets]

def view : View gateMachine Inquiry where
  assume _ _ := True
  proj s := ofTrace s.trace
  guard _ _ _ := True
  step o r v := v.next (.op () o r)
  proj_ext _ _ := (ofTrace_append _ _).trans (Ignores.next ⟨id, id, id, id, id⟩ _)
  proj_start _ := (ofTrace_append _ _).trans (Ignores.next ⟨id, id, id, id, id⟩ _)
  proj_op _ _ := ⟨trivial, ofTrace_append _ _⟩

def Sound (v : Inquiry) : Prop := v.proper

/-- No close is going on. -/
def Between (v : Inquiry) : Prop := v.closing = false

/-- A close is going on. -/
def During (v : Inquiry) : Prop := v.closing = true

/-- The check that has measured `d`. -/
def Measured (d : ℤ) (v : Inquiry) : Prop := v.closing = true ∧ (VehicleInRange d → v.found)

/-- A reason to break off has been found. -/
def Found (v : Inquiry) : Prop := v.found

/-! ## Operations -/

/-- Operations that neither begin nor end a close, break none off and set no flag. -/
def Minor (o : GateOp) : Prop :=
  ∀ r, ¬EndsClosing (.op () o r) ∧ ¬StepsClosing (.op () o r) ∧ ¬IsAbort (.op () o r)
    ∧ ¬SetsReopen (.op () o r)

theorem Sound.next {v : Inquiry} {l : GateLabel} (hv : Sound v) (habort : IsAbort l → v.found)
    (hsets : SetsReopen l → v.closing = false) : Sound (v.next l) :=
  ⟨hv, habort, hsets⟩

theorem Minor.closing {o : GateOp} (ho : Minor o) (r : o.Resp) (v : Inquiry) :
    (v.next (.op () o r)).closing = v.closing := by
  obtain ⟨hends, hsteps, -, -⟩ := ho r
  simp [Inquiry.next, hends, hsteps]

theorem Minor.found {o : GateOp} (ho : Minor o) (r : o.Resp) {v : Inquiry} (h : v.found) :
    (v.next (.op () o r)).found :=
  ⟨(ho r).1, .inl h⟩

theorem Minor.sound {o : GateOp} (ho : Minor o) (r : o.Resp) {v : Inquiry} (h : Sound v) :
    Sound (v.next (.op () o r)) :=
  h.next (fun hl ↦ absurd hl (ho r).2.2.1) fun hl ↦ absurd hl (ho r).2.2.2

theorem minor {b : Bool} {o : GateOp} (ho : Minor o) :
    view.Triple Sound (fun v ↦ v.closing = b) (perform o) fun _ v ↦ v.closing = b :=
  perform_rule fun v r hv hA _ ↦ ⟨ho.sound r hv, (ho.closing r v).trans hA⟩

/-- During a close, what is found is found. -/
theorem look {o : GateOp} (ho : Minor o) {d : ℤ} :
    view.Triple Sound (Measured d) (perform o) fun r v ↦
      Measured d v ∧ (FindsReason (.op () o r) → v.found) :=
  perform_rule fun _ r hv hA _ ↦
    ⟨ho.sound r hv, ⟨(ho.closing r _).trans hA.1, fun hd ↦ ho.found r (hA.2 hd)⟩,
      fun hr ↦ ⟨(ho r).1, .inr ⟨hr, hA.1⟩⟩⟩

theorem minor_of_takesFlag {o : GateOp} (ho : o.TakesFlag) : Minor o := by
  cases o <;> first | exact fun _ ↦ ⟨id, id, id, id⟩ | exact ho.elim

/-! ## Closing -/

theorem measure_during : view.Triple Sound During ultrasonicMeasureCm Measured :=
  ultrasonicMeasureCm_rule fun v e hv hA _ ↦ by
    have ho : Minor .ping := fun _ ↦ ⟨id, id, id, id⟩
    exact ⟨ho.sound e hv, (ho.closing e v).trans hA, fun hd ↦ ⟨id, .inr ⟨hd, hA⟩⟩⟩

/-- A check breaks the close off only if it has found a reason. -/
theorem closeInterrupted_found (d : ℤ) :
    view.Triple Sound (Measured d) (closeInterrupted d) fun b v ↦
      if b then Found v else During v := by
  refine .ite (fun hd ↦ .ret fun v _ h ↦ h.2 hd) fun _ ↦ ?_
  refine .bind (look (o := .xchgSwitchPressed) (minor_of_takesFlag trivial)) fun b ↦ ?_
  cases b with
  | true => exact .ret fun v _ h ↦ h.2 rfl
  | false =>
    refine .pre (fun _ _ h ↦ h.1) ((look (o := .xchgSwitchReopen)
      (minor_of_takesFlag trivial)).post fun b v _ h ↦ ?_)
    cases b with
    | true => exact h.2 rfl
    | false => exact h.1.1

theorem gateCloseInterruptible_between {A : Inquiry → Prop} :
    view.Triple Sound A gateCloseInterruptible fun _ ↦ Between := by
  have hstep {B : Inquiry → Prop} : view.Triple Sound B (perform .closingStep) fun _ ↦ During :=
    perform_rule fun v r hv _ _ ↦ ⟨hv.next (fun h ↦ h.elim) (fun h ↦ h.elim), Bool.or_true _⟩
  have hoff {B : Inquiry → Prop} : view.Triple Sound B stepperDeenergize fun _ ↦ Between :=
    perform_rule fun v r hv _ _ ↦ ⟨hv.next (fun h ↦ h.elim) (fun h ↦ h.elim), rfl⟩
  have hany {B : Inquiry → Prop} {o : GateOp} (ho : Minor o) :
      view.Triple Sound B (perform o) fun _ _ ↦ True :=
    perform_rule fun v r hv _ _ ↦ ⟨ho.sound r hv, trivial⟩
  -- until the first step the close has not begun
  have houtline : CloseOutline view Sound (fun k v ↦ 0 < k → During v) (fun _ ↦ During)
      (fun _ ↦ Measured) (fun _ _ ↦ Found) (fun _ _ _ ↦ True) (fun _ ↦ Between) :=
    { step := fun k _ ↦ hstep
      skip := fun _ _ _ _ _ h _ ↦ h
      buzzer := fun k x ↦ minor (o := .gpioSet .buzzer x) fun _ ↦ ⟨id, id, id, id⟩
      measure := fun k ↦ measure_during
      interrupted := fun k d ↦ (closeInterrupted_found d).post fun b v _ h ↦ by
        cases b with
        | true => exact h
        | false => exact fun _ ↦ h
      report := fun k d ↦ perform_rule fun v r hv hA _ ↦
        ⟨hv.next (fun _ ↦ hA) (fun h ↦ h.elim), trivial⟩
      silence := fun k ↦ hany (o := .gpioSet .buzzer 1) fun _ ↦ ⟨id, id, id, id⟩
      undo := fun k _ j _ ↦ hany (o := .openingStep) fun _ ↦ ⟨id, id, id, id⟩
      reopened := fun k _ ↦ hoff
      closed := hoff }
  exact houtline.close.pre fun _ _ _ h ↦ absurd h (Nat.lt_irrefl 0)

/-! ## The branches -/

/-- Between closes everything else is allowed. -/
theorem between {o : GateOp} (ho : ∀ r, ¬StepsClosing (.op () o r) ∧ ¬IsAbort (.op () o r)) :
    view.Triple Sound Between (perform o) fun _ ↦ Between :=
  perform_rule fun v r hv hA _ ↦ by
    refine ⟨hv.next (fun h ↦ absurd h (ho r).2) fun _ ↦ hA, ?_⟩
    have hclosing : v.closing = false := hA
    change (v.next _).closing = false
    simp [Inquiry.next, hclosing, (ho r).1]

theorem between_program {α : Type} {p : GateProg α}
    (hp : p.Uses fun o ↦ ∀ r, ¬StepsClosing (.op () o r) ∧ ¬IsAbort (.op () o r)) :
    view.Triple Sound Between p fun _ ↦ Between :=
  .frame hp fun _ ho v r hv hA _ ↦ between ho v hv hA r trivial

theorem onSwitchPress_between : view.Triple Sound Between onSwitchPress fun _ ↦ Between := by
  refine .bind (between (o := .readState) fun _ ↦ ⟨id, id⟩) fun s ↦ .ite (fun _ ↦ ?_) fun _ ↦ ?_
  · refine .bind (between (o := .prInfo .exitOpen) fun _ ↦ ⟨id, id⟩) fun _ ↦ ?_
    refine .bind (between_program (gateOpen_uses fun _ ↦ ⟨id, id⟩)) fun _ ↦ ?_
    refine .bind (between (o := .ktime) fun _ ↦ ⟨id, id⟩) fun now ↦ ?_
    refine .bind (between (o := .store .exitRequestTime now) fun _ ↦ ⟨id, id⟩) fun _ ↦ ?_
    exact between (o := .writeState .exitRequested) fun _ ↦ ⟨id, id⟩
  · exact between (o := .setSwitchReopen) fun _ ↦ ⟨id, id⟩

theorem branchOutline : BranchOutline view Sound (fun _ ↦ Between) (fun _ ↦ Between) Between where
  minor _ o ho := between fun r ↦ by
    cases o with
    | prInfo line => cases line <;> first | exact ⟨id, id⟩ | exact ho.elim
    | _ => first | exact ⟨id, id⟩ | exact ho.elim
  enter d now := by
    refine .bind (between (o := .prInfo (.entryOpen d)) fun _ ↦ ⟨id, id⟩) fun _ ↦ ?_
    refine .bind (between (o := .writeState .entryDetected) fun _ ↦ ⟨id, id⟩) fun _ ↦ ?_
    refine .bind (between_program (gateOpen_uses fun _ ↦ ⟨id, id⟩)) fun _ ↦ ?_
    exact between (o := .store .lastVehicleDetect now) fun _ ↦ ⟨id, id⟩
  onward _ s' _ := between (o := .writeState s') fun _ ↦ ⟨id, id⟩
  close s _ := gateCloseInterruptible_between.post fun r _ _ h ↦ by
    split <;> exact h
  closed s _ := between (o := .writeState .idle) fun _ ↦ ⟨id, id⟩
  top _ _ _ h := h

theorem turnOutline : TurnOutline view Sound Between Between Between (fun _ ↦ Between)
    (fun _ _ ↦ Between) (fun _ _ _ ↦ Between) where
  take := (between (o := .xchgSwitchPressed) fun _ ↦ ⟨id, id⟩).post fun b _ _ h ↦ by
    cases b <;> exact h
  press := onSwitchPress_between
  read := between (o := .readState) fun _ ↦ ⟨id, id⟩
  measure _ := between_program ⟨fun _ ↦ ⟨id, id⟩, fun _ ↦ trivial⟩
  clock _ _ := between (o := .ktime) fun _ ↦ ⟨id, id⟩
  act := branchOutline.dispatch
  signal o ho v r hv hA hguard := by
    refine between (o := o) (fun _ ↦ ?_) v hv hA r hguard
    cases o <;> first | exact ⟨id, id⟩ | exact ho.elim

theorem proper_of_reachable {c : GateConfig} (hc : GateReachable c) : Always Proper c.trace :=
  (turnOutline.reachable (W := view) always_nil rfl hc (always_of_forall fun _ _ ↦ trivial)).1

theorem between_of_reachable {c : GateConfig} (hc : GateReachable c) (htop : AtLoopTop c) :
    ParkingService.closing c.trace = false :=
  (turnOutline.reachable (W := view) always_nil rfl hc (always_of_forall fun _ _ ↦ trivial)).2 htop

end Inquiry

/-! ## The flags -/

/-- The flags are as the trace tells, whatever speaks for breaking off the close that is going on
has a cause since its first step, and so have all aborts. -/
structure Fresh (s : GateSnap) : Prop where
  pressed : s.state.switchPressed = outstanding IsPress TakesPress s.trace
  reopen : s.state.switchReopen = outstanding SetsReopen TakesReopen s.trace
  caused : closing s.trace = true → s.state.switchPressed = true ∨ s.state.switchReopen = true
    ∨ DuringClose FindsReason s.trace → DuringClose IsCause s.trace
  aborts : Always AbortsForCause s.trace

namespace Fresh

variable {s : GateSnap} {x : GateState} {l : GateLabel}

/-- A label after which the flags are as the trace tells, and after which nothing speaks for
breaking off that did not before, or has its cause in the label. -/
theorem log (h : Fresh s) (hfresh : StartsFresh s.trace l) (hproper : Inquiry.Proper s.trace l)
    (hpressed : x.switchPressed = outstanding IsPress TakesPress (s.trace ++ [l]))
    (hreopen : x.switchReopen = outstanding SetsReopen TakesReopen (s.trace ++ [l]))
    (hstep : StepsClosing l →
      x.switchPressed = s.state.switchPressed ∧ x.switchReopen = s.state.switchReopen)
    (hreason : closing s.trace = true →
      x.switchPressed = true ∨ x.switchReopen = true ∨ FindsReason l →
      s.state.switchPressed = true ∨ s.state.switchReopen = true ∨ IsCause l) :
    Fresh (s.log x l) where
  pressed := hpressed
  reopen := hreopen
  caused hclosing hup := by
    rw [Snap.log_trace] at hclosing hup ⊢
    rw [closing_append_singleton] at hclosing
    split at hclosing
    · cases hclosing
    rename_i hends
    rw [duringClose_append_singleton] at hup ⊢
    refine ⟨hends, ?_⟩
    cases hbefore : closing s.trace with
    | true =>
      have hcaused := h.caused hbefore
      by_cases hfound : DuringClose FindsReason s.trace
      · exact .inl (hcaused (.inr (.inr hfound)))
      · obtain hp | hr | hc := hreason hbefore (hup.imp_right (.imp_right fun hfinds ↦
          hfinds.2.elim (fun h ↦ absurd h hfound) And.left))
        · exact .inl (hcaused (.inl hp))
        · exact .inl (hcaused (.inr (.inl hr)))
        · exact .inr ⟨hc, rfl⟩
    | false =>
      -- the first step of a close, and both flags are down
      rw [hbefore, Bool.false_or, decide_eq_true_iff] at hclosing
      obtain ⟨hnopress, hnoreopen⟩ := hfresh hclosing hbefore
      rw [Snap.log_state, (hstep hclosing).1, (hstep hclosing).2, h.pressed, h.reopen, hnopress,
        hnoreopen] at hup
      obtain hup | hup | ⟨-, hup | ⟨-, hup⟩⟩ := hup
      · cases hup
      · cases hup
      · exact absurd hup.closing (by simp [hbefore])
      · simp [hbefore] at hup
  aborts := by
    refine always_append_singleton.mpr ⟨h.aborts, fun habort ↦ ?_⟩
    have hfound := hproper.1 habort
    exact h.caused hfound.closing (.inr (.inr hfound))

/-- A label that has nothing to do with the flags. -/
theorem quiet (h : Fresh s) (hfresh : StartsFresh s.trace l) (hproper : Inquiry.Proper s.trace l)
    (hx : x.switchPressed = s.state.switchPressed ∧ x.switchReopen = s.state.switchReopen)
    (hpress : ¬IsPress l ∧ ¬TakesPress l) (hsets : ¬SetsReopen l ∧ ¬TakesReopen l)
    (hfinds : FindsReason l → IsCause l) : Fresh (s.log x l) := by
  refine h.log hfresh hproper ?_ ?_ (fun _ ↦ hx) fun _ hup ↦ ?_
  · rw [hx.1, outstanding_append_of_not hpress.1 hpress.2]
    exact h.pressed
  · rw [hx.2, outstanding_append_of_not hsets.1 hsets.2]
    exact h.reopen
  · rw [hx.1, hx.2] at hup
    exact hup.imp_right (.imp_right hfinds)

theorem press (h : Fresh s) (hfresh : StartsFresh s.trace (.ext .press))
    (hproper : Inquiry.Proper s.trace (.ext .press)) :
    Fresh (s.log { s.state with switchPressed := true } (.ext .press)) := by
  refine h.log hfresh hproper ?_ ?_ (fun hl ↦ hl.elim) fun _ _ ↦ .inr (.inr trivial)
  · exact (outstanding_of_append trivial id fun _ h ↦ absurd h List.not_mem_nil).symm
  · rw [outstanding_append_of_not id id]
    exact h.reopen

theorem takePressed (h : Fresh s) {r : Bool} (hr : r = s.state.switchPressed)
    (hfresh : StartsFresh s.trace (.op () .xchgSwitchPressed r))
    (hproper : Inquiry.Proper s.trace (.op () .xchgSwitchPressed r)) :
    Fresh (s.log { s.state with switchPressed := false } (.op () .xchgSwitchPressed r)) := by
  refine h.log hfresh hproper ?_ ?_ (fun hl ↦ hl.elim) fun _ hup ↦ ?_
  · have hflag := h.pressed
    rw [outstanding_append_singleton, ← hflag, ← hr]
    cases r <;> rfl
  · rw [outstanding_append_of_not id id]
    exact h.reopen
  · obtain hup | hup | hup := hup
    · cases hup
    · exact .inr (.inl hup)
    · exact .inl (hr ▸ hup)

theorem takeReopen (h : Fresh s) {r : Bool} (hr : r = s.state.switchReopen)
    (hfresh : StartsFresh s.trace (.op () .xchgSwitchReopen r))
    (hproper : Inquiry.Proper s.trace (.op () .xchgSwitchReopen r)) :
    Fresh (s.log { s.state with switchReopen := false } (.op () .xchgSwitchReopen r)) := by
  refine h.log hfresh hproper ?_ ?_ (fun hl ↦ hl.elim) fun _ hup ↦ ?_
  · rw [outstanding_append_of_not id id]
    exact h.pressed
  · have hflag := h.reopen
    rw [outstanding_append_singleton, ← hflag, ← hr]
    cases r <;> rfl
  · obtain hup | hup | hup := hup
    · exact .inl hup
    · cases hup
    · exact .inr (.inl (hr ▸ hup))

theorem setReopen (h : Fresh s) (hfresh : StartsFresh s.trace (.op () .setSwitchReopen ()))
    (hproper : Inquiry.Proper s.trace (.op () .setSwitchReopen ())) :
    Fresh (s.log { s.state with switchReopen := true } (.op () .setSwitchReopen ())) := by
  refine h.log hfresh hproper ?_ ?_ (fun hl ↦ hl.elim) fun hclosing _ ↦ ?_
  · rw [outstanding_append_of_not id id]
    exact h.pressed
  · exact (outstanding_of_append trivial id fun _ h ↦ absurd h List.not_mem_nil).symm
  · rw [hproper.2 trivial] at hclosing
    cases hclosing

end Fresh

theorem fresh_of_reachable {c : GateConfig} (hc : GateReachable c)
    (hfresh : Always StartsFresh c.trace) : Fresh c.toSnap := by
  have hinvariant : Always StartsFresh c.trace → Always Inquiry.Proper c.trace
      → Fresh c.toSnap := by
    refine Machine.Steps.invariant (I := fun s ↦ Always StartsFresh s.trace
      → Always Inquiry.Proper s.trace → Fresh s) hc
      (fun _ _ ↦ ⟨rfl, rfl, fun h _ ↦ (by cases h), always_nil⟩) ?_
    intro s l x ih hstep hfresh hproper
    obtain ⟨hfresh, hl⟩ := always_append_singleton.mp hfresh
    obtain ⟨hproper, hp⟩ := always_append_singleton.mp hproper
    have hs := ih hfresh hproper
    cases l with
    | start t j =>
      obtain ⟨p, hentry⟩ := hstep
      obtain ⟨-, rfl⟩ : _ ∧ s.state = x := by simpa [gateMachine] using hentry
      exact hs.quiet hl hp ⟨rfl, rfl⟩ ⟨id, id⟩ ⟨id, id⟩ id
    | op t o r =>
      obtain ⟨hans, rfl⟩ := GateOp.exec_eq_some.mp hstep
      cases o with
      | xchgSwitchPressed => exact hs.takePressed hans hl hp
      | xchgSwitchReopen => exact hs.takeReopen hans hl hp
      | setSwitchReopen => exact hs.setReopen hl hp
      | _ => exact hs.quiet hl hp ⟨rfl, rfl⟩ ⟨id, id⟩ ⟨id, id⟩ id
    | ext e =>
      obtain ⟨rfl, rfl⟩ | ⟨rfl, rfl⟩ := GateEvent.exec_cases hstep
      · exact hs.press hl hp
      · exact hs.quiet hl hp ⟨rfl, rfl⟩ ⟨id, id⟩ ⟨id, id⟩ id
  exact hinvariant hfresh (Inquiry.proper_of_reachable hc)

/-! ## Results -/

/-- **A close is broken off only by what happens during it**, in every run in which the first step
of each close is made with no press waiting in either flag: between that step and the abort, a
distance in range has been measured or a press accepted. -/
theorem aborts_for_cause {c : GateConfig} (hc : GateReachable c)
    (hfresh : Always StartsFresh c.trace) : Always AbortsForCause c.trace :=
  (fresh_of_reachable hc hfresh).aborts

/-- A run without presses starts every close fresh. -/
theorem startsFresh_of_quiet {tr : List GateLabel} (h : ∀ l ∈ tr, ¬IsPress l ∧ ¬SetsReopen l) :
    Always StartsFresh tr := by
  intro pre l post htr _ _
  have hpre : ∀ x ∈ pre, x ∈ tr := fun x hx ↦ by simp [htr, hx]
  constructor
  · refine Bool.eq_false_iff.mpr fun hout ↦ ?_
    obtain ⟨x, hx, hpress⟩ := exists_of_outstanding hout
    exact (h x (hpre x hx)).1 hpress
  · refine Bool.eq_false_iff.mpr fun hout ↦ ?_
    obtain ⟨x, hx, hsets⟩ := exists_of_outstanding hout
    exact (h x (hpre x hx)).2 hsets

theorem not_duringClose_append {X : GateLabel → Prop} {tr rest : List GateLabel}
    (h : ¬DuringClose X tr) (hrest : ∀ l ∈ rest, ¬X l) : ¬DuringClose X (tr ++ rest) :=
  append_induction (P := fun tr ↦ ¬DuringClose X tr) h hrest fun _ _ hl htr hduring ↦
    (duringClose_append_singleton.mp hduring).2.elim htr fun hX ↦ hl hX.1

theorem closing_append {tr rest : List GateLabel} (h : closing tr = false)
    (hrest : ∀ l ∈ rest, ¬StepsClosing l) : closing (tr ++ rest) = false :=
  append_induction (P := fun tr ↦ closing tr = false) h hrest fun tr l hl htr ↦ by
    rw [closing_append_singleton, htr, decide_eq_false hl, Bool.or_false, ite_self]

theorem quiet_entry {e e' : Echo} {t now : ℤ} {l : GateLabel}
    (h : l ∈ entryTurn e t ∨ l ∈ goneTurn e' now ∨ IsSignal l) : ¬IsPress l ∧ ¬SetsReopen l := by
  obtain h | h | ⟨o, r, ho, rfl⟩ := h
  · simp only [entryTurn, turnHead, measured, opening, List.mem_append, List.mem_cons,
      List.mem_replicate, List.not_mem_nil, or_false] at h
    rcases h with (((((rfl | rfl) | rfl | rfl | rfl) | rfl | rfl) | ⟨-, rfl⟩) | rfl)
    all_goals exact ⟨id, id⟩
  · simp only [goneTurn, turnHead, measured, List.mem_append, List.mem_cons, List.not_mem_nil,
      or_false] at h
    rcases h with (((rfl | rfl) | rfl | rfl | rfl) | rfl | rfl | rfl)
    all_goals exact ⟨id, id⟩
  · cases o <;> first | exact ⟨id, id⟩ | exact ho.elim

theorem quiet_closeStart {since : ℤ} {e : Echo} {l : GateLabel} (h : l ∈ closeStart since e) :
    ¬IsPress l ∧ ¬SetsReopen l := by
  simp only [closeStart, List.mem_append, List.mem_cons, List.mem_replicate, List.not_mem_nil,
    or_false] at h
  rcases h with (((rfl | rfl) | ⟨-, rfl⟩) | rfl | rfl)
  all_goals exact ⟨id, id⟩

/-- A vehicle that drives up while the gate closes for it: the first check sees it. -/
theorem vehicle_reverses : ∃ c pre d k, GateReachable c
    ∧ c.trace = pre ++ [.op () (.prInfo (.closeAborted d k)) ()] ∧ DuringClose IsCause pre := by
  have hin : VehicleInRange (ultrasonicDistance (.ofCm 5)) := vehicleInRange_ofCm (by decide)
  obtain ⟨c, hc, htop, hpress, hstate, hsince, hlabels⟩ :=
    entryWaiting_reachable hin ultrasonicDistance_silent_neg 0 0
  obtain ⟨c', hsteps, htr⟩ := turn_entry_abort (c := c) (.ofCm 5) 10
    [.op () .xchgSwitchPressed false] [] htop (by rw [hsince]; decide)
    (may_pollSwitch hpress ⟨hstate, rfl, by simp, fun x pre _ _ ↦ by
      rw [closeInterrupted, if_pos hin]
      exact .ret ⟨rfl, by simp⟩⟩)
  have hreach : GateReachable c' := hc.trans hsteps
  have hquiet : ∀ l ∈ c'.trace, ¬IsPress l ∧ ¬SetsReopen l := by
    rw [htr]
    intro l hl
    simp only [measured, List.mem_append, List.mem_cons, List.not_mem_nil, or_false] at hl
    rcases hl with ((((hl | rfl | rfl) | rfl | rfl | rfl) | hl) | rfl)
    case inl.inl.inl.inl => exact quiet_entry (hlabels l hl)
    case inl.inr => exact quiet_closeStart hl
    all_goals exact ⟨id, id⟩
  exact ⟨c', _, _, _, hreach, htr,
    aborts_for_cause hreach (startsFresh_of_quiet hquiet) _ _ [] htr trivial⟩

/-- The button is pressed while the gate stands open for an entry, and the press is handled. Ten
seconds after the vehicle has gone the gate begins to close, nobody is there, nobody presses: the
first check reverses the arm. -/
theorem stale_press_reverses : ∃ c pre, GateReachable c
    ∧ c.trace = pre ++ [.op () (.prInfo (.closeAborted (-1) closeBatch)) ()]
    ∧ ¬DuringClose IsCause pre := by
  have hin : VehicleInRange (ultrasonicDistance (.ofCm 5)) := vehicleInRange_ofCm (by decide)
  have hsilent : ¬VehicleInRange (ultrasonicDistance .silent) := by
    rw [ultrasonicDistance_silent]
    decide
  obtain ⟨c₀, hc₀, htop, -, hstate, hsince, -⟩ :=
    entryWaiting_reachable hin ultrasonicDistance_silent_neg 0 0
  let c : GateConfig :=
    ⟨c₀.toSnap.log { c₀.state with switchPressed := true } (.ext .press), c₀.thread⟩
  have hc : GateReachable c := hc₀.tail (.ext (e := GateEvent.press) rfl)
  have hpoll : GateMay pollSwitch (fun _ s ↦ s.state.currentState = .entryWaiting
        ∧ s.state.var = c.state.var ∧ s.trace = c.trace ++ .start () ()
          :: [.op () .xchgSwitchPressed true, .op () .readState .entryWaiting,
            .op () .setSwitchReopen ()]
        ∧ ∀ x pre, x.switchPressed = s.state.switchPressed →
          x.switchReopen = s.state.switchReopen →
          GateMay (closeInterrupted (ultrasonicDistance .silent)) (fun b s' ↦ b = true ∧ s'.trace
            = pre ++ [.op () .xchgSwitchPressed false, .op () .xchgSwitchReopen true]) ⟨x, pre⟩)
      (c.toSnap.log c.state (.start () ())) := by
    refine .bind (may_perform (o := .xchgSwitchPressed) true rfl ?_)
    refine .bind (may_perform (o := .readState) .entryWaiting hstate.symm ?_)
    refine may_perform (o := .setSwitchReopen) () trivial ⟨hstate, rfl, by simp, ?_⟩
    intro x pre hpressed hreopen
    rw [closeInterrupted, if_neg hsilent]
    refine .bind (may_perform (o := .xchgSwitchPressed) false hpressed.symm ?_)
    exact may_perform (o := .xchgSwitchReopen) true hreopen.symm ⟨rfl, by simp⟩
  obtain ⟨c', hsteps, htr⟩ := turn_entry_abort (c := c) .silent 10 _ _ htop
    (by rw [show c.state.var = c₀.state.var from rfl, hsince]; decide) hpoll
  rw [ultrasonicDistance_silent] at htr
  refine ⟨c', _, hc.trans hsteps, htr, ?_⟩
  -- up to the close there is no close, and from its first step on there is no cause
  refine not_duringClose_append (not_duringClose_append (fun hduring ↦ ?_) ?_) ?_
  · have hbefore : closing c.trace = false :=
      closing_append (Inquiry.between_of_reachable hc₀ htop) (by simp [StepsClosing])
    have hclosing := hduring.closing
    rw [closing_append (closing_append hbefore (by simp [StepsClosing]))
      (by simp [measured, StepsClosing])] at hclosing
    cases hclosing
  · simp only [closeStart, List.mem_append, List.mem_cons, List.mem_replicate, List.not_mem_nil,
      or_false]
    rintro l (((rfl | rfl) | ⟨-, rfl⟩) | rfl | rfl)
    case inr.inr => exact hsilent
    all_goals exact id
  · simp [IsCause]

end ParkingService
