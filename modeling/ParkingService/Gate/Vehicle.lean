import ParkingService.Gate.Turns

/-!
# Closing onto a vehicle

Every close is interruptible: between two batches of steps the distance is measured again, and a
vehicle in range turns the arm back. What is left to show is that no close *starts* with a vehicle
in sight. `STATE_EXIT_REQUESTED` looks at the sensor before it looks at the clock, and is safe. The
two waiting states look at the clock first, so a turn whose timer expires ignores its own
measurement: `BlindExpiry`. Where that does not happen, the arm never closes onto a seen vehicle,
and where it does, `turn_entry_close` makes the first step.

The view is the last measurement, the last clock reading and the verdict on the past, taken under
the assumption that no timer expires blindly.
-/

namespace ParkingService

open Concurrency

/-! ## What is seen -/

/-- The measurement, if there is one, shows a vehicle. -/
def ShowsVehicle (seen : Option ℤ) : Prop := ∃ d ∈ seen, VehicleInRange d

/-- The most recent measurement shows a vehicle. -/
def VehicleSeen (tr : List GateLabel) : Prop := ShowsVehicle (readings tr).getLast?

def lastClock (tr : List GateLabel) : ℤ := (clocks tr).getLast?.getD 0

/-- A close is announced, or the arm makes a closing step. -/
def IsClosing : GateLabel → Prop
  | .op _ .closingStep _ => True
  | .op _ (.prInfo .entryClose) _ => True
  | .op _ (.prInfo .exitTimeoutClose) _ => True
  | .op _ (.prInfo .exitClose) _ => True
  | _ => False

/-- The timer of a waiting state is read and found expired, at clock reading `now`, although the
measurement of that turn shows a vehicle. -/
def ExpiresBlind (seen : Option ℤ) (now : ℤ) : GateLabel → Prop
  | .op _ (.load .lastVehicleDetect) since =>
    ShowsVehicle seen ∧ entryCloseDelaySec ≤ toInt32 (now - since)
  | _ => False

/-- `ExpiresBlind` for the trace so far. -/
def BlindExpiry (pre : List GateLabel) (l : GateLabel) : Prop :=
  ExpiresBlind (readings pre).getLast? (lastClock pre) l

/-! ## The view -/

/-- What the argument follows: the last measurement, the last clock reading, and whether no close
has happened in front of a vehicle. -/
structure Sight where
  seen : Option ℤ
  clock : ℤ
  safe : Prop

namespace Sight

def ofTrace (tr : List GateLabel) : Sight where
  seen := (readings tr).getLast?
  clock := lastClock tr
  safe := Always (fun pre l ↦ IsClosing l → ¬VehicleSeen pre) tr

def next (v : Sight) (l : GateLabel) : Sight where
  seen := (readingOf l).or v.seen
  clock := (clockOf l).getD v.clock
  safe := v.safe ∧ (IsClosing l → ¬ShowsVehicle v.seen)

theorem ofTrace_append (tr : List GateLabel) (l : GateLabel) :
    ofTrace (tr ++ [l]) = (ofTrace tr).next l := by
  have hseen : (readings (tr ++ [l])).getLast? = (readingOf l).or (readings tr).getLast? := by
    rw [readings_append]
    cases h : readingOf l <;> simp [readings, h]
  have hclock : lastClock (tr ++ [l]) = (clockOf l).getD (lastClock tr) := by
    rw [lastClock, clocks_append]
    cases h : clockOf l <;> simp [clocks, h, lastClock]
  rw [ofTrace, next, hseen, hclock]
  simp only [always_append_singleton]
  rfl

theorem next_of_ext (v : Sight) (e : GateEvent) : v.next (.ext e) = v := by
  simp [next, readingOf, clockOf, IsClosing]

theorem next_of_start (v : Sight) : v.next (.start () ()) = v := by
  simp [next, readingOf, clockOf, IsClosing]

def view : View gateMachine Sight where
  assume pre l := ¬BlindExpiry pre l
  proj s := ofTrace s.trace
  guard o r v := ¬ExpiresBlind v.seen v.clock (.op () o r)
  step o r v := v.next (.op () o r)
  proj_ext _ _ := (ofTrace_append _ _).trans (next_of_ext _ _)
  proj_start _ := (ofTrace_append _ _).trans (next_of_start _)
  proj_op hop _ := ⟨hop, ofTrace_append _ _⟩

/-- There has been no close in front of a vehicle. -/
def Sound (v : Sight) : Prop := v.safe

/-- Nothing is in sight. -/
def Clear (v : Sight) : Prop := ¬ShowsVehicle v.seen

def Measured (d : ℤ) (v : Sight) : Prop := v.seen = some d

def Timed (d now : ℤ) (v : Sight) : Prop := v.seen = some d ∧ v.clock = now

/-! ## Operations -/

/-- Operations after which nothing needs to be checked. -/
def Harmless (o : GateOp) : Prop := ∀ r, ¬IsClosing (.op () o r)

theorem Sound.next {v : Sight} {l : GateLabel} (hv : Sound v)
    (hl : IsClosing l → ¬ShowsVehicle v.seen) : Sound (v.next l) :=
  ⟨hv, hl⟩

/-- A harmless operation keeps whatever it cannot falsify. -/
theorem harmless {A : Sight → Prop} {o : GateOp} {B : o.Resp → Sight → Prop} (ho : Harmless o)
    (h : ∀ v r, A v → B r (v.next (.op () o r))) : view.Triple Sound A (perform o) B :=
  perform_rule fun v r hv hA _ ↦ ⟨hv.next fun hc ↦ absurd hc (ho r), h v r hA⟩

theorem harmless_top {A : Sight → Prop} {o : GateOp} (ho : Harmless o) :
    view.Triple Sound A (perform o) fun _ _ ↦ True :=
  harmless ho fun _ _ _ ↦ trivial

theorem harmless_program {A : Sight → Prop} {α : Type} {p : GateProg α} (hp : p.Uses Harmless) :
    view.Triple Sound A p fun _ _ ↦ True := by
  refine .pre (fun _ _ _ ↦ trivial) (.frame hp fun o ho v r hv _ _ ↦ ?_)
  exact ⟨hv.next fun hc ↦ absurd hc (ho r), trivial⟩

/-- Only a measurement changes what is seen. -/
theorem next_seen {v : Sight} {o : GateOp} (ho : o ≠ .ping) (r : o.Resp) :
    (v.next (.op () o r)).seen = v.seen := by
  cases o <;> first | rfl | exact absurd rfl ho

theorem Clear.next {v : Sight} {o : GateOp} (hv : Clear v) (ho : o ≠ .ping) (r : o.Resp) :
    Clear (v.next (.op () o r)) := by
  rw [Clear, next_seen ho]
  exact hv

/-- Announcing a close and making a closing step are allowed when nothing is in sight. -/
theorem closing_clear {o : GateOp} (ho : o ≠ .ping) :
    view.Triple Sound Clear (perform o) fun _ ↦ Clear :=
  perform_rule fun _ r hv hA _ ↦ ⟨hv.next fun _ ↦ hA, hA.next ho r⟩

theorem measure {A : Sight → Prop} : view.Triple Sound A ultrasonicMeasureCm Measured :=
  ultrasonicMeasureCm_rule fun _ _ hv _ _ ↦ ⟨hv.next fun hc ↦ hc.elim, rfl⟩

theorem clear_of_measured {v : Sight} {d : ℤ} (h : v.seen = some d) (hd : ¬VehicleInRange d) :
    Clear v := by
  rintro ⟨d', hd', hr⟩
  rw [h] at hd'
  obtain rfl : d = d' := Option.some.inj hd'
  exact hd hr

/-! ## Closing -/

/-- The check between two batches lets the close go on only if it has seen no vehicle. -/
theorem closeInterrupted_clear (d : ℤ) :
    view.Triple Sound (Measured d) (closeInterrupted d) fun b v ↦ if b then True else Clear v := by
  refine .ite (fun _ ↦ .ret fun _ _ _ ↦ trivial) fun hd ↦ ?_
  have hflag {o : GateOp} (ho : o.TakesFlag) :
      view.Triple Sound (Measured d) (perform o) fun _ ↦ Measured d :=
    harmless (fun r ↦ by cases o <;> first | exact id | exact ho.elim) fun v r hv ↦
      (next_seen (by rintro rfl; exact ho) r).trans hv
  refine .bind (hflag (o := .xchgSwitchPressed) trivial) fun b ↦ ?_
  cases b with
  | true => exact .ret fun _ _ _ ↦ trivial
  | false =>
    refine (hflag (o := .xchgSwitchReopen) trivial).post fun b v _ hv ↦ ?_
    cases b with
    | true => trivial
    | false => exact clear_of_measured hv hd

theorem gateCloseInterruptible_sound :
    view.Triple Sound Clear gateCloseInterruptible fun _ _ ↦ True := by
  have houtline : CloseOutline view Sound (fun _ ↦ Clear) (fun _ ↦ Clear) (fun _ ↦ Measured)
      (fun _ _ _ ↦ True) (fun _ _ _ ↦ True) (fun _ _ ↦ True) :=
    { step := fun _ _ ↦ closing_clear (by simp)
      skip := fun _ _ _ _ _ h ↦ h
      buzzer := fun _ _ ↦ closing_clear (by simp)
      measure := fun _ ↦ measure
      interrupted := fun _ d ↦ closeInterrupted_clear d
      report := fun _ _ ↦ harmless_top (o := .prInfo _) fun _ ↦ id
      silence := fun _ ↦ harmless_top (o := .gpioSet _ _) fun _ ↦ id
      undo := fun _ _ _ _ ↦ harmless_top (o := .openingStep) fun _ ↦ id
      reopened := fun _ _ ↦ harmless_top (o := .deenergize) fun _ ↦ id
      closed := harmless_top (o := .deenergize) fun _ ↦ id }
  exact houtline.close

theorem closeOr_sound {line : LogLine} {p : GateProg Unit} (hp : p.Uses Harmless) :
    view.Triple Sound Clear (closeOr line p) fun _ _ ↦ True := by
  refine .bind (closing_clear (o := .prInfo line) (by simp)) fun _ ↦ ?_
  refine .bind gateCloseInterruptible_sound fun r ↦ .ite (fun _ ↦ ?_) fun _ ↦ ?_
  · exact harmless_program hp
  · exact harmless_top (o := .writeState .idle) fun _ ↦ id

/-! ## The branches -/

theorem onSwitchPress_harmless : onSwitchPress.Uses Harmless := by
  refine ⟨fun _ ↦ id, fun s ↦ Prog.uses_ite (fun _ ↦ ?_) fun _ ↦ ⟨fun _ ↦ id, fun _ ↦ trivial⟩⟩
  refine ⟨fun _ ↦ id, fun _ ↦ ?_⟩
  refine Prog.uses_bind (p := gateOpen) (gateOpen_uses fun _ ↦ id) fun _ ↦ ?_
  exact ⟨fun _ ↦ id, fun _ ↦ ⟨fun _ ↦ id, fun _ ↦ ⟨fun _ ↦ id, fun _ ↦ trivial⟩⟩⟩

theorem moveOn_harmless {line : LogLine} (hline : Harmless (.prInfo line)) (s : SystemState)
    (now : ℤ) : (moveOn line s now).Uses Harmless :=
  ⟨hline, fun _ ↦ ⟨fun _ ↦ id, fun _ ↦ ⟨fun _ ↦ id, fun _ ↦ trivial⟩⟩⟩

theorem whenIdle_harmless (d now : ℤ) : (whenIdle d now).Uses Harmless := by
  refine Prog.uses_ite (fun _ ↦ ⟨fun _ ↦ id, fun _ ↦ ⟨fun _ ↦ id, fun _ ↦ ?_⟩⟩) fun _ ↦ trivial
  refine Prog.uses_bind (p := gateOpen) (gateOpen_uses fun _ ↦ id) fun _ ↦ ?_
  exact ⟨fun _ ↦ id, fun _ ↦ trivial⟩

theorem whenEntryDetected_harmless (d now : ℤ) : (whenEntryDetected d now).Uses Harmless := by
  refine Prog.uses_ite (fun _ ↦ ⟨fun _ ↦ id, fun _ ↦ trivial⟩) fun _ ↦ ?_
  exact Prog.uses_ite (fun _ ↦ moveOn_harmless (fun _ ↦ id) _ _) fun _ ↦ trivial

theorem whenExitVehicleDetected_harmless (d now : ℤ) :
    (whenExitVehicleDetected d now).Uses Harmless := by
  refine Prog.uses_ite (fun _ ↦ ⟨fun _ ↦ id, fun _ ↦ trivial⟩) fun _ ↦ ?_
  exact Prog.uses_ite (fun _ ↦ moveOn_harmless (fun _ ↦ id) _ _) fun _ ↦ trivial

/-- The timer test of a waiting state, with what was measured before it. -/
theorem elapsedSince_timed (d now : ℤ) :
    view.Triple Sound (Timed d now) (elapsedSince .lastVehicleDetect now) fun elapsed v ↦
      v.seen = some d ∧ ¬(VehicleInRange d ∧ entryCloseDelaySec ≤ elapsed) := by
  refine .bind (R := fun since v ↦ v.seen = some d
    ∧ ¬(VehicleInRange d ∧ entryCloseDelaySec ≤ toInt32 (now - since))) ?_
    fun since ↦ .ret fun _ _ h ↦ h
  refine perform_rule fun v since hv hA hguard ↦
    ⟨hv.next fun hc ↦ hc.elim, hA.1, fun hblind ↦ hguard ?_⟩
  refine ⟨⟨d, hA.1, hblind.1⟩, ?_⟩
  rw [hA.2]
  exact hblind.2

theorem whenWaiting_sound {closing reopened : LogLine} {back : ℤ → LogLine} {s : SystemState}
    (hreopened : Harmless (.prInfo reopened)) (hback : ∀ d, Harmless (.prInfo (back d)))
    (d now : ℤ) :
    view.Triple Sound (Timed d now) (whenWaiting closing reopened back s d now)
      fun _ _ ↦ True := by
  refine .bind (elapsedSince_timed d now) fun elapsed ↦ .ite (fun hdue ↦ ?_) fun _ ↦ ?_
  · refine .pre (A := Clear) (fun v _ hv ↦ ?_) (closeOr_sound ?_)
    · exact clear_of_measured hv.1 fun hr ↦ hv.2 ⟨hr, hdue⟩
    · exact ⟨hreopened, fun _ ↦ ⟨fun _ ↦ id, fun _ ↦ ⟨fun _ ↦ id, fun _ ↦
        ⟨fun _ ↦ id, fun _ ↦ trivial⟩⟩⟩⟩
  · exact harmless_program (Prog.uses_ite (fun _ ↦ moveOn_harmless (hback d) _ _) fun _ ↦ trivial)

/-- Here a vehicle in range never gets as far as the timer test. -/
theorem whenExitRequested_sound (d now : ℤ) :
    view.Triple Sound (Timed d now) (whenExitRequested d now) fun _ _ ↦ True := by
  refine .ite (fun _ ↦ ?_) fun hd ↦ ?_
  · exact harmless_program ⟨fun _ ↦ id, fun _ ↦ ⟨fun _ ↦ id, fun _ ↦
      ⟨fun _ ↦ id, fun _ ↦ trivial⟩⟩⟩
  refine .bind (R := fun _ ↦ Clear) ?_ fun elapsed ↦ .ite (fun _ ↦ closeOr_sound ?_) fun _ ↦ ?_
  · refine .bind (R := fun _ ↦ Clear) ?_ fun _ ↦ .ret fun _ _ h ↦ h
    exact harmless (o := .load .exitRequestTime) (fun _ ↦ id) fun v r hv ↦
      (clear_of_measured hv.1 hd).next (by simp) r
  · exact ⟨fun _ ↦ id, fun _ ↦ ⟨fun _ ↦ id, fun _ ↦ ⟨fun _ ↦ id, fun _ ↦ ⟨fun _ ↦ id, fun _ ↦
      ⟨fun _ ↦ id, fun _ ↦ trivial⟩⟩⟩⟩⟩
  · exact .ret fun _ _ _ ↦ trivial

theorem dispatch_sound (s : SystemState) (d now : ℤ) :
    view.Triple Sound (Timed d now) (dispatch s d now) fun _ _ ↦ True := by
  cases s with
  | idle => exact harmless_program (whenIdle_harmless d now)
  | entryDetected => exact harmless_program (whenEntryDetected_harmless d now)
  | entryWaiting => exact whenWaiting_sound (fun _ ↦ id) (fun _ _ ↦ id) d now
  | exitRequested => exact whenExitRequested_sound d now
  | exitVehicleDetected => exact harmless_program (whenExitVehicleDetected_harmless d now)
  | exitVehicleWaiting => exact whenWaiting_sound (fun _ ↦ id) (fun _ _ ↦ id) d now

theorem turnOutline : TurnOutline view Sound (fun _ ↦ True) (fun _ ↦ True) (fun _ ↦ True)
    (fun _ _ ↦ True) (fun _ ↦ Measured) (fun _ ↦ Timed) where
  take := (harmless_top (o := .xchgSwitchPressed) fun _ ↦ id).post fun b _ _ _ ↦ by
    cases b <;> trivial
  press := harmless_program onSwitchPress_harmless
  read := harmless_top (o := .readState) fun _ ↦ id
  measure _ := measure
  clock _ _ := harmless (o := .ktime) (fun _ ↦ id) fun _ _ hv ↦ ⟨hv, rfl⟩
  act := dispatch_sound
  signal o ho v r hv _ _ := by
    refine ⟨hv.next fun hc ↦ ?_, trivial⟩
    cases o <;> first | exact hc.elim | exact ho.elim

end Sight

/-! ## Results -/

/-- **The arm does not close onto a vehicle** in any run in which no timer of a waiting state is
found expired in a turn that has measured a vehicle: at every closing step and whenever a close is
announced, the most recent measurement shows none. -/
theorem closes_out_of_sight {c : GateConfig} (hc : GateReachable c)
    (h : Always (fun pre l ↦ ¬BlindExpiry pre l) c.trace) :
    Always (fun pre l ↦ IsClosing l → ¬VehicleSeen pre) c.trace :=
  (Sight.turnOutline.reachable (W := Sight.view) always_nil trivial hc h).1

theorem not_blindExpiry_of_not_timerTest {l : GateLabel} (h : ¬IsTimerTest l)
    (pre : List GateLabel) : ¬BlindExpiry pre l := by
  intro hblind
  unfold BlindExpiry ExpiresBlind at hblind
  split at hblind
  · exact h trivial
  · exact hblind

/-- A close that finds nothing in sight, up to its first step. -/
theorem closes_out_of_sight_entry : ∃ c, GateReachable c
    ∧ (∃ pre, c.trace = pre ++ [.op () .closingStep ()])
    ∧ Always (fun pre l ↦ IsClosing l → ¬VehicleSeen pre) c.trace := by
  obtain ⟨c, hc, htop, hpress, hstate, hsince, hlabels⟩ :=
    entryWaiting_reachable (vehicleInRange_ofCm (d := 5) (by decide))
      ultrasonicDistance_silent_neg 0 0
  obtain ⟨c', hsteps, htr⟩ := turn_entry_close (e := .silent) 10 htop hpress hstate (by
    rw [hsince]
    decide)
  have hreach : GateReachable c' := hc.trans hsteps
  refine ⟨c', hreach, ⟨_, htr⟩, closes_out_of_sight hreach ?_⟩
  have hpre : Always (fun pre l ↦ ¬BlindExpiry pre l)
      (c.trace ++ turnHead .entryWaiting .silent 10) := by
    refine always_of_mem fun l hl pre ↦ not_blindExpiry_of_not_timerTest ?_ pre
    rcases List.mem_append.mp hl with hl | hl
    · obtain hl | hl | hl := hlabels l hl
      · exact not_timerTest_entryTurn _ _ l hl
      · exact not_timerTest_goneTurn _ _ l hl
      · exact not_timerTest_of_signal hl
    · exact not_timerTest_turnHead _ _ _ l hl
  rw [htr]
  simp only [always_append_singleton]
  refine ⟨⟨⟨hpre, ?_⟩, id⟩, id⟩
  rintro ⟨⟨d, hd, hr⟩, -⟩
  obtain rfl : -1 = d := by simpa [ultrasonicDistance_silent] using hd
  exact absurd hr (by decide)

/-- A vehicle five centimetres away in the turn in which the timer expires: the arm starts to come
down. -/
theorem closes_onto_vehicle : ∃ c, GateReachable c
    ∧ (∃ pre, c.trace = pre ++ [.op () .closingStep ()] ∧ (readings pre).getLast? = some 5)
    ∧ ¬Always (fun pre l ↦ IsClosing l → ¬VehicleSeen pre) c.trace := by
  obtain ⟨c, hc, htop, hpress, hstate, hsince, -⟩ :=
    entryWaiting_reachable (vehicleInRange_ofCm (d := 5) (by decide))
      ultrasonicDistance_silent_neg 0 0
  obtain ⟨c', hsteps, htr⟩ := turn_entry_close (e := .ofCm 5) 10 htop hpress hstate (by
    rw [hsince]
    decide)
  have hseen : (readings (c.trace ++ turnHead .entryWaiting (.ofCm 5) 10
      ++ [.op () (.load .lastVehicleDetect) (c.state.var .lastVehicleDetect)]
      ++ [.op () (.prInfo .entryClose) ()])).getLast? = some 5 := by
    have hd : ultrasonicDistance (.ofCm 5) = 5 := ultrasonicDistance_ofCm (by decide) (by decide)
    rw [readings_append, readings_append, readings_append, readings_turnHead, hd]
    change (readings c.trace ++ [5] ++ [] ++ []).getLast? = some 5
    simp
  refine ⟨c', hc.trans hsteps, ⟨_, htr, hseen⟩, fun h ↦ ?_⟩
  exact h _ _ [] htr trivial ⟨5, hseen, by decide⟩

end ParkingService
