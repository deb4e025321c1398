import Mathlib.Data.List.Chain
import ParkingService.Gate.Position
import ParkingService.Gate.Presses

/-!
# The gate closes again

Once nobody is there, no button is pressed and the clock goes on, the gate is closed within a
minute. A turn of a detecting state starts the timer, a waiting state waits less than fifteen
seconds for a reading that is ten seconds late, and at most one close is broken off, by a press that
was pending: from then on both flags are down. `OnTime` is the schedule this adds up to, with `a`
the clock reading of the first turn and `t` that of the last.

Only the clock readings with which the turns enter the `switch` are scheduled. What
`on_switch_press` and a broken-off close read in between becomes the start of a timer, and counts
when the timer is tested.

There is one state that a missing echo does not move: `STATE_EXIT_VEHICLE_DETECTED` waits for a
reading beyond the sensor's range. The schedule holds for runs without a lost echo there;
`lost_echo_keeps_open` shows what happens with one.
-/

namespace ParkingService

open Concurrency

/-! ## The clock readings of the turns -/

/-- How far a turn has got on its way to the `switch`. -/
inductive Stage
  | outside
  /-- it has read the state -/
  | read (s : SystemState)
  /-- it has measured, too -/
  | measured
  deriving DecidableEq

def Stage.next : Stage → GateLabel → Stage
  | _, .op _ .readState s => .read s
  | .read _, .op _ .ping _ => .measured
  | _, .op _ .ktime _ => .outside
  | stage, _ => stage

/-- Where the thread is after these labels. -/
def turnStage (tr : List GateLabel) : Stage := tr.foldl Stage.next .outside

/-- The clock reading with which a turn enters the `switch`. -/
def turnClockOf (stage : Stage) (l : GateLabel) : Option ℤ :=
  if stage = .measured then clockOf l else none

theorem turnClockOf_of_none {l : GateLabel} (h : clockOf l = none) (stage : Stage) :
    turnClockOf stage l = none := by
  rw [turnClockOf, h, ite_self]

def turnClocksFrom : Stage → List GateLabel → List ℤ
  | _, [] => []
  | stage, l :: tr => (turnClockOf stage l).toList ++ turnClocksFrom (stage.next l) tr

/-- The clock readings of the turns, in order. -/
def turnClocks (tr : List GateLabel) : List ℤ := turnClocksFrom .outside tr

theorem turnClocksFrom_append (stage : Stage) (tr tr' : List GateLabel) :
    turnClocksFrom stage (tr ++ tr')
      = turnClocksFrom stage tr ++ turnClocksFrom (tr.foldl Stage.next stage) tr' := by
  induction tr generalizing stage with
  | nil => rfl
  | cons l tr ih => simp [turnClocksFrom, ih]

theorem turnClocks_append_cons (pre : List GateLabel) (l : GateLabel) (post : List GateLabel) :
    turnClocks (pre ++ l :: post) = turnClocks pre ++ ((turnClockOf (turnStage pre) l).toList
      ++ turnClocksFrom ((turnStage pre).next l) post) :=
  turnClocksFrom_append _ _ _

theorem turnStage_append_singleton (tr : List GateLabel) (l : GateLabel) :
    turnStage (tr ++ [l]) = (turnStage tr).next l := by
  simp [turnStage]

theorem turnClocks_append_singleton (tr : List GateLabel) (l : GateLabel) :
    turnClocks (tr ++ [l]) = turnClocks tr ++ (turnClockOf (turnStage tr) l).toList := by
  rw [turnClocks_append_cons, turnClocksFrom, List.append_nil]

theorem turnClocksFrom_sublist (stage : Stage) (tr : List GateLabel) :
    (turnClocksFrom stage tr).Sublist (clocks tr) := by
  induction tr generalizing stage with
  | nil => exact .slnil
  | cons l tr ih =>
    have hcons : clocks (l :: tr) = (clockOf l).toList ++ clocks tr := by
      cases h : clockOf l <;> simp [clocks, h]
    rw [hcons, turnClocksFrom, turnClockOf]
    split
    · exact (ih _).append_left _
    · exact (ih _).trans (List.sublist_append_right _ _)

/-! ## Nobody there -/

/-- A continuation in which nobody is there: every reading shows no vehicle, no press is accepted,
and from turn to turn the clock goes forward, by at most five seconds, and by at least a minute in
all. -/
structure Deserted (tr : List GateLabel) : Prop where
  absent : ∀ d ∈ readings tr, d = -1 ∨ vehicleDetectCm < d
  noPress : .ext .press ∉ tr
  paced : (turnClocks tr).IsChain fun t t' ↦ t ≤ t' ∧ t' ≤ t + 5
  minute : ∃ a ∈ (turnClocks tr).head?, ∃ b ∈ (turnClocks tr).getLast?, a + 60 ≤ b

/-- The turn's own echo is lost in `STATE_EXIT_VEHICLE_DETECTED`. -/
def LosesEcho (stage : Stage) : GateLabel → Prop
  | .op _ .ping e => stage = .read .exitVehicleDetected ∧ ultrasonicDistance e = -1
  | _ => False

/-- A timer is tested that is ahead of the turn's clock reading, or so far behind it that `int` does
not hold the difference. -/
def TimerAstray (clock : Option ℤ) : GateLabel → Prop
  | .op _ (.load .lastVehicleDetect) since => ∃ t ∈ clock, ¬(since ≤ t ∧ t - since < 2 ^ 31)
  | .op _ (.load .exitRequestTime) since => ∃ t ∈ clock, ¬(since ≤ t ∧ t - since < 2 ^ 31)
  | _ => False

/-- What a label has to be when nobody is there, no echo is lost and no timer astray. -/
structure CalmAt (stage : Stage) (clock : Option ℤ) (l : GateLabel) : Prop where
  noPress : l ≠ .ext .press
  absent : ∀ d ∈ readingOf l, d = -1 ∨ vehicleDetectCm < d
  paced : ∀ now ∈ turnClockOf stage l, ∀ t ∈ clock, t ≤ now ∧ now ≤ t + 5
  echo : ¬LosesEcho stage l
  timer : ¬TimerAstray clock l

def Calm (pre : List GateLabel) (l : GateLabel) : Prop :=
  CalmAt (turnStage pre) (turnClocks pre).getLast? l

theorem Deserted.calm {tr : List GateLabel} (h : Deserted tr)
    (hecho : Always (fun pre l ↦ ¬LosesEcho (turnStage pre) l) tr)
    (htimer : Always (fun pre l ↦ ¬TimerAstray (turnClocks pre).getLast? l) tr) :
    Always Calm tr := by
  rintro pre l post rfl
  refine ⟨fun hl ↦ h.noPress (by simp [hl]), fun d hd ↦ h.absent d ?_, fun now hnow t ht ↦ ?_,
    hecho pre l post rfl, htimer pre l post rfl⟩
  · exact List.mem_filterMap.mpr ⟨l, by simp, hd⟩
  · have hchain := h.paced
    rw [turnClocks_append_cons, Option.mem_def.mp hnow] at hchain
    exact (List.isChain_append.mp hchain).2.2 t ht now rfl

/-! ## The view -/

/-- What the schedule follows: state, flags and timers, where the turn is, and the clock readings of
the first and of the last turn. -/
structure Vigil where
  state : SystemState
  pressed : Bool
  reopen : Bool
  lastVehicleDetect : ℤ
  exitRequestTime : ℤ
  stage : Stage
  first : Option ℤ
  clock : Option ℤ

namespace Vigil

def ofSnap (s : GateSnap) : Vigil where
  state := s.state.currentState
  pressed := s.state.switchPressed
  reopen := s.state.switchReopen
  lastVehicleDetect := s.state.var .lastVehicleDetect
  exitRequestTime := s.state.var .exitRequestTime
  stage := turnStage s.trace
  first := (turnClocks s.trace).head?
  clock := (turnClocks s.trace).getLast?

/-- What an operation does to the module's own data. -/
def act (o : GateOp) (v : Vigil) : Vigil :=
  match o with
  | .writeState s => { v with state := s }
  | .xchgSwitchPressed => { v with pressed := false }
  | .setSwitchReopen => { v with reopen := true }
  | .xchgSwitchReopen => { v with reopen := false }
  | .store .lastVehicleDetect x => { v with lastVehicleDetect := x }
  | .store .exitRequestTime x => { v with exitRequestTime := x }
  | _ => v

def step (o : GateOp) (r : o.Resp) (v : Vigil) : Vigil :=
  { act o v with
    stage := v.stage.next (.op () o r)
    first := v.first.or (turnClockOf v.stage (.op () o r))
    clock := (turnClockOf v.stage (.op () o r)).or v.clock }

/-- What an answer says about the module's own data. -/
def Told (o : GateOp) (r : o.Resp) (v : Vigil) : Prop :=
  match o, r with
  | .xchgSwitchPressed, r => r = v.pressed
  | .xchgSwitchReopen, r => r = v.reopen
  | .readState, r => r = v.state
  | .load .lastVehicleDetect, r => r = v.lastVehicleDetect
  | .load .exitRequestTime, r => r = v.exitRequestTime
  | _, _ => True

/-- A label that neither reads the state nor measures nor reads the clock does not show. -/
theorem ofSnap_log {s : GateSnap} {x : GateState} {l : GateLabel}
    (hstage : (turnStage s.trace).next l = turnStage s.trace) (hclock : clockOf l = none)
    (hstate : x = s.state) : ofSnap (s.log x l) = ofSnap s := by
  have hnone := turnClockOf_of_none hclock (turnStage s.trace)
  simp [ofSnap, turnStage_append_singleton, turnClocks_append_singleton, hstage, hnone, hstate]

theorem ofSnap_log_op (s : GateSnap) (o : GateOp) (r : o.Resp) :
    ofSnap (s.log (o.effect s.state) (.op () o r)) = (ofSnap s).step o r := by
  have hfirst : (turnClocks s.trace ++ (turnClockOf (turnStage s.trace) (.op () o r)).toList).head?
      = (turnClocks s.trace).head?.or (turnClockOf (turnStage s.trace) (.op () o r)) := by
    cases turnClockOf (turnStage s.trace) (.op () o r) <;> simp
  have hclock :
      (turnClocks s.trace ++ (turnClockOf (turnStage s.trace) (.op () o r)).toList).getLast?
      = (turnClockOf (turnStage s.trace) (.op () o r)).or (turnClocks s.trace).getLast? := by
    cases turnClockOf (turnStage s.trace) (.op () o r) <;> simp
  unfold ofSnap step act
  rw [Snap.log_trace, turnStage_append_singleton, turnClocks_append_singleton, hfirst, hclock]
  cases o with
  | store v x => cases v <;> simp [GateOp.effect]
  | _ => simp [GateOp.effect, GateState.openingStep, GateState.closingStep]

theorem told_of_answers {o : GateOp} {r : o.Resp} {s : GateSnap} (h : o.Answers r s.state) :
    Told o r (ofSnap s) := by
  cases o with
  | load v => cases v <;> first | exact h | exact trivial
  | _ => exact h

def view : View gateMachine Vigil where
  assume := Calm
  proj := ofSnap
  guard o r v := Told o r v ∧ CalmAt v.stage v.clock (.op () o r)
  step := step
  proj_ext {s e x} hcalm h := by
    obtain ⟨rfl, rfl⟩ | ⟨rfl, rfl⟩ := GateEvent.exec_cases h
    · exact absurd rfl hcalm.noPress
    · exact ofSnap_log (by cases turnStage s.trace <;> rfl) rfl rfl
  proj_start {s j p x} h := by
    obtain ⟨-, rfl⟩ : _ ∧ s.state = x := by simpa [gateMachine] using h
    exact ofSnap_log (by cases turnStage s.trace <;> rfl) rfl rfl
  proj_op {s o r x} hcalm h := by
    obtain ⟨hans, rfl⟩ := GateOp.exec_eq_some.mp h
    exact ⟨⟨told_of_answers hans, hcalm⟩, ofSnap_log_op s o r⟩

/-- Nothing needs to hold at every single step here. -/
def Any (_ : Vigil) : Prop := True

theorem op_rule {A : Vigil → Prop} {o : GateOp} {B : o.Resp → Vigil → Prop}
    (h : ∀ v r, A v → Told o r v → CalmAt v.stage v.clock (.op () o r) → B r (step o r v)) :
    view.Triple Any A (perform o) B :=
  perform_rule fun v r _ hA hguard ↦ ⟨trivial, h v r hA hguard.1 hguard.2⟩

/-- Outside of a turn's way to the `switch` the clock readings do not show. -/
theorem step_eq_act {o : GateOp} {r : o.Resp} {v : Vigil}
    (h : turnClockOf v.stage (.op () o r) = none) :
    step o r v = { act o v with stage := v.stage.next (.op () o r) } := by
  rw [step, h, Option.or_none, Option.none_or]
  cases o with
  | store w x => cases w <;> rfl
  | _ => rfl

theorem step_ktime {v : Vigil} (h : v.stage ≠ .measured) (now : ℤ) :
    step .ktime now v = { v with stage := .outside } := by
  have hnext : v.stage.next (.op () .ktime now) = .outside := by cases v.stage <;> rfl
  rw [step_eq_act (if_neg h), hnext]
  rfl

theorem step_readState (s : SystemState) (v : Vigil) :
    step .readState s v = { v with stage := .read s } := by
  have hnext : v.stage.next (.op () .readState s) = .read s := by cases v.stage <;> rfl
  rw [step_eq_act (turnClockOf_of_none rfl _), hnext]
  rfl

/-- Operations that do not move a turn on its way to the `switch`. -/
def Plain : GateOp → Prop
  | .readState | .ping | .ktime => False
  | _ => True

theorem step_of_plain {o : GateOp} (ho : Plain o) (r : o.Resp) (v : Vigil) :
    step o r v = act o v := by
  have hclock : turnClockOf v.stage (.op () o r) = none := by
    cases o with
    | ktime => exact ho.elim
    | _ => exact turnClockOf_of_none rfl _
  have hstage : v.stage.next (.op () o r) = v.stage := by
    cases o with
    | readState | ktime | ping => exact ho.elim
    | _ => cases v.stage <;> rfl
  rw [step_eq_act hclock, hstage]
  cases o with
  | store w x => cases w <;> rfl
  | _ => rfl

theorem plain_rule {A : Vigil → Prop} {o : GateOp} {B : o.Resp → Vigil → Prop} (ho : Plain o)
    (h : ∀ v r, A v → Told o r v → CalmAt v.stage v.clock (.op () o r) → B r (act o v)) :
    view.Triple Any A (perform o) B :=
  op_rule fun v r hA htold hcalm ↦ by
    rw [step_of_plain ho r v]
    exact h v r hA htold hcalm

/-- Operations that leave the view alone. -/
def Quiet : GateOp → Prop
  | .xchgSwitchPressed | .setSwitchReopen | .xchgSwitchReopen | .writeState _ | .readState => False
  | .ping | .ktime | .store .lastVehicleDetect _ | .store .exitRequestTime _ => False
  | _ => True

theorem step_of_quiet {o : GateOp} (ho : Quiet o) (r : o.Resp) (v : Vigil) : step o r v = v := by
  have hplain : Plain o := by
    cases o with
    | readState | ktime | ping => exact ho.elim
    | _ => trivial
  rw [step_of_plain hplain]
  cases o with
  | store v x =>
    cases v with
    | buzzerPhase => rfl
    | _ => exact ho.elim
  | _ => first | exact ho.elim | rfl

theorem quiet_program {A : Vigil → Prop} {α : Type} {p : GateProg α} (hp : p.Uses Quiet) :
    view.Triple Any A p fun _ ↦ A :=
  .still (fun _ ↦ step_of_quiet) hp

theorem quiet {A : Vigil → Prop} {o : GateOp} (ho : Quiet o) :
    view.Triple Any A (perform o) fun _ ↦ A :=
  quiet_program ⟨ho, fun _ ↦ trivial⟩

/-! ## The schedule -/

/-- The timer that a waiting state tests. -/
def timerOf (s : SystemState) : GateVar :=
  if s = .exitRequested then .exitRequestTime else .lastVehicleDetect

/-- When it was started. -/
def since (s : SystemState) (v : Vigil) : ℤ :=
  if s = .exitRequested then v.exitRequestTime else v.lastVehicleDetect

/-- On schedule at a loop top in state `s`, with `a` the clock reading of the first turn and `t`
that of the last. A waiting state has just been entered because a close was broken off, or its timer
runs. -/
def OnTime (a t : ℤ) (reopen : Bool) (since : ℤ) : SystemState → Prop
  | .idle => reopen = false
  | .entryDetected | .exitVehicleDetected => reopen = false ∧ t < a + 15
  | .entryWaiting | .exitRequested | .exitVehicleWaiting =>
    (reopen = false ∧ t < a + 15)
      ∨ (since ≤ t ∧ t < since + 10 ∧ (reopen = true → since ≤ a) ∧ since < a + 20)

/-- On schedule in the middle of a turn with clock reading `now`. A timer ahead of that is excluded
by the assumption once it is tested. -/
def Due (a now : ℤ) (reopen : Bool) (since : ℤ) : SystemState → Prop
  | .idle => reopen = false
  | .entryDetected | .exitVehicleDetected => (reopen = true → now ≤ a) ∧ now < a + 20
  | .entryWaiting | .exitRequested | .exitVehicleWaiting =>
    since ≤ now → (reopen = true → since ≤ a ∧ now < a + 15) ∧ since < a + 20

/-- A state that waits for its timer. -/
def Waits : SystemState → Prop
  | .entryWaiting | .exitRequested | .exitVehicleWaiting => True
  | _ => False

/-- A state that waits for the vehicle to go. -/
def Detects : SystemState → Prop
  | .entryDetected | .exitVehicleDetected => True
  | _ => False

section Schedule

variable {a t now x : ℤ} {reopen : Bool} {s : SystemState}

/-- The first turn is on schedule. -/
theorem due_first (h : s = .idle → reopen = false) : Due a a reopen x s := by
  cases s with
  | idle => exact h rfl
  | entryDetected | exitVehicleDetected => exact ⟨fun _ ↦ le_rfl, by omega⟩
  | _ => exact fun hx ↦ ⟨fun _ ↦ ⟨hx, by omega⟩, by omega⟩

/-- Every further turn is, if the one before was. -/
theorem OnTime.due (h : OnTime a t reopen x s) (hfive : now ≤ t + 5) : Due a now reopen x s := by
  cases s with
  | idle => exact h
  | entryDetected | exitVehicleDetected =>
    obtain ⟨hreopen, ht⟩ := h
    exact ⟨fun hr ↦ by simp [hreopen] at hr, by omega⟩
  | _ =>
    intro hx
    rcases h with ⟨hreopen, ht⟩ | ⟨-, ht, hxa, hlt⟩
    · exact ⟨fun hr ↦ by simp [hreopen] at hr, by omega⟩
    · refine ⟨fun hr ↦ ⟨hxa hr, ?_⟩, hlt⟩
      have hle := hxa hr
      omega

/-- Wherever a close that was broken off early leads. -/
theorem onTime_of_early (ht : t < a + 15) : OnTime a t false x s := by
  cases s with
  | idle => rfl
  | entryDetected | exitVehicleDetected => exact ⟨rfl, ht⟩
  | _ => exact .inl ⟨rfl, ht⟩

/-- A timer that is started on schedule is on schedule. -/
theorem onTime_of_start (hs : Waits s) (hreopen : reopen = true → now ≤ a) (hnow : now < a + 20) :
    OnTime a now reopen now s := by
  cases s with
  | entryWaiting | exitRequested | exitVehicleWaiting =>
    exact .inr ⟨le_rfl, by omega, hreopen, hnow⟩
  | _ => exact hs.elim

/-- So is one that goes on running. -/
theorem Due.onTime (h : Due a now reopen x s) (hs : Waits s) (hx : x ≤ now)
    (hlt : now - x < 10) : OnTime a now reopen x s := by
  cases s with
  | entryWaiting | exitRequested | exitVehicleWaiting =>
    obtain ⟨hreopen, hxa⟩ := h hx
    exact .inr ⟨hx, by omega, fun hr ↦ (hreopen hr).1, hxa⟩
  | _ => exact hs.elim

theorem Due.of_detects (h : Due a now reopen x s) (hs : Detects s) :
    (reopen = true → now ≤ a) ∧ now < a + 20 := by
  cases s with
  | entryDetected | exitVehicleDetected => exact h
  | _ => exact hs.elim

/-- A close can only be broken off early on. -/
theorem Due.early (h : Due a now reopen x s) (hs : Waits s) (hx : x ≤ now) (hr : reopen = true) :
    now < a + 15 := by
  cases s with
  | entryWaiting | exitRequested | exitVehicleWaiting => exact ((h hx).1 hr).2
  | _ => exact hs.elim

/-- A minute after the first turn only `STATE_IDLE` is on schedule. -/
theorem OnTime.idle (h : OnTime a t reopen x s) (ht : a + 60 ≤ t) : s = .idle := by
  cases s with
  | idle => rfl
  | entryDetected | exitVehicleDetected =>
    have hlt := h.2
    omega
  | _ =>
    rcases h with ⟨-, hlt⟩ | ⟨-, hlt, -, hxa⟩
    · omega
    · omega

end Schedule

/-! ## Assertions -/

/-- No turn has read the clock yet. -/
structure Fresh (v : Vigil) : Prop where
  first : v.first = none
  clock : v.clock = none
  idle : v.state = .idle → v.reopen = false

/-- Turns have read the clock, first at `a` and last at `t`, and no press is pending. -/
structure Clocked (a t : ℤ) (v : Vigil) : Prop where
  pressed : v.pressed = false
  first : v.first = some a
  clock : v.clock = some t

/-- What holds at the top of the loop after a turn. -/
structure Going (a t : ℤ) (v : Vigil) : Prop extends Clocked a t v where
  onTime : OnTime a t v.reopen (v.since v.state) v.state

/-- What holds at the top of the loop. -/
def AtTop (v : Vigil) : Prop := v.Fresh ∨ ∃ a t, v.Going a t

/-- What holds when the button has been polled. -/
def Polled (v : Vigil) : Prop := v.pressed = false ∧ v.AtTop

/-- What holds when a turn has read the state as `s`. -/
structure Read (s : SystemState) (v : Vigil) : Prop where
  polled : v.Polled
  state : v.state = s
  stage : v.stage = .read s

/-- What holds when a turn in state `s` has measured `d`. -/
structure Measured (s : SystemState) (d : ℤ) (v : Vigil) : Prop where
  polled : v.Polled
  state : v.state = s
  stage : v.stage = .measured
  absent : d = -1 ∨ vehicleDetectCm < d
  gone : s = .exitVehicleDetected → vehicleDetectCm < d

/-- What holds when a turn in state `s` enters the `switch` at `now`. -/
structure Timed (s : SystemState) (a now : ℤ) (v : Vigil) : Prop extends Clocked a now v where
  state : v.state = s
  stage : v.stage = .outside
  due : Due a now v.reopen (v.since s) s

/-- A close that started at `now` is under way; `looked` is whether a check has found
`switch_reopen` empty. -/
structure Closing (a now : ℤ) (looked : Prop) (v : Vigil) : Prop extends Clocked a now v where
  stage : v.stage = .outside
  early : v.reopen = true → now < a + 15
  empty : looked → v.reopen = false

/-- A close that started at `now` has been broken off. -/
structure Broken (a now : ℤ) (v : Vigil) : Prop extends Clocked a now v where
  stage : v.stage = .outside
  early : now < a + 15
  empty : v.reopen = false

/-- The top of the loop does not look at where the turn is, nor at a timer that the state does not
test. -/
theorem AtTop.congr {v v' : Vigil} (h : v.AtTop) (hstate : v'.state = v.state)
    (hpressed : v'.pressed = v.pressed) (hreopen : v'.reopen = v.reopen)
    (hfirst : v'.first = v.first) (hclock : v'.clock = v.clock)
    (hsince : v'.since v.state = v.since v.state) : v'.AtTop := by
  rcases h with h | ⟨a, t, h⟩
  · exact .inl ⟨hfirst.trans h.first, hclock.trans h.clock, by rw [hstate, hreopen]; exact h.idle⟩
  · refine .inr ⟨a, t, ⟨hpressed.trans h.pressed, hfirst.trans h.first, hclock.trans h.clock⟩, ?_⟩
    rw [hstate, hreopen, hsince]
    exact h.onTime

theorem Broken.atTop {a now : ℤ} {v : Vigil} (h : v.Broken a now) : v.AtTop := by
  refine .inr ⟨a, now, h.toClocked, ?_⟩
  rw [h.empty]
  exact onTime_of_early h.early

/-! ## Up to the `switch` -/

theorem switchWasPressed_rule : view.Triple Any AtTop switchWasPressed fun b v ↦
    if b then v.Fresh ∧ v.pressed = false else v.Polled := by
  refine plain_rule (o := .xchgSwitchPressed) trivial fun v b h hb _ ↦ ?_
  obtain rfl : b = v.pressed := hb
  cases hpressed : v.pressed with
  | true =>
    rcases h with h | ⟨a, t, h⟩
    · exact ⟨⟨h.first, h.clock, h.idle⟩, rfl⟩
    · simp [h.pressed] at hpressed
  | false => exact ⟨rfl, h.congr rfl hpressed.symm rfl rfl rfl rfl⟩

/-- `gate_get_state` changes nothing but where the turn is. -/
theorem gateGetState_rule {A : Vigil → Prop} {B : SystemState → Vigil → Prop}
    (h : ∀ v, A v → B v.state { v with stage := .read v.state }) :
    view.Triple Any A gateGetState B :=
  op_rule fun v r hA hr _ ↦ by
    obtain rfl : r = v.state := hr
    rw [step_readState]
    exact h v hA

/-- A pending press is dealt with before the first turn enters the `switch`. -/
theorem onSwitchPress_rule :
    view.Triple Any (fun v ↦ v.Fresh ∧ v.pressed = false) onSwitchPress fun _ ↦ Polled := by
  refine .bind (R := fun s v ↦ (v.Fresh ∧ v.pressed = false) ∧ v.state = s ∧ v.stage = .read s)
    (gateGetState_rule fun v h ↦ ⟨⟨⟨h.1.first, h.1.clock, h.1.idle⟩, h.2⟩, rfl, rfl⟩) fun s ↦
    .ite (fun hs ↦ ?_) fun hs ↦ ?_
  · refine .bind (quiet (o := .prInfo .exitOpen) trivial) fun _ ↦ ?_
    refine .bind (quiet_program (gateOpen_uses trivial)) fun _ ↦ ?_
    refine .bind (R := fun _ v ↦ (v.first = none ∧ v.clock = none ∧ v.reopen = false)
      ∧ v.pressed = false) (op_rule fun v now h _ _ ↦ ?_) fun now ↦ ?_
    · obtain ⟨⟨hfresh, hpressed⟩, hstate, hstage⟩ := h
      have hread : v.stage ≠ .measured := by simp [hstage]
      rw [step_ktime hread]
      exact ⟨⟨hfresh.first, hfresh.clock, hfresh.idle (hstate.trans hs)⟩, hpressed⟩
    refine .bind (R := fun _ v ↦ (v.first = none ∧ v.clock = none ∧ v.reopen = false)
      ∧ v.pressed = false) (plain_rule trivial fun v _ h _ _ ↦ h) fun _ ↦ ?_
    refine plain_rule trivial fun v _ h _ _ ↦ ?_
    obtain ⟨⟨hfirst, hclock, hreopen⟩, hpressed⟩ := h
    exact ⟨hpressed, .inl ⟨hfirst, hclock, fun _ ↦ hreopen⟩⟩
  · refine plain_rule (o := .setSwitchReopen) trivial fun v _ h _ _ ↦ ?_
    obtain ⟨⟨hfresh, hpressed⟩, hstate, -⟩ := h
    exact ⟨hpressed, .inl ⟨hfresh.first, hfresh.clock, fun h ↦ absurd (hstate.symm.trans h) hs⟩⟩

theorem measure_rule (s : SystemState) :
    view.Triple Any (Read s) ultrasonicMeasureCm (Measured s) := by
  refine ultrasonicMeasureCm_rule fun v e _ h hguard ↦ ⟨trivial, ?_⟩
  obtain ⟨-, hcalm⟩ := hguard
  have habsent : ultrasonicDistance e = -1 ∨ vehicleDetectCm < ultrasonicDistance e :=
    hcalm.absent _ rfl
  have hnext : v.stage.next (.op () .ping e) = .measured := by
    rw [h.stage]
    rfl
  have hstep : view.step .ping e v = { v with stage := .measured } := by
    rw [← hnext]
    exact step_eq_act (turnClockOf_of_none rfl _)
  rw [hstep]
  refine ⟨⟨h.polled.1, h.polled.2.congr rfl rfl rfl rfl rfl rfl⟩, h.state, rfl, habsent, ?_⟩
  rintro rfl
  exact habsent.resolve_left fun hlost ↦ hcalm.echo ⟨h.stage, hlost⟩

theorem clock_rule (s : SystemState) (d : ℤ) :
    view.Triple Any (Measured s d) ktimeGetSeconds fun now v ↦
      (d = -1 ∨ vehicleDetectCm < d) ∧ (s = .exitVehicleDetected → vehicleDetectCm < d)
        ∧ ∃ a, v.Timed s a now := by
  refine op_rule fun v now h _ hcalm ↦ ⟨h.absent, h.gone, ?_⟩
  have hnow : turnClockOf v.stage (.op () .ktime now) = some now := if_pos h.stage
  have hnext : v.stage.next (.op () .ktime now) = .outside := by rw [h.stage]; rfl
  have hpaced := hcalm.paced now hnow
  rw [step, hnow, hnext, Option.some_or]
  obtain ⟨hpressed, hfresh | ⟨a, t, hgoing⟩⟩ := h.polled
  · rw [hfresh.first, Option.none_or]
    refine ⟨now, ⟨hpressed, rfl, rfl⟩, h.state, rfl, due_first fun hs ↦ ?_⟩
    exact hfresh.idle (h.state.trans hs)
  · obtain ⟨-, hfive⟩ := hpaced t hgoing.clock
    have hdue := hgoing.onTime.due hfive
    rw [h.state] at hdue
    rw [hgoing.first, Option.some_or]
    exact ⟨a, ⟨hpressed, rfl, rfl⟩, h.state, rfl, hdue⟩

/-! ## Closing -/

theorem toInt32_of_nonneg {x : ℤ} (h : 0 ≤ x) (hlt : x < 2 ^ 31) : toInt32 x = x :=
  Int.bmod_eq_of_le (by omega) (by omega)

variable {s s' : SystemState} {a now : ℤ}

private theorem elapsedSince_timer {w : GateVar} (hplain : Plain (.load w))
    (hact : ∀ v, act (.load w) v = v) (htold : ∀ v x, Told (.load w) x v → x = v.since s)
    (hnear : ∀ x : ℤ, ¬TimerAstray (some now) (.op () (.load w) x) → x ≤ now ∧ now - x < 2 ^ 31) :
    view.Triple Any (Timed s a now) (elapsedSince w now) fun elapsed v ↦
      v.Timed s a now ∧ v.since s ≤ now ∧ elapsed = now - v.since s := by
  refine .bind (R := fun x v ↦ v.Timed s a now ∧ v.since s ≤ now
    ∧ toInt32 (now - x) = now - v.since s) (plain_rule hplain fun v x h hx hcalm ↦ ?_) fun x ↦
    .ret fun _ _ h ↦ h
  have htimer := hcalm.timer
  rw [h.clock] at htimer
  obtain ⟨hle, hlt⟩ := hnear x htimer
  rw [hact, ← htold v x hx]
  exact ⟨h, hle, toInt32_of_nonneg (by omega) hlt⟩

/-- The timer test of a waiting state. -/
theorem elapsedSince_rule :
    view.Triple Any (Timed s a now) (elapsedSince (timerOf s) now) fun elapsed v ↦
      v.Timed s a now ∧ v.since s ≤ now ∧ elapsed = now - v.since s := by
  have hnear {x : ℤ} (h : ¬∃ t ∈ some now, ¬(x ≤ t ∧ t - x < 2 ^ 31)) :
      x ≤ now ∧ now - x < 2 ^ 31 :=
    not_not.mp fun hn ↦ h ⟨now, rfl, hn⟩
  by_cases hs : s = .exitRequested
  · rw [show timerOf s = .exitRequestTime from if_pos hs]
    exact elapsedSince_timer trivial (fun _ ↦ rfl) (fun v x h ↦ h.trans (if_pos hs).symm)
      fun _ ↦ hnear
  · rw [show timerOf s = .lastVehicleDetect from if_neg hs]
    exact elapsedSince_timer trivial (fun _ ↦ rfl) (fun v x h ↦ h.trans (if_neg hs).symm)
      fun _ ↦ hnear

theorem not_inRange {d : ℤ} (hd : d = -1 ∨ vehicleDetectCm < d) : ¬VehicleInRange d := by
  rintro ⟨hpos, hle⟩
  rcases hd with rfl | hd
  · exact absurd hpos (by decide)
  · omega

/-- With nobody there, only a press put down before can break a close off. -/
theorem closeInterrupted_rule {looked : Prop} {d : ℤ} (hd : d = -1 ∨ vehicleDetectCm < d) :
    view.Triple Any (Closing a now looked) (closeInterrupted d) fun b v ↦
      if b then v.Broken a now else v.Closing a now True := by
  refine .ite (fun hin ↦ absurd hin (not_inRange hd)) fun _ ↦ ?_
  refine .bind (R := fun b v ↦ b = false ∧ v.Closing a now looked) ?_ fun b ↦ ?_
  · refine plain_rule (o := .xchgSwitchPressed) trivial fun v b h hb _ ↦ ?_
    exact ⟨Eq.trans hb h.pressed, ⟨rfl, h.first, h.clock⟩, h.stage, h.early, h.empty⟩
  refine .ite (fun hb ↦ .ret fun v _ h ↦ by simp [h.1] at hb) fun _ ↦ ?_
  refine plain_rule (o := .xchgSwitchReopen) trivial fun v b h hb _ ↦ ?_
  obtain rfl : b = v.reopen := hb
  obtain ⟨-, h⟩ := h
  cases hreopen : v.reopen with
  | true => exact ⟨⟨h.pressed, h.first, h.clock⟩, h.stage, h.early hreopen, rfl⟩
  | false =>
    exact ⟨⟨h.pressed, h.first, h.clock⟩, h.stage, fun hr ↦ Bool.noConfusion hr, fun _ ↦ rfl⟩

theorem gateCloseInterruptible_rule :
    view.Triple Any (Closing a now False) gateCloseInterruptible fun r v ↦
      if r < 0 then v.Broken a now else v.Closing a now True := by
  have hmono {P Q : Prop} (hPQ : Q → P) {v : Vigil} (h : v.Closing a now P) : v.Closing a now Q :=
    ⟨h.toClocked, h.stage, h.early, fun hQ ↦ h.empty (hPQ hQ)⟩
  have houtline : CloseOutline view Any (fun k ↦ Closing a now (closeBatch ≤ k))
      (fun k ↦ Closing a now (closeBatch < k))
      (fun k d v ↦ (d = -1 ∨ vehicleDetectCm < d) ∧ v.Closing a now (closeBatch < k))
      (fun _ _ ↦ Broken a now) (fun _ _ ↦ Broken a now)
      (fun r v ↦ if r < 0 then v.Broken a now else v.Closing a now True) :=
    { step := fun k _ ↦ (quiet (o := .closingStep) trivial).post fun _ v _ h ↦
        hmono (fun hk ↦ by omega) h
      skip := fun k _ hdue v _ h ↦ by
        refine hmono (fun hk ↦ ?_) h
        rcases Nat.eq_or_lt_of_le hk with rfl | hlt
        · exact absurd ⟨rfl, by decide⟩ hdue
        · exact hlt
      buzzer := fun _ x ↦ quiet (o := .gpioSet .buzzer x) trivial
      -- a measurement inside a close is none of a turn, so it moves no clock
      measure := fun _ ↦ ultrasonicMeasureCm_rule fun v e _ h hguard ↦ by
        have hstep : view.step .ping e v = { v with stage := v.stage.next (.op () .ping e) } :=
          step_eq_act (turnClockOf_of_none rfl _)
        have hnext : v.stage.next (.op () .ping e) = .outside := by rw [h.stage]; rfl
        rw [hstep, hnext]
        exact ⟨trivial, hguard.2.absent _ rfl, ⟨h.pressed, h.first, h.clock⟩, rfl, h.early, h.empty⟩
      interrupted := fun k d ↦ .of_pure (fun _ h ↦ h.1) fun hd ↦
        ((closeInterrupted_rule hd).pre fun _ _ h ↦ h.2).post fun b v _ h ↦ by
          cases b with
          | true => exact h
          | false => exact hmono (fun _ ↦ trivial) h
      report := fun k d ↦ quiet (o := .prInfo (.closeAborted d k)) trivial
      silence := fun _ ↦ quiet (o := .gpioSet .buzzer 1) trivial
      undo := fun _ _ _ _ ↦ quiet (o := .openingStep) trivial
      reopened := fun _ _ ↦ quiet (o := .deenergize) trivial
      closed := (quiet (o := .deenergize) trivial).post fun _ v _ h ↦
        hmono (fun _ ↦ by decide) h }
  exact .pre (fun v _ h ↦ hmono (fun hk ↦ absurd hk (by decide)) h) houtline.close

/-- After a close that was broken off the clock is read and timers are started, which the schedule
does not look at before the next turn tests them. -/
theorem reopened_clock {A : Vigil → Prop} {p : ℤ → GateProg Unit}
    (h : ∀ now', view.Triple Any (Broken a now) (p now') fun _ ↦ A) :
    view.Triple Any (Broken a now) (ktimeGetSeconds >>= p) fun _ ↦ A := by
  refine .bind (op_rule fun v now' hb _ _ ↦ ?_) h
  have houtside : v.stage ≠ .measured := by simp [hb.stage]
  rw [step_ktime houtside]
  exact ⟨⟨hb.pressed, hb.first, hb.clock⟩, rfl, hb.early, hb.empty⟩

theorem reopened_store (w : GateVar) (x : ℤ) :
    view.Triple Any (Broken a now) (perform (.store w x)) fun _ ↦ Broken a now := by
  refine plain_rule trivial fun v _ h _ _ ↦ ?_
  cases w <;> exact ⟨⟨h.pressed, h.first, h.clock⟩, h.stage, h.early, h.empty⟩

theorem reopened_settle (s' : SystemState) :
    view.Triple Any (Broken a now) (gateSetState s') fun _ ↦ AtTop := by
  refine plain_rule trivial fun v _ h _ _ ↦ ?_
  have hb : Broken a now (act (.writeState s') v) :=
    ⟨⟨h.pressed, h.first, h.clock⟩, h.stage, h.early, h.empty⟩
  exact hb.atTop

theorem closeOr_rule {line : LogLine} {p : GateProg Unit} (hs : Waits s)
    (hp : view.Triple Any (Broken a now) p fun _ ↦ AtTop) :
    view.Triple Any (fun v ↦ v.Timed s a now ∧ v.since s ≤ now) (closeOr line p)
      fun _ ↦ AtTop := by
  have hclose : view.Triple Any (Closing a now False) gateCloseInterruptible _ :=
    gateCloseInterruptible_rule
  refine .bind (quiet (o := .prInfo line) trivial) fun _ ↦ ?_
  refine .bind (.pre (fun v _ h ↦ ?_) hclose) fun r ↦ .ite (fun hr ↦ ?_) fun hr ↦ ?_
  · obtain ⟨h, hle⟩ := h
    exact ⟨h.toClocked, h.stage, h.due.early hs hle, False.elim⟩
  · simpa only [if_pos hr] using hp
  · simp only [if_neg hr]
    exact plain_rule trivial fun v _ h _ _ ↦
      .inr ⟨a, now, ⟨h.pressed, h.first, h.clock⟩, h.empty trivial⟩

/-! ## The branches -/

/-- A waiting state that goes on waiting. -/
theorem Timed.atTop {v : Vigil} (h : v.Timed s a now) (hs : Waits s) (hle : v.since s ≤ now)
    (hlt : now - v.since s < 10) : v.AtTop := by
  refine .inr ⟨a, now, h.toClocked, ?_⟩
  rw [h.state]
  exact h.due.onTime hs hle hlt

/-- A detecting state starts the timer. -/
theorem moveOn_rule {line : LogLine} (hs : Detects s) (hs' : Waits s')
    (hexit : s' ≠ .exitRequested) :
    view.Triple Any (Timed s a now) (moveOn line s' now) fun _ ↦ AtTop := by
  refine .bind (quiet (o := .prInfo line) trivial) fun _ ↦ ?_
  refine .bind (R := fun _ v ↦ (v.Clocked a now ∧ (v.reopen = true → now ≤ a) ∧ now < a + 20)
    ∧ v.lastVehicleDetect = now) (plain_rule trivial fun v _ h _ _ ↦ ?_) fun _ ↦
    plain_rule trivial fun v _ h _ _ ↦ ?_
  · exact ⟨⟨⟨h.pressed, h.first, h.clock⟩, h.due.of_detects hs⟩, rfl⟩
  · obtain ⟨⟨hclocked, hreopen, hlt⟩, rfl⟩ := h
    refine .inr ⟨a, v.lastVehicleDetect, ⟨hclocked.pressed, hclocked.first, hclocked.clock⟩, ?_⟩
    change OnTime a v.lastVehicleDetect v.reopen (Vigil.since s' (act (.writeState s') v)) s'
    rw [show Vigil.since s' (act (.writeState s') v) = v.lastVehicleDetect from if_neg hexit]
    exact onTime_of_start hs' hreopen hlt

theorem whenWaiting_rule {closing reopened : LogLine} {back : ℤ → LogLine} {d : ℤ}
    (hs : Waits s) (hexit : s ≠ .exitRequested) (hd : d = -1 ∨ vehicleDetectCm < d) :
    view.Triple Any (Timed s a now) (whenWaiting closing reopened back s' d now)
      fun _ ↦ AtTop := by
  have helapsed : view.Triple Any (Timed s a now) (elapsedSince (timerOf s) now) _ :=
    elapsedSince_rule
  rw [show timerOf s = .lastVehicleDetect from if_neg hexit] at helapsed
  refine .bind helapsed fun elapsed ↦ .ite (fun _ ↦ ?_) fun hlt ↦ ?_
  · refine (closeOr_rule hs ?_).pre fun v _ h ↦ ⟨h.1, h.2.1⟩
    refine .bind (quiet (o := .prInfo reopened) trivial) fun _ ↦ reopened_clock fun now' ↦ ?_
    exact .bind (reopened_store _ _) fun _ ↦ reopened_settle s'
  · refine .ite (fun hin ↦ absurd hin (not_inRange hd)) fun _ ↦ .ret fun v _ h ↦ ?_
    obtain ⟨h, hle, rfl⟩ := h
    exact h.atTop hs hle (not_le.mp hlt)

theorem dispatch_rule {d : ℤ} (hd : d = -1 ∨ vehicleDetectCm < d)
    (hgone : s = .exitVehicleDetected → vehicleDetectCm < d) :
    view.Triple Any (Timed s a now) (dispatch s d now) fun _ ↦ AtTop := by
  have hout := not_inRange hd
  cases s with
  | idle =>
    refine .ite (fun hin ↦ absurd hin hout) fun _ ↦ .ret fun v _ h ↦ ?_
    refine .inr ⟨a, now, h.toClocked, ?_⟩
    rw [h.state]
    exact h.due
  | entryDetected =>
    -- nobody is in range, so this state is left at once
    refine .ite (fun hin ↦ absurd hin hout) fun _ ↦ .ite (fun _ ↦ ?_) fun hn ↦ absurd ?_ hn
    · exact moveOn_rule trivial trivial (by decide)
    · exact hd.imp (fun h ↦ by omega) id
  | entryWaiting => exact whenWaiting_rule trivial (by decide) hd
  | exitRequested =>
    refine .ite (fun hin ↦ absurd hin hout) fun _ ↦ ?_
    refine .bind (elapsedSince_rule (s := .exitRequested)) fun elapsed ↦ .ite (fun _ ↦ ?_)
      fun hlt ↦ .ret fun v _ h ↦ ?_
    · refine (closeOr_rule (s := .exitRequested) trivial ?_).pre fun v _ h ↦ ⟨h.1, h.2.1⟩
      refine .bind (quiet (o := .prInfo .exitTimeoutReopened) trivial) fun _ ↦
        reopened_clock fun now' ↦ ?_
      refine .bind (reopened_store _ _) fun _ ↦ .bind (reopened_store _ _) fun _ ↦ ?_
      exact reopened_settle .exitRequested
    · obtain ⟨h, hle, rfl⟩ := h
      exact h.atTop trivial hle (not_le.mp hlt)
  | exitVehicleDetected =>
    -- and this one only by a measurement: a lost echo would keep it
    refine .ite (fun hin ↦ absurd hin hout) fun _ ↦ .ite (fun _ ↦ ?_) fun hn ↦ absurd (hgone rfl) hn
    exact moveOn_rule trivial trivial (by decide)
  | exitVehicleWaiting => exact whenWaiting_rule trivial (by decide) hd

theorem turnOutline : TurnOutline view Any AtTop (fun v ↦ v.Fresh ∧ v.pressed = false) Polled
    Read Measured (fun s d now v ↦ (d = -1 ∨ vehicleDetectCm < d)
      ∧ (s = .exitVehicleDetected → vehicleDetectCm < d) ∧ ∃ a, v.Timed s a now) where
  take := switchWasPressed_rule
  press := onSwitchPress_rule
  read := gateGetState_rule fun v h ↦ ⟨⟨h.1, h.2.congr rfl rfl rfl rfl rfl rfl⟩, rfl, rfl⟩
  measure := measure_rule
  clock := clock_rule
  act s d now v hv h := by
    obtain ⟨hd, hgone, a, h⟩ := h
    exact dispatch_rule hd hgone v hv h
  signal o ho v r _ h _ := by
    refine ⟨trivial, ?_⟩
    cases o with
    | readState =>
      rw [show view.step .readState r v = _ from step_readState r v]
      exact h.congr rfl rfl rfl rfl rfl rfl
    | store w x =>
      obtain rfl : w = .buzzerPhase := ho
      rwa [show view.step _ r v = v from step_of_quiet (o := .store .buzzerPhase x) trivial r v]
    | load w =>
      rwa [show view.step _ r v = v from step_of_quiet (o := .load w) trivial r v]
    | gpioSet pin x =>
      rwa [show view.step _ r v = v from step_of_quiet (o := .gpioSet pin x) trivial r v]
    | _ => exact ho.elim

end Vigil

/-! ## Turns in which nothing happens -/

theorem turnClocksFrom_turnHead (stage : Stage) (state : SystemState) (e : Echo) (now : ℤ)
    (tr : List GateLabel) :
    turnClocksFrom stage (turnHead state e now ++ tr) = now :: turnClocksFrom .outside tr := by
  cases stage <;> rfl

/-- A label of such a turn. -/
def IsStill (e : Echo) (l : GateLabel) : Prop := IsSignal l ∨ ∃ state now, l ∈ turnHead state e now

/-- Turn after turn in which the branch of the `switch` does nothing. -/
theorem still_turns {s : SystemState} {e : Echo}
    (hstill : ∀ now, dispatch s (ultrasonicDistance e) now = pure ()) (nows : List ℤ)
    {c : GateConfig}
    (htop : AtLoopTop c) (hpress : c.state.switchPressed = false) (hs : c.state.currentState = s) :
    ∃ c' ext, gateMachine.Steps c c' ∧ AtLoopTop c' ∧ c'.state.currentState = s
      ∧ c'.trace = c.trace ++ ext ∧ readings ext = nows.map (fun _ ↦ ultrasonicDistance e)
      ∧ (∀ stage, turnClocksFrom stage ext = nows) ∧ ∀ l ∈ ext, IsStill e l := by
  induction nows generalizing c with
  | nil => exact ⟨c, [], .refl, htop, hs, by simp, rfl, fun _ ↦ rfl, by simp⟩
  | cons now nows ih =>
    subst hs
    obtain ⟨c₁, h₁, htop₁, hpress₁, hs₁, tr, htr, hsignals⟩ :=
      turn_still now htop hpress (hstill now)
    obtain ⟨c', ext, h', htop', hs', hext, hreadings, hclocks, hlabels⟩ := ih htop₁ hpress₁ hs₁
    refine ⟨c', turnHead c.state.currentState e now ++ tr ++ ext, h₁.trans h', htop', hs',
      by rw [hext, htr]; simp, ?_, fun stage ↦ ?_, fun l hl ↦ ?_⟩
    · simp [readings_of_signals hsignals, hreadings]
    · have hnone : turnClocksFrom .outside tr = [] :=
        List.sublist_nil.mp (clocks_of_signals hsignals ▸ turnClocksFrom_sublist _ _)
      rw [List.append_assoc, turnClocksFrom_turnHead, turnClocksFrom_append, hnone, hclocks,
        List.nil_append]
    · rcases List.mem_append.mp hl with hl | hl
      · rcases List.mem_append.mp hl with hl | hl
        · exact .inr ⟨_, _, hl⟩
        · exact .inl (hsignals l hl)
      · exact hlabels l hl

theorem IsStill.not_ext {e : Echo} {l : GateLabel} (h : IsStill e l) (x : GateEvent) :
    l ≠ .ext x := by
  rcases h with ⟨o, r, -, rfl⟩ | ⟨state, now, h⟩
  · simp
  · rintro rfl
    simp [turnHead, measured] at h

theorem IsStill.not_losesEcho {e : Echo} {l : GateLabel} (h : IsStill e l)
    (he : ultrasonicDistance e ≠ -1) (stage : Stage) : ¬LosesEcho stage l := by
  rcases h with ⟨o, r, ho, rfl⟩ | ⟨state, now, h⟩
  · cases o <;> first | exact ho.elim | exact id
  · simp only [turnHead, measured, List.cons_append, List.nil_append, List.mem_cons,
      List.not_mem_nil, or_false] at h
    rcases h with rfl | rfl | rfl | rfl | rfl
    · exact id
    · exact id
    · exact id
    · exact fun hlost ↦ he hlost.2
    · exact id

theorem IsStill.not_timerAstray {e : Echo} {l : GateLabel} (h : IsStill e l) (clock : Option ℤ) :
    ¬TimerAstray clock l := by
  rcases h with ⟨o, r, ho, rfl⟩ | ⟨state, now, h⟩
  · cases o with
    | load w =>
      obtain rfl : w = .buzzerPhase := ho
      exact id
    | _ => first | exact ho.elim | exact id
  · simp only [turnHead, measured, List.cons_append, List.nil_append, List.mem_cons,
      List.not_mem_nil, or_false] at h
    rcases h with rfl | rfl | rfl | rfl | rfl <;> exact id

/-- Turns in which nothing happens, over a minute, when the sensor shows nobody. -/
theorem deserted_of_still {e : Echo} {ext : List GateLabel} {nows : List ℤ}
    (he : ultrasonicDistance e = -1 ∨ vehicleDetectCm < ultrasonicDistance e)
    (hreadings : readings ext = nows.map fun _ ↦ ultrasonicDistance e)
    (hclocks : turnClocks ext = nows) (hlabels : ∀ l ∈ ext, IsStill e l)
    (hpaced : nows.IsChain fun t t' ↦ t ≤ t' ∧ t' ≤ t + 5)
    (hminute : ∃ a ∈ nows.head?, ∃ b ∈ nows.getLast?, a + 60 ≤ b) : Deserted ext where
  absent d hd := by
    rw [hreadings] at hd
    obtain ⟨-, -, rfl⟩ := List.mem_map.mp hd
    exact he
  noPress h := (hlabels _ h).not_ext _ rfl
  paced := hclocks ▸ hpaced
  minute := hclocks ▸ hminute

/-- Thirteen readings, five seconds apart. -/
def minute : List ℤ := [0, 5, 10, 15, 20, 25, 30, 35, 40, 45, 50, 55, 60]

theorem minute_paced : minute.IsChain fun t t' ↦ t ≤ t' ∧ t' ≤ t + 5 := by
  decide

/-! ## A turn that closes -/

/-- A label of a turn that closes after an entry, or of one in which nothing happens. -/
def IsAway (since : ℤ) (e : Echo) (l : GateLabel) : Prop :=
  IsStill e l ∨ OfClose e l ∨ l = .op () (.load .lastVehicleDetect) since
    ∨ l = .op () (.prInfo .entryClose) () ∨ l = .op () (.writeState .idle) ()

theorem isAway_of_mem {since now : ℤ} {e : Echo} {tr : List GateLabel} {l : GateLabel}
    (htr : ∀ l ∈ tr, OfClose e l) (hl : l ∈ closedTurn since e now tr) : IsAway since e l := by
  simp only [closedTurn, wholeClose, List.mem_append, List.mem_cons, List.not_mem_nil,
    or_false] at hl
  rcases hl with hl | rfl | ((rfl | rfl) | hl) | rfl
  · exact .inl (.inr ⟨_, _, hl⟩)
  · exact .inr (.inr (.inl rfl))
  · exact .inr (.inr (.inr (.inl rfl)))
  · exact .inr (.inl trivial)
  · exact .inr (.inl (htr l hl))
  · exact .inr (.inr (.inr (.inr rfl)))

theorem OfClose.not_losesEcho {e : Echo} {l : GateLabel} (h : OfClose e l)
    (he : ultrasonicDistance e ≠ -1) (stage : Stage) : ¬LosesEcho stage l := by
  rcases l with _ | ⟨_, o, r⟩ | _
  · exact id
  · cases o with
    | ping =>
      obtain rfl : r = e := h
      exact fun hlost ↦ he hlost.2
    | _ => exact id
  · exact id

theorem IsAway.not_losesEcho {since : ℤ} {e : Echo} {l : GateLabel} (h : IsAway since e l)
    (he : ultrasonicDistance e ≠ -1) (stage : Stage) : ¬LosesEcho stage l := by
  rcases h with h | h | rfl | rfl | rfl
  · exact h.not_losesEcho he stage
  · exact h.not_losesEcho he stage
  · exact id
  · exact id
  · exact id

/-- The one timer that is tested is not astray as long as the clock has not gone too far. -/
theorem IsAway.not_timerAstray {since : ℤ} {e : Echo} {l : GateLabel} {clock : Option ℤ}
    (h : IsAway since e l) (hclock : ∀ t ∈ clock, since ≤ t ∧ t - since < 2 ^ 31) :
    ¬TimerAstray clock l := by
  rcases h with h | h | rfl | rfl | rfl
  · exact h.not_timerAstray clock
  · rcases l with _ | ⟨_, o, r⟩ | _
    · exact id
    · cases o <;> first | exact id | exact h.elim
    · exact id
  · rintro ⟨t, ht, hastray⟩
    exact hastray (hclock t ht)
  · exact id
  · exact id

theorem IsAway.not_press {since : ℤ} {e : Echo} (h : IsAway since e (.ext .press)) : False := by
  rcases h with h | h | h | h | h
  · exact h.not_ext _ rfl
  · exact h
  all_goals cases h

theorem IsAway.reading {since : ℤ} {e : Echo} {l : GateLabel} (h : IsAway since e l) {d : ℤ}
    (hd : readingOf l = some d) : d = ultrasonicDistance e := by
  rcases h with (⟨o, r, ho, rfl⟩ | ⟨state, now, h⟩) | h | rfl | rfl | rfl
  · cases o <;> first | exact ho.elim | cases hd
  · simp only [turnHead, measured, List.cons_append, List.nil_append, List.mem_cons,
      List.not_mem_nil, or_false] at h
    rcases h with rfl | rfl | rfl | rfl | rfl
    · cases hd
    · cases hd
    · cases hd
    · exact (Option.some.inj hd).symm
    · cases hd
  · rcases l with _ | ⟨_, o, r⟩ | _
    · cases hd
    · cases o with
      | ping =>
        obtain rfl : r = e := h
        exact (Option.some.inj hd).symm
      | _ => cases hd
    · cases hd
  all_goals cases hd

/-- Its turn clock is the one of its head. -/
theorem turnClocks_closedTurn {since now : ℤ} {e : Echo} {tr tr' ext : List GateLabel}
    {clks : List ℤ} (htr : ∀ l ∈ tr, OfClose e l) (htr' : ∀ l ∈ tr', IsSignal l)
    (hext : ∀ stage, turnClocksFrom stage ext = clks) :
    turnClocks (closedTurn since e now tr ++ tr' ++ ext) = now :: clks := by
  have hclose : clocks tr = [] := by
    refine List.filterMap_eq_nil_iff.mpr fun l hl ↦ ?_
    have hof := htr l hl
    rcases l with _ | ⟨_, o, r⟩ | _
    · rfl
    · cases o <;> first | rfl | exact hof.elim
    · rfl
  let rest : List GateLabel :=
    .op () (.load .lastVehicleDetect) since :: wholeClose .entryClose tr ++ tr'
  have hrest : clocks rest = [] := by
    change clocks ([.op () (.load .lastVehicleDetect) since, .op () (.prInfo .entryClose) (),
      .op () .closingStep ()] ++ tr ++ [.op () (.writeState .idle) ()] ++ tr') = []
    rw [clocks_append, clocks_append, clocks_append, hclose, clocks_of_signals htr']
    rfl
  have hnone (stage : Stage) : turnClocksFrom stage rest = [] :=
    List.sublist_nil.mp (hrest ▸ turnClocksFrom_sublist stage rest)
  rw [closedTurn, turnClocks, List.append_assoc, List.append_assoc, turnClocksFrom_turnHead,
    ← List.append_assoc, turnClocksFrom_append, hext, hnone, List.nil_append]

/-! ## Results -/

/-- **The gate closes again.** From any reachable loop top on, whatever flags are pending: if nobody
is there, no echo is lost in `STATE_EXIT_VEHICLE_DETECTED` and no timer is astray, then the gate is
closed a minute later. -/
theorem closes_again {c c' : GateConfig} {ext : List GateLabel} (hc : GateReachable c)
    (htop : AtLoopTop c) (h : gateMachine.Steps c c') (htop' : AtLoopTop c')
    (hext : c'.trace = c.trace ++ ext) (hdeserted : Deserted ext)
    (hecho : Always (fun pre l ↦ ¬LosesEcho (turnStage pre) l) ext)
    (htimer : Always (fun pre l ↦ ¬TimerAstray (turnClocks pre).getLast? l) ext) :
    c'.state.currentState = .idle ∧ c'.state.position = 0 := by
  have hcalm := hdeserted.calm hecho htimer
  obtain ⟨tr, htr, hsteps⟩ := h.rebase []
  obtain rfl : ext = tr := List.append_cancel_left (hext.symm.trans htr)
  have hfresh : Vigil.Fresh (Vigil.ofSnap ⟨c.state, []⟩) :=
    ⟨rfl, rfl, ((Tally.sound_of_reachable hc).2 htop).idle⟩
  obtain ⟨-, hend⟩ := Vigil.turnOutline.steps (W := Vigil.view) (c := ⟨⟨c.state, []⟩, c.thread⟩)
    htop trivial (.inl hfresh) hsteps hcalm
  obtain ⟨a, ha, b, hb, hlate⟩ := hdeserted.minute
  have hidle : c'.state.currentState = .idle := by
    rcases hend htop' with hfresh' | ⟨a', t, hgoing⟩
    · have hnone : (turnClocks ext).head? = none := hfresh'.first
      rw [hnone] at ha
      cases ha
    · have hfirst : (turnClocks ext).head? = some a' := hgoing.first
      have hlast : (turnClocks ext).getLast? = some t := hgoing.clock
      obtain rfl : a' = a := Option.some.inj (hfirst.symm.trans ha)
      obtain rfl : t = b := Option.some.inj (hlast.symm.trans hb)
      exact hgoing.onTime.idle hlate
  obtain ⟨-, hposition, -⟩ := (Arm.sound_of_reachable (hc.trans h)).2 htop'
  refine ⟨hidle, hposition.trans ?_⟩
  exact if_pos hidle

/-- The gate has opened for a vehicle that is gone again. Ten seconds later it closes, and nobody
comes for the rest of the minute. -/
theorem closes_again_entry : ∃ (c c' : GateConfig) (ext : List GateLabel),
    GateReachable c ∧ c.state.currentState = .entryWaiting ∧ c.state.position = 1024
      ∧ gateMachine.Steps c c' ∧ c'.trace = c.trace ++ ext ∧ Deserted ext
      ∧ .op () (.load .lastVehicleDetect) 0 ∈ ext ∧ .op () .closingStep () ∈ ext
      ∧ c'.state.currentState = .idle ∧ c'.state.position = 0 := by
  have hfar : ultrasonicDistance (.ofCm 20) = 20 := ultrasonicDistance_ofCm (by decide) (by decide)
  have hstill (now : ℤ) : dispatch .idle (ultrasonicDistance (.ofCm 20)) now = pure () := by
    rw [hfar]
    rfl
  obtain ⟨c, -, -, hc, htop, hpress, hreopen, hstate, hsince, -⟩ :=
    entryWaiting_run (vehicleInRange_ofCm (d := 5) (by decide)) ultrasonicDistance_silent_neg 0 0
  have hposition : c.state.position = 1024 := by
    have hrest : c.state.position = Arm.rest c.state.currentState :=
      ((Arm.sound_of_reachable hc).2 htop).2.1
    rw [hrest, hstate]
    rfl
  obtain ⟨c₁, h₁, htop₁, hpress₁, hidle, tr, tr', htr, hclosing, hsignals⟩ :=
    turn_entry_closed (e := .ofCm 20) 10 htop hpress hreopen hstate (by rw [hsince]; decide)
      (by rw [hfar]; decide)
  obtain ⟨c', ext, hsteps, htop', -, hext, hreadings, hclocks, hlabels⟩ :=
    still_turns hstill (minute.map (· + 15)) htop₁ hpress₁ hidle
  rw [hsince] at htr
  have hwhole : c'.trace = c.trace ++ (closedTurn 0 (.ofCm 20) 10 tr ++ tr' ++ ext) := by
    rw [hext, htr]
    simp
  have haway : ∀ l ∈ closedTurn 0 (.ofCm 20) 10 tr ++ tr' ++ ext, IsAway 0 (.ofCm 20) l := by
    intro l hl
    simp only [List.mem_append] at hl
    rcases hl with (hl | hl) | hl
    · exact isAway_of_mem hclosing hl
    · exact .inl (.inl (hsignals l hl))
    · exact .inl (hlabels l hl)
  have hturns : turnClocks (closedTurn 0 (.ofCm 20) 10 tr ++ tr' ++ ext)
      = 10 :: minute.map (· + 15) :=
    turnClocks_closedTurn hclosing hsignals hclocks
  have hdeserted : Deserted (closedTurn 0 (.ofCm 20) 10 tr ++ tr' ++ ext) :=
    { absent := fun d hd ↦ by
        obtain ⟨l, hl, hread⟩ := List.mem_filterMap.mp hd
        rw [(haway l hl).reading hread, hfar]
        decide
      noPress := fun h ↦ (haway _ h).not_press
      paced := by
        rw [hturns]
        decide
      minute := by
        rw [hturns]
        exact ⟨10, rfl, 75, rfl, by decide⟩ }
  refine ⟨c, c', _, hc, hstate, hposition, h₁.trans hsteps, hwhole, hdeserted, ?_, ?_,
    closes_again hc htop (h₁.trans hsteps) htop' hwhole hdeserted ?_ ?_⟩
  · simp [closedTurn]
  · simp [closingStep_mem_closedTurn]
  · exact always_of_mem fun l hl pre ↦ (haway l hl).not_losesEcho (by rw [hfar]; decide) _
  · intro pre l post htrace
    refine (haway l (by simp [htrace])).not_timerAstray fun t ht ↦ ?_
    -- whatever has been read by then, it is one of the turn clocks
    have hmem : t ∈ turnClocks (closedTurn 0 (.ofCm 20) 10 tr ++ tr' ++ ext) := by
      rw [htrace, turnClocks_append_cons]
      exact List.mem_append_left _ (List.mem_of_getLast? ht)
    rw [hturns] at hmem
    have hrange : ∀ t ∈ 10 :: minute.map (· + 15), 0 ≤ t ∧ t - 0 < 2 ^ 31 := by decide
    exact hrange t hmem

/-- A minute without an echo in `STATE_EXIT_VEHICLE_DETECTED`: nobody is there, and the gate stays
open. -/
theorem lost_echo_keeps_open : ∃ (c c' : GateConfig) (ext : List GateLabel),
    GateReachable c ∧ AtLoopTop c ∧ gateMachine.Steps c c' ∧ AtLoopTop c'
      ∧ c'.trace = c.trace ++ ext ∧ Deserted ext
      ∧ ¬(c'.state.currentState = .idle ∧ c'.state.position = 0) := by
  obtain ⟨c, hc, htop, hpress, hstate, -⟩ :=
    exitVehicleDetected_reachable (vehicleInRange_ofCm (d := 5) (by decide)) 0 0
  have hstill (now : ℤ) :
      dispatch .exitVehicleDetected (ultrasonicDistance .silent) now = pure () := by
    rw [ultrasonicDistance_silent]
    rfl
  obtain ⟨c', ext, hsteps, htop', hstate', hext, hreadings, hclocks, hlabels⟩ :=
    still_turns hstill minute htop hpress hstate
  refine ⟨c, c', ext, hc, htop, hsteps, htop', hext, deserted_of_still
    (.inl ultrasonicDistance_silent) hreadings (hclocks .outside) hlabels minute_paced
    ⟨0, rfl, 60, rfl, by decide⟩, fun h ↦ ?_⟩
  rw [hstate'] at h
  cases h.1

end ParkingService
