import ParkingService.Gate.Turns

/-!
# What a gate node is for

Both gate nodes, the kernel module and the user-space program, control one gate by a timed
automaton: six states, a point in time since which something is waited for, accepted presses of the
button, and one look at the sensor after another. `Law` is that automaton, with the choices that the
two have made differently, and `gate_follows_law` says that the kernel module follows it: what has
happened to the module, told in presses and passes (`gateEvents`), determines its state and its
running timer at the top of the loop, whatever the interrupts and readers do in between.

The log of events is read off the labels. `TurnStage` says where in a turn the reader is, which is
what it takes to tell the three clock readings of a turn apart.
-/

namespace ParkingService

open Concurrency

/-! ## The automaton -/

/-- What a look at the sensor shows: a vehicle, something farther away, no echo, or nothing that the
nodes react to. -/
inductive Glance
  | near
  | away
  | lost
  | nothing
  deriving DecidableEq, Repr

/-- What a distance means. -/
def glance {K : Type} [LT K] [DecidableLT K] [OfNat K 0] (limit d : K) : Glance :=
  if d < 0 then .lost
  else if limit < d then .away
  else if 0 < d then .near
  else .nothing

/-- The state, and the time since which its timer runs, if it has one. -/
structure Control where
  state : SystemState
  since : ℤ
  deriving DecidableEq

/-- When the loop is entered. -/
def Control.init : Control := ⟨.idle, 0⟩

/-- What happens to a gate node. -/
inductive ControlEvent
  /-- a press that is accepted at this time -/
  | press (now : ℤ)
  /-- a look at the sensor at this time; a close that follows is undone at time `undone`, if at
  all -/
  | pass (seen : Glance) (now : ℤ) (undone : Option ℤ)
  deriving DecidableEq

/-- What the two nodes do differently. -/
structure Law where
  /-- a waiting state looks at the clock before it looks at the sensor -/
  clockFirst : Bool
  /-- a lost echo means that a vehicle on its way out is gone -/
  lostIsGone : Bool
  /-- what a time difference is compared as -/
  narrow : ℤ → ℤ

namespace Law

/-- A close from state `reopened`, or from one that a close falls back to. -/
def close (reopened : SystemState) (undone : Option ℤ) (k : Control) : Control :=
  match undone with
  | some t => ⟨reopened, t⟩
  | none => ⟨.idle, k.since⟩

variable (L : Law)

/-- The timer that runs since `k.since` has expired. -/
def Expired (delaySec now : ℤ) (k : Control) : Prop := delaySec ≤ L.narrow (now - k.since)

instance (delaySec now : ℤ) (k : Control) : Decidable (L.Expired delaySec now k) :=
  inferInstanceAs (Decidable (_ ≤ _))

/-- The gate is open and waits for the vehicle to stay away. -/
def waiting (detected : SystemState) (seen : Glance) (now : ℤ) (undone : Option ℤ) (k : Control) :
    Control :=
  if L.Expired entryCloseDelaySec now k ∧ (L.clockFirst ∨ seen ≠ .near) then
    close detected undone k
  else if seen = .near then ⟨detected, now⟩
  else k

def pass (seen : Glance) (now : ℤ) (undone : Option ℤ) (k : Control) : Control :=
  match k.state with
  | .idle => if seen = .near then ⟨.entryDetected, now⟩ else k
  | .entryDetected => if seen = .away ∨ seen = .lost then ⟨.entryWaiting, now⟩ else k
  | .entryWaiting => L.waiting .entryDetected seen now undone k
  | .exitRequested =>
    if seen = .near then ⟨.exitVehicleDetected, k.since⟩
    else if L.Expired exitTimeoutSec now k then close .exitRequested undone k
    else k
  | .exitVehicleDetected =>
    if seen = .away ∨ L.lostIsGone ∧ seen = .lost then ⟨.exitVehicleWaiting, now⟩ else k
  | .exitVehicleWaiting => L.waiting .exitVehicleDetected seen now undone k

/-- A press is accepted by an idle gate only. -/
def apply : ControlEvent → Control → Option Control
  | .press now, k => if k.state = .idle then some ⟨.exitRequested, now⟩ else none
  | .pass seen now undone, k => some (L.pass seen now undone k)

/-- What has become of the automaton after these events, newest first. -/
def run : List ControlEvent → Option Control
  | [] => some .init
  | e :: es => (run es).bind (L.apply e)

end Law

/-- Only now it turns out that the close of the last pass is undone. -/
def amend (t : ℤ) : List ControlEvent → List ControlEvent
  | .pass seen now _ :: es => .pass seen now (some t) :: es
  | es => es

/-! ## The kernel module -/

/-- The kernel module looks at the clock first, and narrows time differences to `int`. -/
def kernelLaw : Law := ⟨true, false, toInt32⟩

/-- Where in a turn the thread is: before its measurement, before it has looked at the clock, or
after that. -/
inductive TurnStage
  | fresh
  | measured (distanceCm : ℤ)
  | decided
  deriving DecidableEq

structure GateLog where
  stage : TurnStage
  events : List ControlEvent

namespace GateLog

def init : GateLog := ⟨.fresh, []⟩

/-- The clock is looked at. -/
def tick (now : ℤ) (g : GateLog) : GateLog :=
  match g.stage with
  | .fresh => { g with events := .press now :: g.events }
  | .measured d => ⟨.decided, .pass (glance vehicleDetectCm d) now none :: g.events⟩
  | .decided => { g with events := amend now g.events }

def next (g : GateLog) : GateLabel → GateLog
  | .op _ .ping e =>
    if g.stage = .fresh then { g with stage := .measured (ultrasonicDistance e) } else g
  | .op _ .ktime now => g.tick now
  | .op _ .readState _ => if g.stage = .decided then { g with stage := .fresh } else g
  | _ => g

def of (tr : List GateLabel) : GateLog := tr.foldl next init

end GateLog

/-- What has happened to the module, newest first. -/
def gateEvents (tr : List GateLabel) : List ControlEvent := (GateLog.of tr).events

/-! ### The view -/

/-- What the state machine goes by, and what has happened. -/
structure Controlled where
  state : SystemState
  lastVehicleDetect : ℤ
  exitRequestTime : ℤ
  log : GateLog

namespace Controlled

def ofSnap (s : GateSnap) : Controlled :=
  ⟨s.state.currentState, s.state.var .lastVehicleDetect, s.state.var .exitRequestTime,
    .of s.trace⟩

def step (o : GateOp) (r : o.Resp) (v : Controlled) : Controlled where
  state := match o with
    | .writeState s => s
    | _ => v.state
  lastVehicleDetect := match o with
    | .store .lastVehicleDetect t => t
    | _ => v.lastVehicleDetect
  exitRequestTime := match o with
    | .store .exitRequestTime t => t
    | _ => v.exitRequestTime
  log := v.log.next (.op () o r)

def guard (o : GateOp) (r : o.Resp) (v : Controlled) : Prop :=
  match o, r with
  | .readState, r => r = v.state
  | .load .lastVehicleDetect, r => r = v.lastVehicleDetect
  | .load .exitRequestTime, r => r = v.exitRequestTime
  | _, _ => True

theorem log_append (tr : List GateLabel) (l : GateLabel) :
    GateLog.of (tr ++ [l]) = (GateLog.of tr).next l :=
  List.foldl_append

def view : View gateMachine Controlled where
  assume _ _ := True
  proj := ofSnap
  guard := guard
  step := step
  proj_ext {s e x} _ h := by
    obtain ⟨rfl, rfl⟩ | ⟨rfl, rfl⟩ := GateEvent.exec_cases h <;>
      simp [ofSnap, log_append, GateLog.next]
  proj_start {s j p x} h := by
    obtain ⟨-, rfl⟩ : _ ∧ s.state = x := by simpa [gateMachine] using h
    simp [ofSnap, log_append, GateLog.next]
  proj_op {s o r x} _ h := by
    obtain ⟨hans, rfl⟩ := GateOp.exec_eq_some.mp h
    refine ⟨?_, ?_⟩
    · cases o with
      | load v => cases v <;> first | exact hans | trivial
      | _ => first | exact hans | trivial
    · cases o with
      | store v t => cases v <;> simp [ofSnap, step, log_append, GateOp.effect]
      | _ => simp [ofSnap, step, log_append, GateOp.effect, GateState.openingStep,
          GateState.closingStep]

/-! ### The invariant -/

/-- The module is where the automaton is; only timers that run count. -/
structure Agrees (k : Control) (v : Controlled) : Prop where
  state : v.state = k.state
  exitTimer : k.state = .exitRequested → v.exitRequestTime = k.since
  waitTimer : k.state = .entryWaiting ∨ k.state = .exitVehicleWaiting →
    v.lastVehicleDetect = k.since

/-- All events so far were possible. -/
def Sound (v : Controlled) : Prop := ∃ k, kernelLaw.run v.log.events = some k

/-- What the events lead to. -/
def Follows (v : Controlled) : Prop := ∃ k, kernelLaw.run v.log.events = some k ∧ Agrees k v

/-- At the top of the loop. -/
def AtTop (v : Controlled) : Prop := v.log.stage = .fresh ∧ Follows v

/-- The branch of the `switch` is done. -/
def Done (v : Controlled) : Prop := v.log.stage = .decided ∧ Follows v

/-- Nothing but the log tells `v` from `x`. -/
def Is (x v : Controlled) : Prop := v = x

/-- Operations that neither the log nor the automaton knows of. -/
def Calm (stage : TurnStage) : GateOp → Prop
  | .writeState _ | .ktime | .readState => False
  | .ping => stage ≠ .fresh
  | .store v _ => v = .buzzerPhase
  | _ => True

variable {x : Controlled} {es : List ControlEvent} {k : Control}

theorem step_of_calm {o : GateOp} (ho : Calm x.log.stage o) (r : o.Resp) : step o r x = x := by
  cases o with
  | store v t =>
    obtain rfl : v = .buzzerPhase := ho
    rfl
  | ping =>
    have hstage : x.log.stage ≠ .fresh := ho
    simp [step, GateLog.next, hstage]
  | _ => first | rfl | exact ho.elim

theorem calm_program {α : Type} {p : GateProg α} (hp : p.Uses (Calm x.log.stage)) :
    view.Triple Sound (Is x) p fun _ ↦ Is x := by
  refine .frame hp fun o ho v r hv hx _ ↦ ?_
  obtain rfl : v = x := hx
  rw [show view.step o r v = v from step_of_calm ho r]
  exact ⟨hv, rfl⟩

theorem calm_rule {o : GateOp} (ho : Calm x.log.stage o) :
    view.Triple Sound (Is x) (perform o) fun _ ↦ Is x :=
  calm_program ⟨ho, fun _ ↦ trivial⟩

/-- An operation that the log does not know of. -/
theorem act_rule {o : GateOp} {y : Controlled} (hy : ∀ r, step o r x = y) (hlog : y.log = x.log) :
    view.Triple Sound (Is x) (perform o) fun _ ↦ Is y := by
  refine perform_rule fun v r hv hx _ ↦ ?_
  obtain rfl : v = x := hx
  rw [show view.step o r v = y from hy r]
  refine ⟨?_, rfl⟩
  rw [Sound, hlog]
  exact hv

theorem setState_rule (s : SystemState) :
    view.Triple Sound (Is x) (gateSetState s) fun _ ↦ Is { x with state := s } :=
  act_rule (o := .writeState s) (fun _ ↦ rfl) rfl

theorem storeDetect_rule (t : ℤ) :
    view.Triple Sound (Is x) (perform (.store .lastVehicleDetect t))
      fun _ ↦ Is { x with lastVehicleDetect := t } :=
  act_rule (fun _ ↦ rfl) rfl

theorem storeExit_rule (t : ℤ) :
    view.Triple Sound (Is x) (perform (.store .exitRequestTime t))
      fun _ ↦ Is { x with exitRequestTime := t } :=
  act_rule (fun _ ↦ rfl) rfl

/-- The clock says when the close of this pass was undone. -/
theorem undone_rule {seen : Glance} {now : ℤ} {undone : Option ℤ}
    (hx : x.log = ⟨.decided, .pass seen now undone :: es⟩) (hes : kernelLaw.run es = some k) :
    view.Triple Sound (Is x) ktimeGetSeconds
      fun t ↦ Is { x with log := ⟨.decided, .pass seen now (some t) :: es⟩ } := by
  refine perform_rule fun v t _ hv _ ↦ ?_
  obtain rfl : v = x := hv
  have hstep : step .ktime t v = { v with log := ⟨.decided, .pass seen now (some t) :: es⟩ } := by
    change Controlled.mk _ _ _ (v.log.tick t) = _
    rw [hx]
    rfl
  rw [show view.step .ktime t v = _ from hstep]
  exact ⟨⟨_, by rw [Law.run, hes]; rfl⟩, rfl⟩

theorem elapsed_rule {v : GateVar} (since now : ℤ)
    (hsince : ∀ r, guard (.load v) r x → r = since) :
    view.Triple Sound (Is x) (elapsedSince v now)
      fun e w ↦ e = toInt32 (now - since) ∧ Is x w := by
  refine .bind (R := fun r w ↦ r = since ∧ Is x w) ?_ fun r ↦ .ret fun w _ hw ↦ ?_
  · refine perform_rule fun w r hw hx hr ↦ ?_
    obtain rfl : w = x := hx
    rw [show view.step (.load v) r w = w from step_of_calm (o := .load v) trivial r]
    exact ⟨hw, hsince r hr, rfl⟩
  · exact ⟨by rw [hw.1], hw.2⟩

/-! ### Closing -/

theorem close_rule (hstage : x.log.stage ≠ .fresh) :
    view.Triple Sound (Is x) gateCloseInterruptible fun _ ↦ Is x :=
  calm_program ((closeLoop_uses _ _ _).mono fun o ho ↦ by
    cases o <;> first | exact hstage | trivial)

theorem open_rule : view.Triple Sound (Is x) gateOpen fun _ ↦ Is x :=
  calm_program (gateOpen_uses trivial)

/-! ### The branches -/

section Branches

variable {d now : ℤ} {undone : Option ℤ} {seen : Glance} {v : Controlled}

theorem glance_eq_near : glance vehicleDetectCm d = .near ↔ VehicleInRange d := by
  rw [glance, VehicleInRange]
  split_ifs <;> simp <;> omega

theorem glance_eq_away : glance vehicleDetectCm d = .away ↔ vehicleDetectCm < d := by
  rw [glance]
  have hlimit : (0 : ℤ) < vehicleDetectCm := by decide
  split_ifs <;> simp <;> omega

theorem glance_eq_lost : glance vehicleDetectCm d = .lost ↔ d < 0 := by
  rw [glance]
  split_ifs <;> simp <;> omega

/-- The pass has been logged on top of what the module has followed so far. -/
structure Deciding (es : List ControlEvent) (k : Control) (d now : ℤ) (x : Controlled) : Prop where
  log : x.log = ⟨.decided, .pass (glance vehicleDetectCm d) now none :: es⟩
  run : kernelLaw.run es = some k
  agrees : Agrees k x

theorem Deciding.stage (h : Deciding es k d now x) : x.log.stage = .decided := by
  rw [h.log]

/-- A branch is done when the module is where the pass has led the automaton. -/
theorem done_of_pass {k' : Control} (hrun : kernelLaw.run es = some k)
    (hpass : kernelLaw.pass seen now undone k = k') (hagree : Agrees k' v)
    (hlog : v.log = ⟨.decided, .pass seen now undone :: es⟩) : Done v := by
  refine ⟨by rw [hlog], k', ?_, hagree⟩
  rw [hlog, Law.run, hrun, ← hpass]
  rfl

/-- A state without a timer. -/
theorem Agrees.of_untimed {s : SystemState} {t : ℤ} (hs : v.state = s)
    (hexit : s ≠ .exitRequested) (hwait : s ≠ .entryWaiting ∧ s ≠ .exitVehicleWaiting) :
    Agrees ⟨s, t⟩ v :=
  ⟨hs, fun h ↦ absurd h hexit, fun h ↦ (h.elim hwait.1 hwait.2).elim⟩

/-- The pass changes nothing. -/
theorem Deciding.stay (h : Deciding es k d now x)
    (hpass : kernelLaw.pass (glance vehicleDetectCm d) now none k = k) :
    view.Triple Sound (Is x) (pure ()) fun _ ↦ Done :=
  .ret fun v _ hv ↦ by
    obtain rfl : v = x := hv
    exact done_of_pass h.run hpass h.agrees h.log

/-- A state whose timer is the vehicle's, or that has none. -/
theorem Agrees.of_detect {s : SystemState} (hs : v.state = s) (ht : v.lastVehicleDetect = now)
    (hexit : s ≠ .exitRequested) : Agrees ⟨s, now⟩ v :=
  ⟨hs, fun h ↦ absurd h hexit, fun _ ↦ ht⟩

theorem moveOn_done {line : LogLine} {s : SystemState} (h : Deciding es k d now x)
    (hs : s ≠ .exitRequested)
    (hpass : kernelLaw.pass (glance vehicleDetectCm d) now none k = ⟨s, now⟩) :
    view.Triple Sound (Is x) (moveOn line s now) fun _ ↦ Done := by
  refine .bind (calm_rule (o := .prInfo line) trivial) fun _ ↦ .bind (storeDetect_rule _) fun _ ↦ ?_
  refine (setState_rule s).post fun _ v _ hv ↦ ?_
  obtain rfl := hv
  exact done_of_pass h.run hpass (.of_detect rfl rfl hs) h.log

/-- A close that gets through leads to `STATE_IDLE`, one that is undone to what follows it. -/
theorem closeOr_done {line : LogLine} {p : GateProg Unit} (h : Deciding es k d now x)
    (hpass : kernelLaw.pass (glance vehicleDetectCm d) now none k = ⟨.idle, k.since⟩)
    (hp : view.Triple Sound (Is x) p fun _ ↦ Done) :
    view.Triple Sound (Is x) (closeOr line p) fun _ ↦ Done := by
  have hstage : x.log.stage ≠ .fresh := by simp [h.stage]
  refine .bind (calm_rule (o := .prInfo line) trivial) fun _ ↦ .bind (close_rule hstage) fun r ↦ ?_
  refine .ite (fun _ ↦ hp) fun _ ↦ (setState_rule .idle).post fun _ v _ hv ↦ ?_
  obtain rfl := hv
  exact done_of_pass h.run hpass (.of_untimed rfl (by decide) (by decide)) h.log

theorem whenIdle_done (h : Deciding es k d now x) (hk : k.state = .idle) :
    view.Triple Sound (Is x) (whenIdle d now) fun _ ↦ Done := by
  refine .ite (fun hd ↦ ?_) fun hd ↦ h.stay ?_
  · refine .bind (calm_rule (o := .prInfo (.entryOpen d)) trivial) fun _ ↦ ?_
    refine .bind (setState_rule _) fun _ ↦ .bind open_rule fun _ ↦ ?_
    refine (storeDetect_rule now).post fun _ v _ hv ↦ ?_
    obtain rfl := hv
    refine done_of_pass h.run ?_ (.of_detect (s := .entryDetected) rfl rfl (by decide)) h.log
    rw [Law.pass, hk, glance_eq_near.mpr hd]
    rfl
  · rw [Law.pass, hk]
    exact if_neg fun hnear ↦ hd (glance_eq_near.mp hnear)

/-- While a vehicle is in front of the sensor, the time of its detection is kept up to date, but no
timer runs. -/
theorem storeDetect_done (h : Deciding es k d now x)
    (hk : k.state ≠ .entryWaiting ∧ k.state ≠ .exitVehicleWaiting)
    (hpass : kernelLaw.pass (glance vehicleDetectCm d) now none k = k) :
    view.Triple Sound (Is x) (perform (.store .lastVehicleDetect now)) fun _ ↦ Done := by
  refine (storeDetect_rule now).post fun _ v _ hv ↦ ?_
  obtain rfl := hv
  refine done_of_pass h.run hpass ⟨h.agrees.state, h.agrees.exitTimer, fun hwait ↦ ?_⟩ h.log
  exact (hwait.elim hk.1 hk.2).elim

theorem whenEntryDetected_done (h : Deciding es k d now x) (hk : k.state = .entryDetected) :
    view.Triple Sound (Is x) (whenEntryDetected d now) fun _ ↦ Done := by
  have hpass : kernelLaw.pass (glance vehicleDetectCm d) now none k
      = if d < 0 ∨ vehicleDetectCm < d then ⟨.entryWaiting, now⟩ else k := by
    rw [Law.pass, hk]
    exact if_congr (by rw [glance_eq_away, glance_eq_lost, or_comm]) rfl rfl
  refine .ite (fun hd ↦ storeDetect_done h (by simp [hk]) ?_) fun _ ↦
    .ite (fun hgone ↦ ?_) fun hgone ↦ ?_
  · obtain ⟨hpos, hle⟩ := hd
    rw [hpass, if_neg (by omega)]
  · exact moveOn_done h (by decide) (by rw [hpass, if_pos hgone])
  · exact h.stay (by rw [hpass, if_neg hgone])

theorem whenExitVehicleDetected_done (h : Deciding es k d now x)
    (hk : k.state = .exitVehicleDetected) :
    view.Triple Sound (Is x) (whenExitVehicleDetected d now) fun _ ↦ Done := by
  have hpass : kernelLaw.pass (glance vehicleDetectCm d) now none k
      = if vehicleDetectCm < d then ⟨.exitVehicleWaiting, now⟩ else k := by
    rw [Law.pass, hk]
    exact if_congr (by simp [kernelLaw, glance_eq_away]) rfl rfl
  refine .ite (fun hd ↦ storeDetect_done h (by simp [hk]) ?_) fun _ ↦
    .ite (fun hgone ↦ ?_) fun hgone ↦ ?_
  · rw [hpass, if_neg (Int.not_lt.mpr hd.2)]
  · exact moveOn_done h (by decide) (by rw [hpass, if_pos hgone])
  · exact h.stay (by rw [hpass, if_neg hgone])

/-- Both states that wait for the vehicle to stay away. -/
theorem whenWaiting_done {closing reopened : LogLine} {back : ℤ → LogLine} {detected : SystemState}
    (h : Deciding es k d now x) (hdetected : detected ≠ .exitRequested)
    (hk : k.state = .entryWaiting ∨ k.state = .exitVehicleWaiting)
    (hpass : ∀ undone, kernelLaw.pass (glance vehicleDetectCm d) now undone k
      = kernelLaw.waiting detected (glance vehicleDetectCm d) now undone k) :
    view.Triple Sound (Is x) (whenWaiting closing reopened back detected d now)
      fun _ ↦ Done := by
  refine .bind (elapsed_rule k.since now fun r hr ↦ hr.trans (h.agrees.waitTimer hk))
    fun e ↦ .of_pure (fun _ h ↦ h.1) fun he ↦ .pre (fun _ _ h ↦ h.2) ?_
  subst he
  have hexpired : entryCloseDelaySec ≤ toInt32 (now - k.since)
      ↔ kernelLaw.Expired entryCloseDelaySec now k := Iff.rfl
  refine .ite (fun hup ↦ ?_) fun hup ↦ ?_
  · have hclose (undone : Option ℤ) : kernelLaw.pass (glance vehicleDetectCm d) now undone k
        = Law.close detected undone k := by
      rw [hpass, Law.waiting]
      exact if_pos ⟨hexpired.mp hup, .inl rfl⟩
    refine closeOr_done h (hclose none) ?_
    refine .bind (calm_rule (o := .prInfo reopened) trivial) fun _ ↦ ?_
    refine .bind (undone_rule h.log h.run) fun t ↦ .bind (storeDetect_rule t) fun _ ↦ ?_
    refine (setState_rule detected).post fun _ v _ hv ↦ ?_
    obtain rfl := hv
    exact done_of_pass h.run (hclose (some t)) (.of_detect rfl rfl hdetected) rfl
  · have hwait : kernelLaw.pass (glance vehicleDetectCm d) now none k
        = if VehicleInRange d then ⟨detected, now⟩ else k := by
      rw [hpass, Law.waiting, if_neg fun h ↦ hup (hexpired.mpr h.1)]
      exact if_congr glance_eq_near rfl rfl
    refine .ite (fun hd ↦ ?_) fun hd ↦ ?_
    · exact moveOn_done h hdetected (by rw [hwait, if_pos hd])
    · exact h.stay (by rw [hwait, if_neg hd])

theorem whenExitRequested_done (h : Deciding es k d now x) (hk : k.state = .exitRequested) :
    view.Triple Sound (Is x) (whenExitRequested d now) fun _ ↦ Done := by
  have hpass (undone : Option ℤ) : kernelLaw.pass (glance vehicleDetectCm d) now undone k
      = if VehicleInRange d then ⟨.exitVehicleDetected, k.since⟩
        else if exitTimeoutSec ≤ toInt32 (now - k.since) then Law.close .exitRequested undone k
        else k := by
    rw [Law.pass, hk]
    exact if_congr glance_eq_near rfl rfl
  refine .ite (fun hd ↦ ?_) fun hd ↦ ?_
  · refine .bind (calm_rule (o := .prInfo (.exitVehicle d)) trivial) fun _ ↦ ?_
    refine .bind (setState_rule _) fun _ ↦ (storeDetect_rule now).post fun _ v _ hv ↦ ?_
    obtain rfl := hv
    refine done_of_pass h.run (by rw [hpass, if_pos hd]) ?_ h.log
    exact .of_untimed (s := .exitVehicleDetected) rfl (by decide) (by decide)
  refine .bind (elapsed_rule k.since now fun r hr ↦ hr.trans (h.agrees.exitTimer hk))
    fun e ↦ .of_pure (fun _ h ↦ h.1) fun he ↦ .pre (fun _ _ h ↦ h.2) ?_
  subst he
  refine .ite (fun hup ↦ ?_) fun hup ↦ h.stay (by rw [hpass, if_neg hd, if_neg hup])
  refine closeOr_done h (by rw [hpass, if_neg hd, if_pos hup]; rfl) ?_
  refine .bind (calm_rule (o := .prInfo .exitTimeoutReopened) trivial) fun _ ↦ ?_
  refine .bind (undone_rule h.log h.run) fun t ↦ .bind (storeDetect_rule t) fun _ ↦ ?_
  refine .bind (storeExit_rule t) fun _ ↦ (setState_rule .exitRequested).post fun _ v _ hv ↦ ?_
  obtain rfl := hv
  refine done_of_pass h.run (hpass (some t)) ?_ rfl
  rw [if_neg hd, if_pos hup]
  exact ⟨rfl, fun _ ↦ rfl, fun h ↦ h.elim (nomatch ·) (nomatch ·)⟩

theorem dispatch_done (h : Deciding es k d now x) :
    view.Triple Sound (Is x) (dispatch x.state d now) fun _ ↦ Done := by
  rw [h.agrees.state]
  cases hk : k.state with
  | idle => exact whenIdle_done h hk
  | entryDetected => exact whenEntryDetected_done h hk
  | entryWaiting =>
    exact whenWaiting_done h (by decide) (.inl hk) fun _ ↦ by rw [Law.pass, hk]
  | exitRequested => exact whenExitRequested_done h hk
  | exitVehicleDetected => exact whenExitVehicleDetected_done h hk
  | exitVehicleWaiting =>
    exact whenWaiting_done h (by decide) (.inr hk) fun _ ↦ by rw [Law.pass, hk]

end Branches

/-! ### One turn -/

theorem readFresh_rule (hstage : x.log.stage = .fresh) :
    view.Triple Sound (Is x) gateGetState fun s v ↦ s = x.state ∧ Is x v := by
  refine perform_rule fun v r hv hx hr ↦ ?_
  obtain rfl : v = x := hx
  have hstep : step .readState r v = v := by
    simp [step, GateLog.next, hstage]
  rw [show view.step .readState r v = v from hstep]
  exact ⟨hv, hr, rfl⟩

theorem onSwitchPress_atTop : view.Triple Sound AtTop onSwitchPress fun _ ↦ AtTop := by
  intro v hv htop
  obtain ⟨hstage, k, hrun, hagree⟩ := htop
  have hcalm {o : GateOp} (ho : Calm .fresh o) :
      view.Triple Sound (Is v) (perform o) fun _ ↦ Is v :=
    calm_rule (by rwa [hstage])
  refine View.Triple.bind (A := Is v) (readFresh_rule hstage) (fun s ↦
    .of_pure (fun _ h ↦ h.1) fun hs ↦ .pre (fun _ _ h ↦ h.2) ?_) v hv rfl
  subst hs
  refine .ite (fun hidle ↦ ?_) fun _ ↦ (hcalm (o := .setSwitchReopen) trivial).post
    fun _ w _ hw ↦ ?_
  · -- the press is logged when the gate is open, before the state is written
    have hpress (now : ℤ) : kernelLaw.run (.press now :: v.log.events)
        = some ⟨.exitRequested, now⟩ := by
      rw [Law.run, hrun]
      exact if_pos (hagree.state.symm.trans hidle)
    refine .bind (hcalm (o := .prInfo .exitOpen) trivial) fun _ ↦ .bind open_rule fun _ ↦ ?_
    have hclock : view.Triple Sound (Is v) ktimeGetSeconds
        fun now ↦ Is { v with log := ⟨.fresh, .press now :: v.log.events⟩ } := by
      refine perform_rule fun w now _ hw _ ↦ ?_
      obtain rfl : w = v := hw
      have hstep : step .ktime now w = { w with log := ⟨.fresh, .press now :: w.log.events⟩ } := by
        change Controlled.mk _ _ _ (w.log.tick now) = _
        rw [GateLog.tick, hstage]
      rw [show view.step .ktime now w = _ from hstep]
      exact ⟨⟨_, hpress now⟩, rfl⟩
    refine .bind hclock fun now ↦ .bind (storeExit_rule now) fun _ ↦ ?_
    refine (setState_rule .exitRequested).post fun _ w _ hw ↦ ?_
    obtain rfl := hw
    exact ⟨rfl, _, hpress now, rfl, fun _ ↦ rfl, fun h ↦ h.elim (nomatch ·) (nomatch ·)⟩
  · obtain rfl : w = v := hw
    exact ⟨hstage, k, hrun, hagree⟩

theorem pollSwitch_atTop : view.Triple Sound AtTop pollSwitch fun _ ↦ AtTop := by
  refine .bind (R := fun _ ↦ AtTop) ?_ fun b ↦ .ite (fun _ ↦ onSwitchPress_atTop) fun _ ↦
    .ret fun _ _ h ↦ h
  exact perform_rule fun v r hv htop _ ↦ ⟨hv, htop⟩

/-- The measurement of the turn. -/
theorem measure_rule (hstage : x.log.stage = .fresh) :
    view.Triple Sound (Is x) ultrasonicMeasureCm
      fun d ↦ Is { x with log := ⟨.measured d, x.log.events⟩ } := by
  refine ultrasonicMeasureCm_rule fun v e hv hx _ ↦ ?_
  obtain rfl : v = x := hx
  have hstep : step .ping e v
      = { v with log := ⟨.measured (ultrasonicDistance e), v.log.events⟩ } := by
    simp [step, GateLog.next, hstage]
  rw [show view.step .ping e v = _ from hstep]
  exact ⟨hv, rfl⟩

/-- The clock, after which the pass is logged. -/
theorem decide_rule {d : ℤ} (hlog : x.log = ⟨.measured d, es⟩) :
    view.Triple Sound (Is x) ktimeGetSeconds fun now ↦ Is { x with
      log := ⟨.decided, .pass (glance vehicleDetectCm d) now none :: es⟩ } := by
  refine perform_rule fun v now hv hx _ ↦ ?_
  obtain rfl : v = x := hx
  have hstep : step .ktime now v = { v with
      log := ⟨.decided, .pass (glance vehicleDetectCm d) now none :: es⟩ } := by
    change Controlled.mk _ _ _ (v.log.tick now) = _
    rw [hlog]
    rfl
  rw [show view.step .ktime now v = _ from hstep]
  obtain ⟨k, hk⟩ := hv
  rw [hlog] at hk
  exact ⟨⟨_, by rw [Law.run, hk]; rfl⟩, rfl⟩

/-- The turn ends with a look at the state, and whatever the buzzer and the LEDs do then is not
logged. -/
theorem signal_atTop : view.Triple Sound Done signal fun _ ↦ AtTop := by
  have hframe {p : GateProg Unit} (hp : p.Uses GateOp.Signals) :
      view.Triple Sound AtTop p fun _ ↦ AtTop := by
    refine .frame hp fun o ho v r hv htop _ ↦ ?_
    have hstep : step o r v = v := by
      cases o with
      | readState => simp [step, GateLog.next, htop.1]
      | store w t =>
        obtain rfl : w = .buzzerPhase := ho
        rfl
      | _ => first | rfl | exact ho.elim
    rw [show view.step o r v = v from hstep]
    exact ⟨hv, htop⟩
  refine .bind (R := fun _ ↦ AtTop) ?_ fun s ↦
    .ite (fun _ ↦ hframe (signalActive_uses s)) fun _ ↦ hframe signalIdle_uses
  refine perform_rule fun v r hv hdone _ ↦ ?_
  obtain ⟨hstage, hfollows⟩ := hdone
  have hstep : step .readState r v = { v with log := ⟨.fresh, v.log.events⟩ } := by
    simp [step, GateLog.next, hstage]
  rw [show view.step .readState r v = _ from hstep]
  obtain ⟨k, hrun, hagree⟩ := hfollows
  exact ⟨hv, rfl, k, hrun, hagree.state, hagree.exitTimer, hagree.waitTimer⟩

theorem stateMachineTurn_atTop : view.Triple Sound AtTop stateMachineTurn fun _ ↦ AtTop := by
  refine .bind pollSwitch_atTop fun _ v hv htop ↦ ?_
  obtain ⟨hstage, k, hrun, hagree⟩ := htop
  refine View.Triple.bind (A := Is v) (readFresh_rule hstage) (fun s ↦
    .of_pure (fun _ h ↦ h.1) fun hs ↦ .pre (fun _ _ h ↦ h.2) ?_) v hv rfl
  subst hs
  refine .bind (measure_rule hstage) fun d ↦ .bind (decide_rule rfl) fun now ↦ ?_
  have hdeciding : Deciding v.log.events k d now { v with
      log := ⟨.decided, .pass (glance vehicleDetectCm d) now none :: v.log.events⟩ } :=
    ⟨rfl, hrun, hagree.state, hagree.exitTimer, hagree.waitTimer⟩
  exact .bind (dispatch_done hdeciding) fun _ ↦ signal_atTop

/-- The end of a turn is not an event. -/
theorem events_of_signals {pre tr : List GateLabel} (htr : ∀ l ∈ tr, IsSignal l) :
    gateEvents (pre ++ tr) = gateEvents pre := by
  induction tr generalizing pre with
  | nil => rw [List.append_nil]
  | cons l tr ih =>
    obtain ⟨⟨o, r, ho, rfl⟩, hrest⟩ := List.forall_mem_cons.mp htr
    rw [List.append_cons, ih hrest, gateEvents, gateEvents, log_append]
    cases o with
    | readState =>
      rw [GateLog.next]
      split_ifs <;> rfl
    | _ => first | rfl | exact ho.elim

/-- In every run, what has been logged was possible, and at the top of the loop the module is where
the log says. -/
theorem sound_of_reachable {c : GateConfig} (hc : GateReachable c) :
    Sound (ofSnap c.toSnap) ∧ (AtLoopTop c → AtTop (ofSnap c.toSnap)) := by
  have hinit : AtTop (view.proj ⟨.init, []⟩) :=
    ⟨rfl, .init, rfl, rfl, (nomatch ·), fun h ↦ h.elim (nomatch ·) (nomatch ·)⟩
  exact sound_of_turn (W := view) (c := .init .init) stateMachineTurn_atTop rfl ⟨.init, rfl⟩ hinit
    hc (always_of_forall fun _ _ ↦ trivial)

end Controlled

/-- **The kernel module follows the automaton.** In every run, what has happened to the module is
possible for the automaton, and at the top of the loop the module is in the state that it leads to,
with the running timer as the automaton has it. -/
theorem gate_follows_law {c : GateConfig} (hc : GateReachable c) :
    (∃ k, kernelLaw.run (gateEvents c.trace) = some k)
      ∧ (AtLoopTop c → ∃ k, kernelLaw.run (gateEvents c.trace) = some k
        ∧ c.state.currentState = k.state
        ∧ (k.state = .exitRequested → c.state.var .exitRequestTime = k.since)
        ∧ (k.state = .entryWaiting ∨ k.state = .exitVehicleWaiting →
          c.state.var .lastVehicleDetect = k.since)) := by
  obtain ⟨hsound, htop⟩ := Controlled.sound_of_reachable hc
  refine ⟨hsound, fun hidle ↦ ?_⟩
  obtain ⟨-, k, hrun, hagree⟩ := htop hidle
  exact ⟨k, hrun, hagree.state, hagree.exitTimer, hagree.waitTimer⟩

/-! ### Turns and their events -/

section Turns

variable {pre : List GateLabel} {e : Echo} {t now : ℤ}

theorem foldl_opening (g : GateLog) : opening.foldl GateLog.next g = g := by
  have hsteps (n : ℕ) : (List.replicate n (.op () .openingStep ())).foldl GateLog.next g = g := by
    induction n with
    | zero => rfl
    | succ n ih => exact ih
  exact hsteps _

theorem events_turnHead (h : (GateLog.of pre).stage = .fresh) (s : SystemState) :
    gateEvents (pre ++ turnHead s e now)
      = .pass (glance vehicleDetectCm (ultrasonicDistance e)) now none :: gateEvents pre := by
  rw [GateLog.of] at h
  simp [gateEvents, GateLog.of, turnHead, measured, GateLog.next, GateLog.tick, h]

/-- An opening movement in the middle is not logged. -/
theorem events_around_opening (pre post : List GateLabel) :
    gateEvents (pre ++ opening ++ post) = gateEvents (pre ++ post) := by
  rw [gateEvents, gateEvents, GateLog.of, GateLog.of, List.foldl_append, List.foldl_append,
    List.foldl_append, foldl_opening]

theorem events_entryTurn (h : (GateLog.of pre).stage = .fresh) :
    gateEvents (pre ++ entryTurn e now)
      = .pass (glance vehicleDetectCm (ultrasonicDistance e)) now none :: gateEvents pre := by
  rw [GateLog.of] at h
  rw [entryTurn, ← List.append_assoc, ← List.append_assoc, events_around_opening]
  simp [gateEvents, GateLog.of, turnHead, measured, GateLog.next, GateLog.tick, h]

theorem events_goneTurn (h : (GateLog.of pre).stage = .fresh) :
    gateEvents (pre ++ goneTurn e now)
      = .pass (glance vehicleDetectCm (ultrasonicDistance e)) now none :: gateEvents pre := by
  rw [GateLog.of] at h
  simp [gateEvents, GateLog.of, goneTurn, turnHead, measured, GateLog.next, GateLog.tick, h]

theorem events_exitTurn (h : (GateLog.of pre).stage = .fresh) :
    gateEvents (pre ++ .ext .press :: exitTurn t e now)
      = .pass (glance vehicleDetectCm (ultrasonicDistance e)) now none
        :: .press t :: gateEvents pre := by
  have hsplit : pre ++ .ext .press :: exitTurn t e now
      = (pre ++ [.ext .press, .start () (), .op () .xchgSwitchPressed true, .op () .readState .idle,
          .op () (.prInfo .exitOpen) ()]) ++ opening
        ++ ([.op () .ktime t, .op () (.store .exitRequestTime t) (),
            .op () (.writeState .exitRequested) ()] ++ measured .exitRequested e now
          ++ [.op () (.prInfo (.exitVehicle (ultrasonicDistance e))) (),
            .op () (.writeState .exitVehicleDetected) (),
            .op () (.store .lastVehicleDetect now) ()]) := by
    simp [exitTurn, exitOpening]
  rw [GateLog.of] at h
  rw [hsplit, events_around_opening]
  simp [gateEvents, GateLog.of, measured, GateLog.next, GateLog.tick, h]

end Turns

theorem glance_ofCm : glance vehicleDetectCm (ultrasonicDistance (.ofCm 5)) = .near := by
  rw [ultrasonicDistance_ofCm (by decide) (by decide)]
  rfl

theorem glance_silent : glance vehicleDetectCm (ultrasonicDistance .silent) = .lost := by
  rw [ultrasonicDistance_silent]
  rfl

theorem stage_of_reachable {c : GateConfig} (hc : GateReachable c) (htop : AtLoopTop c) :
    (GateLog.of c.trace).stage = .fresh :=
  ((Controlled.sound_of_reachable hc).2 htop).1

/-- A vehicle comes, and is gone. -/
theorem entry_turns : ∃ c : GateConfig, GateReachable c ∧ AtLoopTop c
    ∧ gateEvents c.trace = [.pass .lost 7 none, .pass .near 0 none] := by
  have hin : VehicleInRange (ultrasonicDistance (.ofCm 5)) := vehicleInRange_ofCm (by decide)
  obtain ⟨c₁, h₁, htop₁, hp₁, hs₁, tr₁, htr₁, hsig₁⟩ :=
    turn_entry (c := .init .init) 0 rfl rfl rfl hin
  obtain ⟨c₂, h₂, htop₂, -, -, -, tr₂, htr₂, hsig₂⟩ :=
    turn_entry_gone 7 htop₁ hp₁ hs₁ ultrasonicDistance_silent_neg
  have hc₁ : GateReachable c₁ := h₁
  refine ⟨c₂, hc₁.trans h₂, htop₂, ?_⟩
  rw [htr₂, Controlled.events_of_signals hsig₂, events_goneTurn (stage_of_reachable hc₁ htop₁),
    htr₁, Controlled.events_of_signals hsig₁, events_entryTurn rfl, glance_ofCm, glance_silent]
  rfl

/-- Nothing is seen; a press, and a vehicle that leaves. -/
theorem exit_turns : ∃ c : GateConfig, GateReachable c ∧ AtLoopTop c
    ∧ gateEvents c.trace = [.pass .near 5 none, .press 3, .pass .lost 0 none] := by
  have hin : VehicleInRange (ultrasonicDistance (.ofCm 5)) := vehicleInRange_ofCm (by decide)
  have hstill : dispatch .idle (ultrasonicDistance .silent) 0 = pure () := by
    rw [ultrasonicDistance_silent]
    rfl
  obtain ⟨c₁, h₁, htop₁, -, hs₁, tr₁, htr₁, hsig₁⟩ :=
    turn_still (c := .init .init) (e := .silent) 0 rfl rfl hstill
  have hc₁ : GateReachable c₁ := h₁
  let c : GateConfig := ⟨c₁.toSnap.log { c₁.state with switchPressed := true } (.ext .press),
    c₁.thread⟩
  have hpress : gateMachine.Step c₁ c := .ext (e := GateEvent.press) rfl
  obtain ⟨c₂, h₂, htop₂, -, -, tr₂, htr₂, hsig₂⟩ :=
    turn_exit_press (c := c) 3 5 htop₁ rfl hs₁ hin
  refine ⟨c₂, (hc₁.tail hpress).trans h₂, htop₂, ?_⟩
  have hc : c.trace = c₁.trace ++ [.ext .press] := rfl
  rw [htr₂, Controlled.events_of_signals hsig₂, hc, List.append_assoc, List.singleton_append,
    events_exitTurn (stage_of_reachable hc₁ htop₁), htr₁, Controlled.events_of_signals hsig₁,
    events_turnHead rfl, glance_ofCm, glance_silent]
  rfl

/-- A vehicle has come and gone, and the gate waits since then whether it comes back. -/
theorem gate_follows_law_waiting : ∃ c, GateReachable c ∧ AtLoopTop c
    ∧ kernelLaw.run (gateEvents c.trace) = some ⟨.entryWaiting, 7⟩ := by
  obtain ⟨c, hc, htop, -, hstate, htimer, -⟩ :=
    entryWaiting_reachable (vehicleInRange_ofCm (d := 5) (by decide)) ultrasonicDistance_silent_neg
      5 7
  obtain ⟨⟨s, t⟩, hrun, rfl, -, hwait⟩ := (gate_follows_law hc).2 htop
  obtain rfl : c.state.var .lastVehicleDetect = t := hwait (.inl hstate)
  exact ⟨c, hc, htop, hstate ▸ htimer ▸ hrun⟩

end ParkingService
