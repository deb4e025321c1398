import ParkingService.Slot.Occupancy

/-!
# What a slot does with what happens to it

The driver runs both slots on one work queue, with a timer, two buttons and two echo pins around it.
Seen from one slot, all this is a timed automaton: `LockControl` says what becomes of it by readings
that find it empty or occupied, by presses of its button and by rotations of its bar that have come
to an end. `slot_follows_law` says that the driver follows it, for each slot, whatever the
interleaving; since the automaton knows of one slot only, `slots_independent` is immediate.

Three threads have a hand in it. A reading counts from the moment at which the worker knows all that
it needs, which is when it has read the lock state or, if a stay is timed, the clock; what it then
writes comes later. A press counts when it is written, or when it turns out that there is nothing to
write. The two do not get into each other's way because a press changes a locked slot only, and the
worker any other: the lock state of a slot that is not locked is the worker's, as `lock_holds` has
it.
-/

namespace ParkingService.Slots

open Concurrency

/-! ## The automaton -/

/-- The state of a slot, with what goes with it while a stay is timed: since when, and how many
readings in succession have found the slot empty. -/
inductive LockMode
  | free
  | timing (since empties : ℤ)
  | locking
  | locked
  | unlocking
  | waitEmpty
  deriving DecidableEq

/-- What happens to a slot. -/
inductive LockEvent
  /-- a reading that finds it occupied, at this time, while that matters -/
  | occupied (now : ℤ)
  /-- a reading that finds it empty -/
  | empty
  /-- its button, at this time -/
  | press (now : ℤ)
  /-- its bar has turned -/
  | turned
  deriving DecidableEq

namespace LockMode

/-- `lock_st` -/
def lockSt : LockMode → LockState
  | free => .free
  | timing _ _ => .timing
  | locking => .locking
  | locked => .locked
  | unlocking => .unlocking
  | waitEmpty => .waitEmpty

def occupied (now : ℤ) : LockMode → LockMode
  | free => timing now 0
  | timing since _ => if lockTimeoutMs ≤ ktimeToMs (now - since) then locking else timing since 0
  | m => m

def empty : LockMode → LockMode
  | timing since n => if unoccupiedReleaseCount ≤ n + 1 then free else timing since (n + 1)
  | waitEmpty => free
  | m => m

def release : LockMode → LockMode
  | locked => unlocking
  | m => m

/-- The bar only turns if it was told to. -/
def turn : LockMode → Option LockMode
  | locking => some locked
  | unlocking => some waitEmpty
  | _ => none

/-- Neither up nor about to go down. -/
def Down (m : LockMode) : Prop := m ≠ .locked ∧ m ≠ .unlocking

theorem release_of_ne {m : LockMode} (h : m ≠ .locked) : m.release = m := by
  cases m <;> first | rfl | exact absurd rfl h

end LockMode

/-- A slot, and when its button was last accepted. -/
structure LockControl where
  mode : LockMode
  lastPress : ℤ
  deriving DecidableEq

namespace LockControl

/-- As `parking_init` leaves it. -/
def init : LockControl := ⟨.free, 0⟩

/-- `DEBOUNCE_MS` have passed. -/
def Accepts (k : LockControl) (now : ℤ) : Prop := ¬ktimeToMs (now - k.lastPress) < debounceMs

instance (k : LockControl) (now : ℤ) : Decidable (k.Accepts now) :=
  inferInstanceAs (Decidable (¬_))

def press (now : ℤ) (k : LockControl) : LockControl :=
  if k.Accepts now then ⟨k.mode.release, now⟩ else k

def apply : LockEvent → LockControl → Option LockControl
  | .occupied now, k => some { k with mode := k.mode.occupied now }
  | .empty, k => some { k with mode := k.mode.empty }
  | .press now, k => some (k.press now)
  | .turned, k => k.mode.turn.map fun m ↦ { k with mode := m }

/-- What has become of a slot after these events, newest first. -/
def run : List LockEvent → Option LockControl
  | [] => some .init
  | e :: es => (run es).bind (apply e)

variable {k k' : LockControl} {es : List LockEvent} {e : LockEvent} {now : ℤ}

theorem run_cons (h : run es = some k) : run (e :: es) = apply e k := by
  rw [run, h]
  rfl

theorem press_mode : (k.press now).mode = k.mode
    ∨ k.mode = .locked ∧ (k.press now).mode = .unlocking := by
  rw [press]
  split_ifs
  · by_cases hlocked : k.mode = .locked
    · exact .inr ⟨hlocked, by rw [hlocked]; rfl⟩
    · exact .inl (LockMode.release_of_ne hlocked)
  · exact .inl rfl

/-- Only the button knows about the button. -/
theorem lastPress_of_apply (h : apply e k = some k') (he : ∀ now, e ≠ .press now) :
    k'.lastPress = k.lastPress := by
  cases e with
  | occupied | empty =>
    obtain rfl := Option.some.inj h
    rfl
  | press now => exact absurd rfl (he now)
  | turned =>
    obtain ⟨m, -, rfl⟩ := Option.map_eq_some_iff.mp h
    rfl

end LockControl

/-! ## What has happened -/

/-- Where the worker is with a reading of the slot. -/
inductive ReadingStage
  | rest
  /-- it has taken one -/
  | seen (occupied : Bool)
  /-- it is going to look at the clock -/
  | timed
  deriving DecidableEq

/-- What the labels tell about a slot. -/
structure LockLog where
  stage : ReadingStage
  /-- what the clock has told the button last -/
  pressed : ℤ
  events : List LockEvent

namespace LockLog

def init : LockLog := ⟨.rest, 0, []⟩

/-- The worker has read the lock state. -/
def look (st : LockState) (g : LockLog) : LockLog :=
  match g.stage with
  | .seen true => { g with stage := if st = .free ∨ st = .timing then .timed else .rest }
  | .seen false => { g with stage := .rest, events := .empty :: g.events }
  | _ => g

/-- The worker has read the clock. -/
def clock (now : ℤ) (g : LockLog) : LockLog :=
  if g.stage = .timed then { g with stage := .rest, events := .occupied now :: g.events } else g

def press (g : LockLog) : LockLog := { g with events := .press g.pressed :: g.events }

/-- One more operation of the worker. -/
def worker (i : Slot) (g : LockLog) : (o : SlotOp) → o.Resp → LockLog
  | .takeEcho j, r =>
    if j = i ∧ ValidEcho (ktimeToUs (r.2 - r.1)) then
      { g with stage := .seen (decide (echoCm (ktimeToUs (r.2 - r.1)) ≤ occupiedThresholdCm)) }
    else g
  | .readLockSt j, st => if j = i then g.look st else g
  | .ktime, now => g.clock now
  | .setLockSt j st, _ =>
    if j = i ∧ (st = .locked ∨ st = .waitEmpty) then { g with events := .turned :: g.events } else g
  | _, _ => g

/-- One more operation of the button. -/
def button (i : Slot) (g : LockLog) : (o : SlotOp) → o.Resp → LockLog
  | .ktime, now => { g with pressed := now }
  | .load j .lastBtnTime, last =>
    if j = i ∧ ktimeToMs (g.pressed - last) < debounceMs then g.press else g
  | .readLockSt j, st => if j = i ∧ st ≠ .locked then g.press else g
  | .setLockSt j _, _ => if j = i then g.press else g
  | _, _ => g

def next (i : Slot) (g : LockLog) : SlotLabel → LockLog
  | .op .worker o r => g.worker i o r
  | .op (.button j) o r => if j = i then g.button i o r else g
  | _ => g

def of (i : Slot) (tr : List SlotLabel) : LockLog := tr.foldl (next i) init

variable (i : Slot) (g : LockLog) (o : SlotOp) (r : o.Resp)

/-- The worker logs one event at most, and never a press. -/
theorem worker_cases : (∃ stage, g.worker i o r = { g with stage := stage })
    ∨ ∃ stage e, (∀ now, e ≠ .press now)
      ∧ g.worker i o r = ⟨stage, g.pressed, e :: g.events⟩ := by
  unfold worker
  split
  · split_ifs
    · exact .inl ⟨_, rfl⟩
    · exact .inl ⟨g.stage, rfl⟩
  · split_ifs
    · unfold look
      split
      · exact .inl ⟨_, rfl⟩
      · exact .inr ⟨_, .empty, fun _ ↦ LockEvent.noConfusion, rfl⟩
      · exact .inl ⟨g.stage, rfl⟩
    · exact .inl ⟨g.stage, rfl⟩
  · unfold clock
    split_ifs
    · exact .inr ⟨_, .occupied _, fun _ ↦ LockEvent.noConfusion, rfl⟩
    · exact .inl ⟨g.stage, rfl⟩
  · split_ifs
    · exact .inr ⟨g.stage, .turned, fun _ ↦ LockEvent.noConfusion, rfl⟩
    · exact .inl ⟨g.stage, rfl⟩
  · exact .inl ⟨g.stage, rfl⟩

/-- The button logs presses only, at the time it has been told. -/
theorem button_cases : (∃ now, g.button i o r = { g with pressed := now })
    ∨ g.button i o r = g.press := by
  unfold button
  split
  · exact .inl ⟨_, rfl⟩
  all_goals first | exact .inl ⟨g.pressed, rfl⟩ | split_ifs
  all_goals first | exact .inr rfl | exact .inl ⟨g.pressed, rfl⟩

end LockLog

/-- What has happened to slot `i`, newest first. -/
def lockEvents (i : Slot) (tr : List SlotLabel) : List LockEvent := (LockLog.of i tr).events

/-! ### A slot and its log -/

/-- The variables that a slot is controlled by. -/
structure LockVars where
  lockSt : LockState
  watched : ℤ × ℤ
  lastBtnTime : ℤ

def SensorDev.lockVars (d : SensorDev) : LockVars := ⟨d.lockSt, d.watched, d.lastBtnTime⟩

/-- What a label does to the variables of slot `i`. -/
def LockVars.next (i : Slot) (v : LockVars) : SlotLabel → LockVars
  | .op _ (.setLockSt j st) _ => if j = i then { v with lockSt := st } else v
  | .op _ (.store j .occupyStart y) _ => if j = i then { v with watched := (y, v.watched.2) } else v
  | .op _ (.store j .consecutiveUnoccupied y) _ =>
    if j = i then { v with watched := (v.watched.1, y) } else v
  | .op _ (.store j .lastBtnTime y) _ => if j = i then { v with lastBtnTime := y } else v
  | _ => v

variable {i : Slot} {s : SlotSnap} {l : SlotLabel} {x : Driver}

theorem lockVars_of_emits {x' : Driver} (hx : slotMachine.Emits x l x') :
    (x'.sensor i).lockVars = (x.sensor i).lockVars.next i l := by
  cases l with
  | start t j =>
    rw [sensor_of_start hx]
    rfl
  | op t o r =>
    obtain ⟨-, rfl⟩ := emits_op.mp hx
    cases o with
    | setLockSt j st =>
      rw [SlotOp.effect, LockVars.next]
      split_ifs with hji
      · rw [hji, Driver.modify_sensor_self]
        rfl
      · rw [Driver.modify_sensor_of_ne _ _ (Ne.symm hji)]
    | store j v y =>
      rw [SlotOp.effect]
      by_cases hji : j = i
      · rw [hji, Driver.modify_sensor_self]
        cases v <;> exact (if_pos rfl).symm
      · rw [Driver.modify_sensor_of_ne _ _ (Ne.symm hji)]
        cases v <;> exact (if_neg hji).symm
    | queueWork w =>
      rw [SlotOp.effect, Driver.queueWork_sensor]
      rfl
    | request j =>
      rw [SlotOp.effect]
      refine x.modify_sensor_congr j i _ SensorDev.lockVars fun d ↦ ?_
      split <;> rfl
    | fireTrigger | readOccupied | notify | ktime | load | readLockSt | readLockPending | printk =>
      rfl
    | _ =>
      rw [SlotOp.effect]
      exact x.modify_sensor_congr _ i _ SensorDev.lockVars fun _ ↦ rfl
  | ext e =>
    obtain ⟨j, now, pinVal⟩ := e
    obtain rfl : (SlotEvent.echoIsr j now pinVal).exec x = x' := Option.some.inj hx
    obtain ⟨-, -, hexec⟩ | ⟨-, -, hexec⟩ | ⟨-, -, hexec⟩ := SlotEvent.exec_cases j now pinVal x
    · rw [hexec]
      exact x.modify_sensor_congr j i _ SensorDev.lockVars fun _ ↦ rfl
    · rw [hexec, Driver.queueWork_sensor]
      exact x.modify_sensor_congr j i _ SensorDev.lockVars fun _ ↦ rfl
    · rw [hexec]
      rfl

/-- The variables of a slot, and what has happened to it. -/
structure LockBoard extends LockVars where
  log : LockLog

namespace LockBoard

def of (i : Slot) (s : SlotSnap) : LockBoard := ⟨(s.state.sensor i).lockVars, .of i s.trace⟩

def next (i : Slot) (b : LockBoard) (l : SlotLabel) : LockBoard :=
  ⟨b.toLockVars.next i l, b.log.next i l⟩

theorem of_log (hx : slotMachine.Emits s.state l x) : of i (s.log x l) = (of i s).next i l := by
  have hlog : LockLog.of i (s.trace ++ [l]) = (LockLog.of i s.trace).next i l := List.foldl_append
  rw [of, Snap.log_state, Snap.log_trace, lockVars_of_emits hx, hlog]
  rfl

end LockBoard

/-! ## The outline -/

namespace LockMode

/-- The variables are what the automaton says; those of a stay count only while it is timed. -/
def Agrees (m : LockMode) (v : LockVars) : Prop :=
  v.lockSt = m.lockSt ∧ ∀ since n, m = .timing since n → v.watched = (since, n)

theorem lockSt_eq_locked {m : LockMode} : m.lockSt = .locked ↔ m = .locked := by
  cases m <;> simp [lockSt]

theorem lockSt_eq_unlocking {m : LockMode} : m.lockSt = .unlocking ↔ m = .unlocking := by
  cases m <;> simp [lockSt]

end LockMode

namespace LockBoard

/-- What has happened was possible, and led to a locked slot, or to one that is being unlocked, if
and only if the slot is. -/
def Lawful (b : LockBoard) : Prop := ∃ k, LockControl.run b.log.events = some k
  ∧ (k.mode = .locked ↔ b.lockSt = .locked) ∧ (k.mode = .unlocking ↔ b.lockSt = .unlocking)

/-- The worker is at this stage of a reading, and the slot is where the automaton is. -/
def At (g : ReadingStage) (b : LockBoard) : Prop := b.log.stage = g
  ∧ ∃ k, LockControl.run b.log.events = some k ∧ k.mode.Agrees b.toLockVars

/-- The automaton is ahead of what the worker has written. -/
def Ahead (g : ReadingStage) (m : LockMode) (st : LockState) (w : ℤ × ℤ) (b : LockBoard) : Prop :=
  b.log.stage = g ∧ (∃ k, LockControl.run b.log.events = some k ∧ k.mode = m) ∧ b.lockSt = st
    ∧ b.watched = w

/-- The button has been accepted when the automaton says. -/
def Quiet (b : LockBoard) : Prop :=
  ∃ k, LockControl.run b.log.events = some k ∧ k.lastPress = b.lastBtnTime

/-- The button has looked at the clock. -/
def Pressing (now : ℤ) (b : LockBoard) : Prop := b.log.pressed = now ∧ b.Quiet

/-- The button is going to be accepted. -/
def Due (now : ℤ) (b : LockBoard) : Prop := b.log.pressed = now
  ∧ ∃ k, LockControl.run b.log.events = some k ∧ k.Accepts now

/-- The button is accepted, which is not logged yet. -/
def Accepted (now : ℤ) (b : LockBoard) : Prop := b.Due now ∧ b.lastBtnTime = now

variable {b b' : LockBoard} {g : ReadingStage} {m : LockMode} {st : LockState} {w : ℤ × ℤ} {now : ℤ}

theorem At.lawful (h : b.At g) : b.Lawful := by
  obtain ⟨-, k, hrun, hst, -⟩ := h
  exact ⟨k, hrun, by rw [hst, LockMode.lockSt_eq_locked], by rw [hst, LockMode.lockSt_eq_unlocking]⟩

theorem Ahead.lawful (h : b.Ahead g m st w) (hm : m.Down) (hst : st ≠ .locked ∧ st ≠ .unlocking) :
    b.Lawful := by
  obtain ⟨-, ⟨k, hrun, rfl⟩, rfl, -⟩ := h
  exact ⟨k, hrun, iff_of_false hm.1 hst.1, iff_of_false hm.2 hst.2⟩

/-- What has been written catches up with the automaton. -/
theorem Ahead.settled (h : b.Ahead g m st w) (hm : m.Agrees ⟨st, w, b.lastBtnTime⟩) : b.At g := by
  obtain ⟨hstage, ⟨k, hrun, rfl⟩, rfl, rfl⟩ := h
  exact ⟨hstage, k, hrun, hm⟩

/-! ### What the others do -/

/-- What a step of the others may do to the worker's business: a press. -/
structure Pressed (b b' : LockBoard) : Prop where
  stage : b'.log.stage = b.log.stage
  watched : b'.watched = b.watched
  events : b'.log.events = b.log.events ∨ ∃ now, b'.log.events = .press now :: b.log.events
  lockSt : b'.lockSt = b.lockSt ∨ b.lockSt = .locked ∧ b'.lockSt = .unlocking

/-- Afterwards the automaton is where it was, or has left the locked state. -/
theorem Pressed.run {k : LockControl} (h : Pressed b b')
    (hrun : LockControl.run b.log.events = some k) :
    ∃ k', LockControl.run b'.log.events = some k'
      ∧ (k'.mode = k.mode ∨ k.mode = .locked ∧ k'.mode = .unlocking) := by
  obtain hevents | ⟨now, hevents⟩ := h.events
  · exact ⟨k, by rw [hevents, hrun], .inl rfl⟩
  · exact ⟨k.press now, by rw [hevents, LockControl.run_cons hrun]; rfl, LockControl.press_mode⟩

theorem At.pressed (hat : b.At g) (h : Pressed b b') (hb' : b'.Lawful) : b'.At g := by
  obtain ⟨hstage, k, hrun, hst, hwatched⟩ := hat
  obtain ⟨k', hrun', hmode⟩ := h.run hrun
  obtain ⟨k₀, hrun₀, -, hunlocking⟩ := hb'
  obtain rfl : k' = k₀ := Option.some.inj (hrun'.symm.trans hrun₀)
  refine ⟨h.stage.trans hstage, k', hrun', ?_⟩
  obtain hsame | ⟨hlocked, hnew⟩ := hmode
  · rw [hsame] at hunlocking ⊢
    refine ⟨?_, fun since n hm ↦ h.watched.trans (hwatched since n hm)⟩
    obtain hst' | ⟨hbefore, hafter⟩ := h.lockSt
    · exact hst'.trans hst
    · -- it would be locked and unlocking at once
      rw [hunlocking.mpr hafter, hbefore] at hst
      cases hst
  · rw [hnew]
    exact ⟨hunlocking.mp hnew, fun _ _ hm ↦ by cases hm⟩

theorem Ahead.pressed (hahead : b.Ahead g m st w) (h : Pressed b b') (hm : m ≠ .locked)
    (hst : st ≠ .locked) : b'.Ahead g m st w := by
  obtain ⟨hstage, ⟨k, hrun, rfl⟩, rfl, rfl⟩ := hahead
  obtain ⟨k', hrun', hmode⟩ := h.run hrun
  refine ⟨h.stage.trans hstage, ⟨k', hrun', ?_⟩, ?_, h.watched⟩
  · exact hmode.resolve_right fun hlocked ↦ hm hlocked.1
  · exact h.lockSt.resolve_right fun hlocked ↦ hst hlocked.1

/-- What a step of the others may do to the business of the button: anything but a press. -/
structure Worked (b b' : LockBoard) : Prop where
  pressed : b'.log.pressed = b.log.pressed
  lastBtnTime : b'.lastBtnTime = b.lastBtnTime
  events : b'.log.events = b.log.events
    ∨ ∃ e, (∀ now, e ≠ .press now) ∧ b'.log.events = e :: b.log.events

theorem Worked.run {k : LockControl} (h : Worked b b') (hb' : b'.Lawful)
    (hrun : LockControl.run b.log.events = some k) :
    ∃ k', LockControl.run b'.log.events = some k' ∧ k'.lastPress = k.lastPress := by
  obtain ⟨k', hrun', -⟩ := hb'
  refine ⟨k', hrun', ?_⟩
  obtain hevents | ⟨e, he, hevents⟩ := h.events
  · rw [hevents, hrun] at hrun'
    rw [Option.some.inj hrun']
  · rw [hevents, LockControl.run_cons hrun] at hrun'
    exact LockControl.lastPress_of_apply hrun' he

theorem Quiet.worked (hq : b.Quiet) (h : Worked b b') (hb' : b'.Lawful) : b'.Quiet := by
  obtain ⟨k, hrun, hlast⟩ := hq
  obtain ⟨k', hrun', hlast'⟩ := h.run hb' hrun
  exact ⟨k', hrun', hlast'.trans (hlast.trans h.lastBtnTime.symm)⟩

theorem Pressing.worked (hp : b.Pressing now) (h : Worked b b') (hb' : b'.Lawful) :
    b'.Pressing now :=
  ⟨h.pressed.trans hp.1, hp.2.worked h hb'⟩

theorem Due.worked (hd : b.Due now) (h : Worked b b') (hb' : b'.Lawful) : b'.Due now := by
  obtain ⟨hpressed, k, hrun, haccepts⟩ := hd
  obtain ⟨k', hrun', hlast'⟩ := h.run hb' hrun
  refine ⟨h.pressed.trans hpressed, k', hrun', ?_⟩
  rw [LockControl.Accepts, hlast']
  exact haccepts

theorem Accepted.worked (ha : b.Accepted now) (h : Worked b b') (hb' : b'.Lawful) :
    b'.Accepted now :=
  ⟨ha.1.worked h hb', h.lastBtnTime.trans ha.2⟩

end LockBoard

/-- Slot `i` has followed the automaton, and nobody else has touched what belongs to its button. -/
structure LawSound (i : Slot) (s : SlotSnap) : Prop where
  lawful : (LockBoard.of i s).Lawful
  owned : Always (fun _ l ↦ ∀ t y, l = .op t (.store i .lastBtnTime y) () → t = .button i) s.trace

/-- Bars are known to be sound, and the variables of a stay to be the worker's. -/
def lawOutline : Outline slotMachine where
  known s := watchOutline.Good s
  inv s := ∀ i, LawSound i s

namespace LockBoard

variable {t : Thread} {b : LockBoard} {o : SlotOp} {r : o.Resp}

theorem next_of_other (hl : l.by? ≠ some .worker) : (b.next i l).log.stage = b.log.stage
    ∧ ((b.next i l).log.events = b.log.events
      ∨ ∃ now, (b.next i l).log.events = .press now :: b.log.events) := by
  cases l with
  | op t o r =>
    cases t with
    | worker => exact absurd rfl hl
    | timer => exact ⟨rfl, .inl rfl⟩
    | button j =>
      rw [next, LockLog.next]
      split_ifs
      · obtain ⟨now, hlog⟩ | hlog := b.log.button_cases i o r
        · rw [hlog]
          exact ⟨rfl, .inl rfl⟩
        · rw [hlog]
          exact ⟨rfl, .inr ⟨_, rfl⟩⟩
      · exact ⟨rfl, .inl rfl⟩
  | _ => exact ⟨rfl, .inl rfl⟩

/-- To the worker, a step of anyone else is a press or nothing. -/
theorem pressed_of_other (hs : lawOutline.Good s) (hs' : lawOutline.Good (s.log x l))
    (hl : l.by? ≠ some .worker) (hx : slotMachine.Emits s.state l x) :
    Pressed (of i s) (of i (s.log x l)) := by
  have hharmless := harmless_of_other hs'.1 hl hx i
  have hnext := next_of_other (i := i) (b := of i s) hl
  rw [← of_log hx] at hnext
  refine ⟨hnext.1, hharmless.vars, hnext.2, ?_⟩
  cases hm : move? i l with
  | none =>
    refine .inl ?_
    obtain ⟨b, hb, hmatches⟩ := (hs.1.1 i).lawful
    exact (hmatches.stay hx hm).lockSt.trans hmatches.lockSt.symm
  | some m =>
    obtain ⟨b', hb', hmatches'⟩ := (hs'.1.1 i).lawful
    obtain ⟨b, hb, hmove⟩ := (barOf_append_of_some hm).mp hb'
    have hmatches := (hs.1.1 i).matches_bar hb
    obtain ⟨b₀, hb₀, hby⟩ := (always_append_singleton.mp (hs'.1.1 i).owned).2 m hm
    obtain rfl : b₀ = b := Option.some.inj (hb₀.symm.trans hb)
    rw [hby] at hl
    have hst : (of i (s.log x l)).lockSt = b'.lockSt := hmatches'.lockSt
    rw [hst, show (of i s).lockSt = b₀.lockSt from hmatches.lockSt]
    cases hmove with
    | unlock => exact .inr ⟨rfl, rfl⟩
    | @flag p | @queue p | @start p | @read p | @step p => exact .inl rfl
    | @finish p => cases p <;> exact absurd rfl hl
    | _ => exact absurd rfl hl

theorem worked_of_other (hs' : lawOutline.Good (s.log x l)) (hl : l.by? ≠ some (.button i))
    (hx : slotMachine.Emits s.state l x) : Worked (of i s) (of i (s.log x l)) := by
  have hlast : (of i (s.log x l)).lastBtnTime = (of i s).lastBtnTime := by
    rw [of_log hx]
    cases l with
    | op t o r =>
      cases o with
      | store j v y =>
        cases v with
        | lastBtnTime =>
          refine congrArg LockVars.lastBtnTime (if_neg ?_)
          rintro rfl
          have howned := (always_append_singleton.mp (hs'.2 j).owned).2
          exact hl (congrArg some (howned t y rfl))
        | _ =>
          simp only [next, LockVars.next]
          split_ifs <;> rfl
      | setLockSt j st =>
        simp only [next, LockVars.next]
        split_ifs <;> rfl
      | _ => rfl
    | _ => rfl
  suffices h : ((of i s).next i l).log.pressed = (of i s).log.pressed
      ∧ (((of i s).next i l).log.events = (of i s).log.events ∨ ∃ e, (∀ now, e ≠ .press now)
        ∧ ((of i s).next i l).log.events = e :: (of i s).log.events) by
    refine ⟨?_, hlast, ?_⟩
    · rw [of_log hx]
      exact h.1
    · rw [of_log hx]
      exact h.2
  cases l with
  | op t o r =>
    cases t with
    | timer => exact ⟨rfl, .inl rfl⟩
    | button j =>
      have hji : j ≠ i := fun h ↦ hl (by rw [h]; rfl)
      have hlog : ((of i s).next i (.op (.button j) o r)).log = (of i s).log := if_neg hji
      rw [hlog]
      exact ⟨rfl, .inl rfl⟩
    | worker =>
      rw [next, LockLog.next]
      obtain ⟨stage, hlog⟩ | ⟨stage, e, he, hlog⟩ := (of i s).log.worker_cases i o r
      · rw [hlog]
        exact ⟨rfl, .inl rfl⟩
      · rw [hlog]
        exact ⟨rfl, .inr ⟨e, he, rfl⟩⟩
  | _ => exact ⟨rfl, .inl rfl⟩

end LockBoard

/-! ## The worker -/

/-- Operations that have nothing to do with slot `j`, unless it waits for the clock. -/
def SlotOp.Spares (j : Slot) : SlotOp → Prop
  | .takeEcho k | .readLockSt k | .setLockSt k _ | .store k _ _ => k ≠ j
  | _ => True

/-- The value of a variable. -/
def LockVars.get (v : LockVars) : SlotVar → ℤ
  | .occupyStart => v.watched.1
  | .consecutiveUnoccupied => v.watched.2
  | .lastBtnTime => v.lastBtnTime

namespace LockBoard

variable {b : LockBoard} {o : SlotOp} {r : o.Resp} {t : Thread} {j : Slot} {g : ReadingStage}
  {m : LockMode} {st : LockState} {w : ℤ × ℤ}

theorem next_spared (ho : o.Spares j) (hb : b.log.stage ≠ .timed) :
    b.next j (.op .worker o r) = b := by
  have hlog : b.log.worker j o r = b.log := by
    cases o with
    | takeEcho k => exact if_neg fun h ↦ ho h.1
    | readLockSt k => exact if_neg ho
    | setLockSt k st => exact if_neg fun h ↦ ho h.1
    | ktime => exact if_neg hb
    | _ => rfl
  have hvars : b.toLockVars.next j (.op .worker o r) = b.toLockVars := by
    cases o with
    | setLockSt k st => exact if_neg ho
    | store k v y => cases v <;> exact if_neg ho
    | _ => rfl
  rw [next, hvars, LockLog.next, hlog]

/-- What an answer says about the slot it is given at. -/
def Told (i : Slot) (b : LockBoard) : (o : SlotOp) → o.Resp → Prop
  | .readLockSt j, st => j = i → st = b.lockSt
  | .load j v, y => j = i → y = b.get v
  | _, _ => True

theorem told_of_answers (h : o.Answers r s.state) : (of i s).Told i o r := by
  cases o with
  | readLockSt j =>
    rintro rfl
    exact h
  | load j v =>
    rintro rfl
    cases v <;> exact h
  | _ => trivial

/-- An assertion of the worker about slot `i`. -/
def workerHolds (i : Slot) (P : LockBoard → Prop)
    (hP : ∀ b b', P b → Pressed b b' → b'.Lawful → P b') : lawOutline.Assertion .worker where
  holds s := P (of i s)
  stable hs hl hx hs' h := hP _ _ h (pressed_of_other hs hs' hl hx) (hs'.2 i).lawful

/-- The worker is at this stage with slot `i`. -/
def followed (i : Slot) (g : ReadingStage) : lawOutline.Assertion .worker :=
  workerHolds i (At g) fun _ _ hat h hb' ↦ hat.pressed h hb'

/-- The automaton of slot `i` is ahead. -/
def ahead (i : Slot) (g : ReadingStage) (m : LockMode) (st : LockState) (w : ℤ × ℤ)
    (hm : m ≠ .locked) (hst : st ≠ .locked) : lawOutline.Assertion .worker :=
  workerHolds i (Ahead g m st w) fun _ _ hahead h _ ↦ hahead.pressed h hm hst

/-- The worker is not concerned with the other slots. -/
def elsewhere (i : Slot) : lawOutline.Assertion .worker :=
  .all fun j : {j // j ≠ i} ↦ followed j.1 .rest

/-- The worker is not concerned with any slot. -/
def resting : lawOutline.Assertion .worker := .all fun i ↦ followed i .rest

theorem resting_of_followed (h : followed i .rest s) (helse : elsewhere i s) : resting s := by
  intro j
  by_cases hji : j = i
  · exact hji ▸ h
  · exact helse ⟨j, hji⟩

/-- Nobody but a button stores the time of a press. -/
theorem owned_of_op (hs : LawSound i s) (ho : ∀ j y, o ≠ .store j .lastBtnTime y) :
    Always (fun _ l ↦ ∀ t y, l = .op t (.store i .lastBtnTime y) () → t = .button i)
      (s.trace ++ [.op t o r]) := by
  refine always_append_singleton.mpr ⟨hs.owned, fun t y hl ↦ ?_⟩
  obtain ⟨-, rfl, -⟩ := Label.op.inj hl
  exact absurd rfl (ho i y)

/-- The bar of a slot in this lock state allows the lock state to be set. -/
def Allows (i : Slot) (b : LockBoard) (o : SlotOp) : Prop :=
  ∀ st, o = .setLockSt i st → ∃ c c', Bar.Moves (lockDir i) c (.become st) c' ∧ c.lockSt = b.lockSt

theorem allows_of_sound (hs : LockSound i s) (hs' : LockSound i (s.log x (.op t o r))) :
    (of i s).Allows i o := by
  rintro st rfl
  have hm : move? i (.op t (.setLockSt i st) r) = some (.become st) := if_pos rfl
  obtain ⟨c', hc', -⟩ := hs'.lawful
  obtain ⟨c, hc, hmove⟩ := (barOf_append_of_some hm).mp hc'
  exact ⟨c, c', hmove, (hs.matches_bar hc).lockSt.symm⟩

/-- An operation of the worker on slot `i`. -/
theorem worker_call {P : LockBoard → Prop} {Q : o.Resp → LockBoard → Prop}
    {hP : ∀ b b', P b → Pressed b b' → b'.Lawful → P b'}
    {hQ : ∀ r b b', Q r b → Pressed b b' → b'.Lawful → Q r b'}
    (hspares : ∀ j ≠ i, o.Spares j) (hbtn : ∀ j y, o ≠ .store j .lastBtnTime y)
    (h : ∀ b r, b.Lawful → P b → b.Told i o r → b.Allows i o →
      (b.next i (.op .worker o r)).Lawful ∧ Q r (b.next i (.op .worker o r))) :
    lawOutline.Triple .worker ((workerHolds i P hP).and (elsewhere i)) (perform o)
      fun r ↦ (workerHolds i (Q r) (hQ r)).and (elsewhere i) := by
  refine .call fun s r x hs hPs hexec hknown ↦ ?_
  have hx : slotMachine.Emits s.state (.op .worker o r) x := hexec
  obtain ⟨hP, helse⟩ := hPs
  obtain ⟨hlawful, hQ⟩ := h _ r (hs.2 i).lawful hP (told_of_answers (emits_op.mp hx).1)
    (allows_of_sound (hs.1.1 i) (hknown.1 i))
  have hsame (j : Slot) (hji : j ≠ i) : of j (s.log x (.op .worker o r)) = of j s := by
    have hrest : (of j s).log.stage = .rest := (helse ⟨j, hji⟩).1
    rw [of_log hx]
    exact next_spared (hspares j hji) (by rw [hrest]; exact ReadingStage.noConfusion)
  refine ⟨fun j ↦ ⟨?_, owned_of_op (hs.2 j) hbtn⟩, ?_, fun ⟨j, hji⟩ ↦ ?_⟩
  · by_cases hji : j = i
    · rw [hji, of_log hx]
      exact hlawful
    · rw [hsame j hji]
      exact (hs.2 j).lawful
  · change Q r (of i (s.log x (.op .worker o r)))
    rw [of_log hx]
    exact hQ
  · change At .rest (of j (s.log x (.op .worker o r)))
    rw [hsame j hji]
    exact helse ⟨j, hji⟩

/-- Operations that have nothing to do with any slot. -/
theorem spared_program {P : LockBoard → Prop} {α : Type} {p : SlotProg α}
    {hP : ∀ b b', P b → Pressed b b' → b'.Lawful → P b'} (hstage : ∀ b, P b → b.log.stage ≠ .timed)
    (hp : p.Uses fun o ↦ ∀ j, o.Spares j) :
    lawOutline.Triple .worker ((workerHolds i P hP).and (elsewhere i)) p
      fun _ ↦ (workerHolds i P hP).and (elsewhere i) := by
  induction p with
  | ret a => exact .ret fun _ _ h ↦ h
  | op o k ih =>
    refine .bind (p := perform o) (worker_call (fun j _ ↦ hp.1 j) ?_ ?_) fun r ↦ ih r (hp.2 r)
    · rintro j y rfl
      exact hp.1 j rfl
    · intro b r hb hPb _ _
      rw [next_spared (hp.1 i) (hstage b hPb)]
      exact ⟨hb, hPb⟩

/-! ### What is written after the decision -/

section Writes

variable {hm : m ≠ .locked} {hst : st ≠ .locked}

/-- What is read is what has been written. -/
theorem load_rule {v : SlotVar} {z : ℤ}
    (hv : ∀ b : LockBoard, b.watched = w → b.get v = z) :
    lawOutline.Triple .worker ((ahead i .rest m st w hm hst).and (elsewhere i))
      (perform (.load i v)) fun y ↦
        ((ahead i .rest m st w hm hst).and (elsewhere i)).and (.pure (y = z)) := by
  have hcall : lawOutline.Triple .worker ((ahead i .rest m st w hm hst).and (elsewhere i))
      (perform (.load i v)) fun y ↦
        (workerHolds i (fun b ↦ Ahead .rest m st w b ∧ y = z)
          fun _ _ hb h _ ↦ ⟨hb.1.pressed h hm hst, hb.2⟩).and (elsewhere i) := by
    refine worker_call (fun _ _ ↦ trivial) (fun _ _ ↦ SlotOp.noConfusion)
      fun b y hb hahead htold _ ↦ ?_
    have hstage : b.log.stage ≠ .timed := by
      rw [hahead.1]
      exact ReadingStage.noConfusion
    rw [next_spared (o := .load i v) trivial hstage]
    exact ⟨hb, hahead, (htold rfl).trans (hv b hahead.2.2.2)⟩
  exact hcall.post (by exact fun _ _ _ h ↦ ⟨⟨h.1.1, h.2⟩, h.1.2⟩)

/-- A variable of the stay is written. -/
theorem store_rule (hdown : m.Down) (hstu : st ≠ .unlocking) {v : SlotVar} {y : ℤ} {w' : ℤ × ℤ}
    (hbtn : v ≠ .lastBtnTime)
    (hv : ∀ b : LockBoard, b.watched = w →
      b.toLockVars.next i (.op .worker (.store i v y) ()) = ⟨b.lockSt, w', b.lastBtnTime⟩) :
    lawOutline.Triple .worker ((ahead i .rest m st w hm hst).and (elsewhere i))
      (perform (.store i v y)) fun _ ↦ (ahead i .rest m st w' hm hst).and (elsewhere i) := by
  refine worker_call (fun j hji ↦ Ne.symm hji) ?_ fun b _ hb hahead _ _ ↦ ?_
  · rintro j y' hstore
    exact hbtn (SlotOp.store.inj hstore).2.1
  · obtain ⟨hstage, hrun, hst', hw⟩ := hahead
    have hnext : b.next i (.op .worker (.store i v y) ())
        = ⟨⟨b.lockSt, w', b.lastBtnTime⟩, b.log⟩ := congrArg (LockBoard.mk · b.log) (hv b hw)
    rw [hnext]
    have hahead' : Ahead .rest m st w' ⟨⟨b.lockSt, w', b.lastBtnTime⟩, b.log⟩ :=
      ⟨hstage, hrun, hst', rfl⟩
    exact ⟨hahead'.lawful hdown ⟨hst, hstu⟩, hahead'⟩

theorem store_start (hdown : m.Down) (hstu : st ≠ .unlocking) {y : ℤ} :
    lawOutline.Triple .worker ((ahead i .rest m st w hm hst).and (elsewhere i))
      (perform (.store i .occupyStart y))
      fun _ ↦ (ahead i .rest m st (y, w.2) hm hst).and (elsewhere i) :=
  store_rule hdown hstu SlotVar.noConfusion fun b hb ↦ by
    rw [← hb]
    exact if_pos rfl

theorem store_count (hdown : m.Down) (hstu : st ≠ .unlocking) {y : ℤ} :
    lawOutline.Triple .worker ((ahead i .rest m st w hm hst).and (elsewhere i))
      (perform (.store i .consecutiveUnoccupied y))
      fun _ ↦ (ahead i .rest m st (w.1, y) hm hst).and (elsewhere i) :=
  store_rule hdown hstu SlotVar.noConfusion fun b hb ↦ by
    rw [← hb]
    exact if_pos rfl

/-- The clock decides. -/
theorem ktime_rule (hdown : ∀ now, (m.occupied now).Down) (hstu : st ≠ .unlocking) :
    lawOutline.Triple .worker ((ahead i .timed m st w hm hst).and (elsewhere i)) (perform .ktime)
      fun now ↦ (ahead i .rest (m.occupied now) st w (hdown now).1 hst).and (elsewhere i) := by
  refine worker_call (fun _ _ ↦ trivial) (fun _ _ ↦ SlotOp.noConfusion)
    fun b now hb hahead _ _ ↦ ?_
  obtain ⟨hstage, ⟨k, hrun, rfl⟩, hst', hw⟩ := hahead
  have hnext : b.next i (.op .worker .ktime now) = ⟨b.toLockVars,
      { b.log with stage := .rest, events := .occupied now :: b.log.events }⟩ :=
    congrArg (LockBoard.mk b.toLockVars) (if_pos hstage)
  rw [hnext]
  have hahead' : Ahead .rest (k.mode.occupied now) st w ⟨b.toLockVars,
      { b.log with stage := .rest, events := .occupied now :: b.log.events }⟩ :=
    ⟨rfl, ⟨_, LockControl.run_cons hrun, rfl⟩, hst', hw⟩
  exact ⟨hahead'.lawful (hdown now) ⟨hst, hstu⟩, hahead'⟩

/-- The worker catches up with the automaton. -/
theorem become_rule {st' : LockState} (hturn : ¬(st' = .locked ∨ st' = .waitEmpty))
    (hagree : ∀ y, m.Agrees ⟨st', w, y⟩) :
    lawOutline.Triple .worker ((ahead i .rest m st w hm hst).and (elsewhere i))
      (perform (.setLockSt i st')) fun _ ↦ (followed i .rest).and (elsewhere i) := by
  refine worker_call (fun j hji ↦ Ne.symm hji) (fun _ _ ↦ SlotOp.noConfusion)
    fun b _ hb hahead _ _ ↦ ?_
  obtain ⟨hstage, ⟨k, hrun, rfl⟩, -, rfl⟩ := hahead
  have hnext : b.next i (.op .worker (.setLockSt i st') ())
      = ⟨{ b.toLockVars with lockSt := st' }, b.log⟩ :=
    congrArg₂ LockBoard.mk (if_pos rfl) (if_neg fun h ↦ hturn h.2)
  rw [hnext]
  have hat : At .rest ⟨{ b.toLockVars with lockSt := st' }, b.log⟩ :=
    ⟨hstage, k, hrun, hagree b.lastBtnTime⟩
  exact ⟨hat.lawful, hat⟩

/-- There is nothing to be written. -/
theorem settled_rule (hagree : ∀ y, m.Agrees ⟨st, w, y⟩) :
    lawOutline.Triple .worker ((ahead i .rest m st w hm hst).and (elsewhere i)) (pure ())
      fun _ ↦ (followed i .rest).and (elsewhere i) :=
  .ret fun _ _ h ↦ ⟨Ahead.settled h.1 (hagree _), h.2⟩

end Writes

/-! ### The lock state machine -/

theorem occupied_down {now : ℤ} (h : m = .free ∨ ∃ a n, m = .timing a n) :
    (m.occupied now).Down := by
  obtain rfl | ⟨a, n, rfl⟩ := h
  · exact ⟨LockMode.noConfusion, LockMode.noConfusion⟩
  · rw [LockMode.occupied]
    split_ifs <;> exact ⟨LockMode.noConfusion, LockMode.noConfusion⟩

theorem empty_down (a n : ℤ) : ((LockMode.timing a n).empty).Down := by
  rw [LockMode.empty]
  split_ifs <;> exact ⟨LockMode.noConfusion, LockMode.noConfusion⟩

variable {occupied : ℤ}

theorem whenFree_rule (hocc : occupied ≠ 0) :
    lawOutline.Triple .worker ((ahead i .timed .free .free w LockMode.noConfusion
      LockState.noConfusion).and (elsewhere i)) (whenFree i occupied)
      fun _ ↦ (followed i .rest).and (elsewhere i) := by
  have hdown (now : ℤ) : (LockMode.free.occupied now).Down := occupied_down (.inl rfl)
  rw [whenFree, if_pos hocc]
  refine .bind (ktime_rule hdown LockState.noConfusion) fun now ↦ ?_
  refine .bind (store_start (hdown now) LockState.noConfusion) fun _ ↦ ?_
  refine .bind (store_count (hdown now) LockState.noConfusion) fun _ ↦ ?_
  exact become_rule (by decide) fun y ↦ ⟨rfl, fun since n h ↦ by cases h; rfl⟩

/-- A stay is timed, and the reading has found the slot empty. -/
theorem whenTiming_empty {a n : ℤ} : lawOutline.Triple .worker
    ((ahead i .rest ((LockMode.timing a n).empty) .timing (a, n) (empty_down a n).1
      LockState.noConfusion).and (elsewhere i)) (whenTiming i 0)
      fun _ ↦ (followed i .rest).and (elsewhere i) := by
  have hdown := empty_down a n
  rw [whenTiming, if_pos rfl]
  refine .bind (load_rule (z := n) fun b hb ↦ ?_) fun n' ↦ ?_
  · exact congrArg Prod.snd hb
  refine .of_pure (fun _ _ h ↦ h.2) fun hn ↦ .pre (fun _ _ h ↦ h.1) ?_
  subst hn
  refine .bind (store_count hdown LockState.noConfusion) fun _ ↦ .ite (fun hn ↦ ?_) fun hn ↦ ?_
  · have hempty : (LockMode.timing a n').empty = .free := if_pos hn
    exact become_rule (by decide) fun y ↦ by rw [hempty]; exact ⟨rfl, fun _ _ h ↦ by cases h⟩
  · have hempty : (LockMode.timing a n').empty = .timing a (n' + 1) := if_neg hn
    refine settled_rule fun y ↦ ?_
    rw [hempty]
    exact ⟨rfl, fun since n h ↦ by cases h; rfl⟩

/-- A stay is timed, and the vehicle is still there. -/
theorem whenTiming_occupied {a n : ℤ} (hocc : occupied ≠ 0) : lawOutline.Triple .worker
    ((ahead i .timed (.timing a n) .timing (a, n) LockMode.noConfusion
      LockState.noConfusion).and (elsewhere i)) (whenTiming i occupied)
      fun _ ↦ (followed i .rest).and (elsewhere i) := by
  have hdown (now : ℤ) : ((LockMode.timing a n).occupied now).Down :=
    occupied_down (.inr ⟨a, n, rfl⟩)
  rw [whenTiming, if_neg hocc]
  refine .bind (ktime_rule hdown LockState.noConfusion) fun now ↦ ?_
  refine .bind (load_rule (z := a) fun b hb ↦ ?_) fun a' ↦ ?_
  · exact congrArg Prod.fst hb
  refine .of_pure (fun _ _ h ↦ h.2) fun ha ↦ .pre (fun _ _ h ↦ h.1) ?_
  subst ha
  refine .bind (store_count (hdown now) LockState.noConfusion) fun _ ↦
    .ite (fun hup ↦ ?_) fun hup ↦ ?_
  · have hlock : (LockMode.timing a' n).occupied now = .locking := if_pos hup
    refine .bind (become_rule (by decide) fun y ↦ ?_) fun _ ↦ ?_
    · rw [hlock]
      exact ⟨rfl, fun _ _ h ↦ by cases h⟩
    · exact spared_program (fun b hb ↦ by rw [hb.1]; exact ReadingStage.noConfusion)
        ⟨fun _ ↦ trivial, fun _ ↦ ⟨fun _ ↦ trivial, fun _ ↦ trivial⟩⟩
  · have hstay : (LockMode.timing a' n).occupied now = .timing a' 0 := if_neg hup
    refine settled_rule fun y ↦ ?_
    rw [hstay]
    exact ⟨rfl, fun since n h ↦ by cases h; rfl⟩

/-- The bar is down again, and the reading has found the slot empty. -/
theorem whenWaitEmpty_rule {w : ℤ × ℤ} : lawOutline.Triple .worker
    ((ahead i .rest .free .waitEmpty w LockMode.noConfusion LockState.noConfusion).and
      (elsewhere i)) (perform (.setLockSt i .free))
      fun _ ↦ (followed i .rest).and (elsewhere i) :=
  become_rule (by decide) fun _ ↦ ⟨rfl, fun _ _ h ↦ by cases h⟩

/-- What there is when the worker has read the lock state, after a reading. -/
def Looked : Bool → LockState → LockBoard → Prop
  | true, .free, b => ∃ w, b.Ahead .timed .free .free w
  | true, .timing, b => ∃ a n, b.Ahead .timed (.timing a n) .timing (a, n)
  | false, .timing, b => ∃ a n, b.Ahead .rest (LockMode.timing a n).empty .timing (a, n)
  | false, .waitEmpty, b => ∃ w, b.Ahead .rest .free .waitEmpty w
  | _, _, b => b.At .rest

theorem Looked.pressed {b' : LockBoard} {occ : Bool} (hlooked : b.Looked occ st)
    (h : Pressed b b') (hb' : b'.Lawful) : b'.Looked occ st := by
  unfold Looked at hlooked ⊢
  split at hlooked
  · obtain ⟨w, hw⟩ := hlooked
    exact ⟨w, hw.pressed h LockMode.noConfusion LockState.noConfusion⟩
  · obtain ⟨a, n, hw⟩ := hlooked
    exact ⟨a, n, hw.pressed h LockMode.noConfusion LockState.noConfusion⟩
  · obtain ⟨a, n, hw⟩ := hlooked
    exact ⟨a, n, hw.pressed h (empty_down a n).1 LockState.noConfusion⟩
  · obtain ⟨w, hw⟩ := hlooked
    exact ⟨w, hw.pressed h LockMode.noConfusion LockState.noConfusion⟩
  · exact hlooked.pressed h hb'

theorem Looked.lawful {occ : Bool} (h : b.Looked occ st) : b.Lawful := by
  unfold Looked at h
  split at h
  · obtain ⟨w, hw⟩ := h
    exact hw.lawful ⟨LockMode.noConfusion, LockMode.noConfusion⟩ (by decide)
  · obtain ⟨a, n, hw⟩ := h
    exact hw.lawful ⟨LockMode.noConfusion, LockMode.noConfusion⟩ (by decide)
  · obtain ⟨a, n, hw⟩ := h
    exact hw.lawful (empty_down a n) (by decide)
  · obtain ⟨w, hw⟩ := h
    exact hw.lawful ⟨LockMode.noConfusion, LockMode.noConfusion⟩ (by decide)
  · exact At.lawful h

/-- The reading counts now, unless the clock is still to be looked at. -/
theorem At.look {occ : Bool} (h : b.At (.seen occ)) :
    Looked occ b.lockSt ⟨b.toLockVars, b.log.look b.lockSt⟩ := by
  obtain ⟨⟨lockSt, watched, last⟩, ⟨stage, pressed, events⟩⟩ := b
  obtain ⟨rfl, ⟨mode, lastPress⟩, hrun, rfl, hwatched⟩ := h
  have hempty := LockControl.run_cons (e := .empty) hrun
  cases mode with
  | free =>
    cases occ with
    | true => exact ⟨watched, rfl, ⟨_, hrun, rfl⟩, rfl, rfl⟩
    | false => exact ⟨rfl, _, hempty, rfl, fun _ _ h ↦ by cases h⟩
  | timing a n =>
    obtain rfl : watched = (a, n) := hwatched a n rfl
    cases occ with
    | true => exact ⟨a, n, rfl, ⟨_, hrun, rfl⟩, rfl, rfl⟩
    | false => exact ⟨a, n, rfl, ⟨_, hempty, rfl⟩, rfl, rfl⟩
  | waitEmpty =>
    cases occ with
    | true => exact ⟨rfl, _, hrun, rfl, fun _ _ h ↦ by cases h⟩
    | false => exact ⟨watched, rfl, ⟨_, hempty, rfl⟩, rfl, rfl⟩
  | locking | locked | unlocking =>
    cases occ with
    | true => exact ⟨rfl, _, hrun, rfl, fun _ _ h ↦ by cases h⟩
    | false => exact ⟨rfl, _, hempty, rfl, fun _ _ h ↦ by cases h⟩

/-- What the worker knows when it has read the lock state. -/
def looked (i : Slot) (occ : Bool) (st : LockState) : lawOutline.Assertion .worker :=
  workerHolds i (Looked occ st) fun _ _ hb h hb' ↦ hb.pressed h hb'

theorem readLockSt_rule {occ : Bool} :
    lawOutline.Triple .worker ((followed i (.seen occ)).and (elsewhere i)) (perform (.readLockSt i))
      fun st ↦ (looked i occ st).and (elsewhere i) := by
  refine worker_call (fun j hji ↦ Ne.symm hji) (fun _ _ ↦ SlotOp.noConfusion)
    fun b st _ hat htold _ ↦ ?_
  obtain rfl : st = b.lockSt := htold rfl
  have hnext : b.next i (.op .worker (.readLockSt i) b.lockSt)
      = ⟨b.toLockVars, b.log.look b.lockSt⟩ := congrArg (LockBoard.mk b.toLockVars) (if_pos rfl)
  rw [hnext]
  exact ⟨hat.look.lawful, hat.look⟩

theorem lockMachine_rule {occupied : ℤ} :
    lawOutline.Triple .worker
      ((followed i (.seen (decide (occupied ≠ 0)))).and (elsewhere i)) (lockMachine i occupied)
      fun _ ↦ (followed i .rest).and (elsewhere i) := by
  have hrest : lawOutline.Triple .worker ((followed i .rest).and (elsewhere i)) (pure ())
      fun _ ↦ (followed i .rest).and (elsewhere i) := .ret fun _ _ h ↦ h
  refine .bind readLockSt_rule fun st ↦ ?_
  by_cases hocc : occupied = 0
  · subst hocc
    cases st with
    | free => exact .pre (by exact fun _ _ h ↦ h) hrest
    | timing =>
      refine .pre ?_ (.any fun a ↦ .any fun n ↦ whenTiming_empty (a := a) (n := n))
      exact fun _ _ ⟨⟨a, n, h⟩, helse⟩ ↦ ⟨a, n, h, helse⟩
    | waitEmpty =>
      refine .pre ?_ (.any fun w ↦ whenWaitEmpty_rule (w := w))
      exact fun _ _ ⟨⟨w, h⟩, helse⟩ ↦ ⟨w, h, helse⟩
    | _ => exact .pre (by exact fun _ _ h ↦ h) hrest
  · rw [decide_eq_true hocc]
    cases st with
    | free =>
      refine .pre ?_ (.any fun w ↦ whenFree_rule (w := w) hocc)
      exact fun _ _ ⟨⟨w, h⟩, helse⟩ ↦ ⟨w, h, helse⟩
    | timing =>
      refine .pre ?_ (.any fun a ↦ .any fun n ↦ whenTiming_occupied (a := a) (n := n) hocc)
      exact fun _ _ ⟨⟨a, n, h⟩, helse⟩ ↦ ⟨a, n, h, helse⟩
    | waitEmpty =>
      rw [whenWaitEmpty, if_neg hocc]
      exact .pre (by exact fun _ _ h ↦ h) hrest
    | _ => exact .pre (by exact fun _ _ h ↦ h) hrest

/-- The critical section of `sensor_work_func`. -/
theorem takeEcho_rule : lawOutline.Triple .worker ((followed i .rest).and (elsewhere i))
    (perform (.takeEcho i)) fun r ↦
      (followed i (if ValidEcho (ktimeToUs (r.2 - r.1)) then
        .seen (decide (echoCm (ktimeToUs (r.2 - r.1)) ≤ occupiedThresholdCm)) else .rest)).and
      (elsewhere i) := by
  refine worker_call (fun j hji ↦ Ne.symm hji) (fun _ _ ↦ SlotOp.noConfusion)
    fun b r _ hat _ _ ↦ ?_
  obtain ⟨hstage, k, hrun, hagree⟩ := hat
  suffices h : At (if ValidEcho (ktimeToUs (r.2 - r.1)) then
      .seen (decide (echoCm (ktimeToUs (r.2 - r.1)) ≤ occupiedThresholdCm)) else .rest)
      (b.next i (.op .worker (.takeEcho i) r)) from ⟨h.lawful, h⟩
  by_cases hvalid : ValidEcho (ktimeToUs (r.2 - r.1))
  · have hnext : b.next i (.op .worker (.takeEcho i) r) = ⟨b.toLockVars, { b.log with
        stage := .seen (decide (echoCm (ktimeToUs (r.2 - r.1)) ≤ occupiedThresholdCm)) }⟩ :=
      congrArg (LockBoard.mk b.toLockVars) (if_pos ⟨rfl, hvalid⟩)
    rw [hnext, if_pos hvalid]
    exact ⟨rfl, k, hrun, hagree⟩
  · have hnext : b.next i (.op .worker (.takeEcho i) r) = b :=
      congrArg (LockBoard.mk b.toLockVars) (if_neg fun h ↦ hvalid h.2)
    rw [hnext, if_neg hvalid]
    exact ⟨hstage, k, hrun, hagree⟩

theorem sensorWorkFunc_rule (i : Slot) :
    lawOutline.Triple .worker resting (sensorWorkFunc i) fun _ ↦ resting := by
  have hback {p : SlotProg Unit} {P : lawOutline.Assertion .worker}
      (h : lawOutline.Triple .worker P p fun _ ↦ (followed i .rest).and (elsewhere i)) :
      lawOutline.Triple .worker P p fun _ ↦ resting :=
    h.post (by exact fun _ _ _ h ↦ resting_of_followed h.1 h.2)
  refine .pre (P := (followed i .rest).and (elsewhere i)) (fun s _ h ↦ ⟨h i, fun j ↦ h j.1⟩) ?_
  refine .bind takeEcho_rule fun r ↦ ?_
  obtain ⟨start, stop⟩ := r
  refine .ite (fun hvalid ↦ ?_) fun hvalid ↦ ?_
  · rw [if_pos hvalid]
    have hocc : decide (echoCm (ktimeToUs (stop - start)) ≤ occupiedThresholdCm)
        = decide (occupiedOf (echoCm (ktimeToUs (stop - start))) ≠ 0) := by
      by_cases hnear : echoCm (ktimeToUs (stop - start)) ≤ occupiedThresholdCm <;>
        simp [occupiedOf, hnear]
    rw [hocc]
    refine .bind (spared_program ?_ ((updateStatus_uses i _).mono fun o ho j ↦ ?_))
      fun _ ↦ hback lockMachine_rule
    · intro b hb
      rw [hb.1]
      exact ReadingStage.noConfusion
    · cases o <;> trivial
  · rw [if_neg hvalid]
    exact hback (.ret fun _ _ h ↦ h)

/-- The bar has turned, as it was told to. -/
theorem turned_rule (hst : st = .locked ∨ st = .waitEmpty) :
    lawOutline.Triple .worker ((followed i .rest).and (elsewhere i)) (perform (.setLockSt i st))
      fun _ ↦ (followed i .rest).and (elsewhere i) := by
  refine worker_call (fun j hji ↦ Ne.symm hji) (fun _ _ ↦ SlotOp.noConfusion)
    fun b _ _ hat _ hallows ↦ ?_
  obtain ⟨hstage, k, hrun, hk, -⟩ := hat
  have hnext : b.next i (.op .worker (.setLockSt i st) ())
      = ⟨{ b.toLockVars with lockSt := st }, { b.log with events := .turned :: b.log.events }⟩ :=
    congrArg₂ LockBoard.mk (if_pos rfl) (if_pos ⟨rfl, hst⟩)
  have hturn : ∃ m, k.mode.turn = some m ∧ m.Agrees { b.toLockVars with lockSt := st } := by
    obtain ⟨c, c', hmove, hc⟩ := hallows st rfl
    rw [hk] at hc
    cases hmove with
    | @finish p =>
      cases p with
      | true =>
        have hmode : k.mode = .locking := by
          cases hm : k.mode <;> rw [hm] at hc <;> first | rfl | cases hc
        exact ⟨.locked, by rw [hmode]; rfl, rfl, fun _ _ h ↦ by cases h⟩
      | false =>
        have hmode : k.mode = .unlocking := LockMode.lockSt_eq_unlocking.mp hc.symm
        exact ⟨.waitEmpty, by rw [hmode]; rfl, rfl, fun _ _ h ↦ by cases h⟩
    | _ => rcases hst with hst | hst <;> cases hst
  obtain ⟨m, hturn, hagree⟩ := hturn
  rw [hnext]
  have hat : At .rest ⟨{ b.toLockVars with lockSt := st },
      { b.log with events := .turned :: b.log.events }⟩ := by
    refine ⟨hstage, { k with mode := m }, ?_, hagree⟩
    rw [LockControl.run_cons hrun, LockControl.apply, hturn]
    rfl
  exact ⟨hat.lawful, hat⟩

theorem lockWorkFunc_rule (i : Slot) :
    lawOutline.Triple .worker resting (lockWorkFunc i) fun _ ↦ resting := by
  have hspared {α : Type} {p : SlotProg α} (hp : p.Uses fun o ↦ ∀ j, o.Spares j) :
      lawOutline.Triple .worker ((followed i .rest).and (elsewhere i)) p
        fun _ ↦ (followed i .rest).and (elsewhere i) :=
    spared_program (fun b hb ↦ by rw [hb.1]; exact ReadingStage.noConfusion) hp
  have hcall {o : SlotOp} (ho : ∀ j, o.Spares j) : (perform o).Uses fun o ↦ ∀ j, o.Spares j :=
    ⟨ho, fun _ ↦ trivial⟩
  refine .pre (P := (followed i .rest).and (elsewhere i)) (fun s _ h ↦ ⟨h i, fun j ↦ h j.1⟩) ?_
  refine .post (Q := fun _ ↦ (followed i .rest).and (elsewhere i))
    (fun _ _ _ h ↦ resting_of_followed h.1 h.2) ?_
  refine .bind (hspared (hcall (o := .readLockPending i) fun _ ↦ trivial)) fun doLock ↦ ?_
  refine .bind (hspared (Prog.uses_times (hcall (o := .stepperStep i _) fun _ ↦ trivial) _))
    fun _ ↦ ?_
  refine .bind (hspared (hcall (o := .deenergize i) fun _ ↦ trivial)) fun _ ↦ ?_
  have hprintk (line : LogLine) := hspared (hcall (o := .printk line) fun _ ↦ trivial)
  exact .ite (fun _ ↦ .bind (turned_rule (.inl rfl)) fun _ ↦ hprintk _)
    fun _ ↦ .bind (turned_rule (.inr rfl)) fun _ ↦ hprintk _

/-! ## The button -/

variable {now : ℤ}

/-- An assertion of the button about its slot. -/
def buttonHolds (i : Slot) (P : LockBoard → Prop)
    (hP : ∀ b b', P b → Worked b b' → b'.Lawful → P b') : lawOutline.Assertion (.button i) where
  holds s := P (of i s)
  stable _ hl hx hs' h := hP _ _ h (worked_of_other hs' hl hx) (hs'.2 i).lawful

def quiet (i : Slot) : lawOutline.Assertion (.button i) :=
  buttonHolds i Quiet fun _ _ hb h hb' ↦ hb.worked h hb'

def pressing (i : Slot) (now : ℤ) : lawOutline.Assertion (.button i) :=
  buttonHolds i (Pressing now) fun _ _ hb h hb' ↦ hb.worked h hb'

def due (i : Slot) (now : ℤ) : lawOutline.Assertion (.button i) :=
  buttonHolds i (Due now) fun _ _ hb h hb' ↦ hb.worked h hb'

def accepted (i : Slot) (now : ℤ) : lawOutline.Assertion (.button i) :=
  buttonHolds i (Accepted now) fun _ _ hb h hb' ↦ hb.worked h hb'

/-- The bar is up, and it is for the button to let it down. -/
def barUp (i : Slot) : lawOutline.Assertion (.button i) where
  holds s := barOf i s.trace = some .locked
  stable _ hl _ hs' h := (hs'.1.1 i).barOf_of_other h hl

theorem next_button : b.next i (.op (.button i) o r)
    = ⟨b.toLockVars.next i (.op (.button i) o r), b.log.button i o r⟩ :=
  congrArg (LockBoard.mk _) (if_pos rfl)

/-- A step of a button leaves the other slots alone. -/
theorem next_button_elsewhere (hji : j ≠ i) (ho : o.Spares j) :
    b.next j (.op (.button i) o r) = b := by
  have hvars : b.toLockVars.next j (.op (.button i) o r) = b.toLockVars := by
    cases o with
    | setLockSt k st => exact if_neg ho
    | store k v y => cases v <;> exact if_neg ho
    | _ => rfl
  rw [next, hvars, LockLog.next, if_neg (Ne.symm hji)]

/-- An operation of the button. What comes of it may depend on the bar. -/
theorem button_call {P : lawOutline.Assertion (.button i)}
    {R : o.Resp → lawOutline.Assertion (.button i)} (hspares : ∀ j ≠ i, o.Spares j)
    (h : ∀ s r x, LockSound i s → (of i s).Lawful → P s → (of i s).Told i o r →
      of i (s.log x (.op (.button i) o r))
        = ⟨(of i s).toLockVars.next i (.op (.button i) o r), (of i s).log.button i o r⟩ →
      (of i (s.log x (.op (.button i) o r))).Lawful ∧ R r (s.log x (.op (.button i) o r))) :
    lawOutline.Triple (.button i) P (perform o) R := by
  refine .call fun s r x hs hP hexec _ ↦ ?_
  have hx : slotMachine.Emits s.state (.op (.button i) o r) x := hexec
  obtain ⟨hlawful, hR⟩ := h s r x (hs.1.1 i) (hs.2 i).lawful hP
    (told_of_answers (emits_op.mp hx).1) (by rw [of_log hx, next_button])
  refine ⟨fun j ↦ ⟨?_, always_append_singleton.mpr ⟨(hs.2 j).owned, fun t y hl ↦ ?_⟩⟩, hR⟩
  · by_cases hji : j = i
    · rw [hji]
      exact hlawful
    · rw [of_log hx, next_button_elsewhere hji (hspares j hji)]
      exact (hs.2 j).lawful
  · obtain ⟨rfl, rfl, -⟩ := Label.op.inj hl
    by_cases hji : j = i
    · rw [hji]
    · exact absurd rfl (hspares j hji)

/-- An operation that the button may perform without anybody noticing. -/
theorem quiet_call (ho : ∀ j, o.Spares j)
    (hsame : ∀ (b : LockBoard) r, b.log.button i o r = b.log
      ∧ b.toLockVars.next i (.op (.button i) o r) = b.toLockVars) :
    lawOutline.Triple (.button i) (quiet i) (perform o) fun _ ↦ quiet i := by
  refine button_call (fun j _ ↦ ho j) fun s r x _ hlawful hquiet _ hnext ↦ ?_
  obtain ⟨hlog, hvars⟩ := hsame (of i s) r
  rw [hlog, hvars] at hnext
  refine ⟨hnext ▸ hlawful, ?_⟩
  change Quiet (of i _)
  rw [hnext]
  exact hquiet

theorem press_ktime :
    lawOutline.Triple (.button i) (quiet i) (perform .ktime) fun now ↦ pressing i now := by
  refine button_call (fun _ _ ↦ trivial) fun s now x _ hlawful hquiet _ hnext ↦ ?_
  change _ ∧ Pressing now (of i _)
  rw [hnext]
  exact ⟨hlawful, rfl, hquiet⟩

/-- The button learns whether it is accepted; if not, the press counts now. -/
theorem press_load : lawOutline.Triple (.button i) (pressing i now)
    (perform (.load i .lastBtnTime)) fun last ↦
      if ktimeToMs (now - last) < debounceMs then quiet i else due i now := by
  refine button_call (fun _ _ ↦ trivial) fun s last x _ hlawful hpressing htold hnext ↦ ?_
  obtain ⟨rfl, k, hrun, hlast⟩ := hpressing
  obtain rfl : last = k.lastPress := (htold rfl).trans hlast.symm
  by_cases hearly : ktimeToMs ((of i s).log.pressed - k.lastPress) < debounceMs
  · have hlog : (of i s).log.button i (.load i .lastBtnTime) k.lastPress = (of i s).log.press :=
      if_pos ⟨rfl, hearly⟩
    have hsame : k.press (of i s).log.pressed = k := if_neg fun h ↦ h hearly
    have hrun' : LockControl.run (of i s).log.press.events = some k :=
      (LockControl.run_cons hrun).trans (congrArg some hsame)
    obtain ⟨k₀, hrun₀, hlocked⟩ := hlawful
    obtain rfl : k = k₀ := Option.some.inj (hrun.symm.trans hrun₀)
    rw [if_pos hearly]
    change _ ∧ Quiet (of i _)
    rw [hnext, hlog]
    exact ⟨⟨k, hrun', hlocked⟩, k, hrun', hlast⟩
  · have hlog : (of i s).log.button i (.load i .lastBtnTime) k.lastPress = (of i s).log :=
      if_neg fun h ↦ hearly h.2
    rw [if_neg hearly]
    change _ ∧ Due _ (of i _)
    rw [hnext, hlog]
    exact ⟨hlawful, rfl, k, hrun, hearly⟩

theorem press_store : lawOutline.Triple (.button i) (due i now)
    (perform (.store i .lastBtnTime now)) fun _ ↦ accepted i now := by
  refine button_call (fun j hji ↦ Ne.symm hji) fun s _ x _ hlawful hdue _ hnext ↦ ?_
  have hvars : (of i s).toLockVars.next i (.op (.button i) (.store i .lastBtnTime now) ())
      = { (of i s).toLockVars with lastBtnTime := now } := if_pos rfl
  rw [hvars] at hnext
  change _ ∧ Accepted now (of i _)
  rw [hnext]
  exact ⟨hlawful, hdue, rfl⟩

/-- What an accepted press leads to once it counts. -/
theorem Accepted.press (ha : b.Accepted now) (hb : b.Lawful)
    (hst : b.lockSt = .locked ∧ st = .unlocking ∨ b.lockSt ≠ .locked ∧ st = b.lockSt) :
    Lawful ⟨{ b.toLockVars with lockSt := st }, b.log.press⟩
      ∧ Quiet ⟨{ b.toLockVars with lockSt := st }, b.log.press⟩ := by
  obtain ⟨⟨rfl, k, hrun, haccepts⟩, hlast⟩ := ha
  obtain ⟨k₀, hrun₀, hlocked, hunlocking⟩ := hb
  obtain rfl : k = k₀ := Option.some.inj (hrun.symm.trans hrun₀)
  have hpress : k.press b.log.pressed = ⟨k.mode.release, b.log.pressed⟩ := if_pos haccepts
  have hrun' : LockControl.run b.log.press.events = some ⟨k.mode.release, b.log.pressed⟩ :=
    (LockControl.run_cons hrun).trans (congrArg some hpress)
  refine ⟨⟨_, hrun', ?_⟩, _, hrun', hlast.symm⟩
  obtain ⟨hup, rfl⟩ | ⟨hdown, rfl⟩ := hst
  · rw [hlocked.mpr hup]
    exact ⟨by simp [LockMode.release], by simp [LockMode.release]⟩
  · rw [LockMode.release_of_ne fun h ↦ hdown (hlocked.mp h)]
    exact ⟨hlocked, hunlocking⟩

/-- Unless the slot is locked there is nothing to do, and the press counts now. -/
theorem press_readLockSt : lawOutline.Triple (.button i) (accepted i now)
    (perform (.readLockSt i)) fun st ↦
      if st = .locked then (accepted i now).and (barUp i) else quiet i := by
  refine button_call (fun j hji ↦ Ne.symm hji) fun s st x hsound hlawful ha htold hnext ↦ ?_
  obtain rfl : st = (of i s).lockSt := htold rfl
  by_cases hst : (of i s).lockSt = .locked
  · have hlog : (of i s).log.button i (.readLockSt i) (of i s).lockSt = (of i s).log :=
      if_neg fun h ↦ h.2 hst
    rw [if_pos hst]
    change _ ∧ Accepted now (of i _) ∧ barOf i _ = _
    rw [hnext, hlog, Snap.log_trace, barOf_append_of_none rfl]
    obtain ⟨c, hc, hmatches⟩ := hsound.lawful
    have hup : c.lockSt = .locked := hmatches.lockSt.symm.trans hst
    cases c with
    | locked => exact ⟨hlawful, ha, hc⟩
    | changing p => cases p <;> cases hup
    | _ => cases hup
  · have hlog : (of i s).log.button i (.readLockSt i) (of i s).lockSt = (of i s).log.press :=
      if_pos ⟨rfl, hst⟩
    rw [if_neg hst]
    change _ ∧ Quiet (of i _)
    rw [hnext, hlog]
    exact Accepted.press ha hlawful (.inr ⟨hst, rfl⟩)

/-- The press counts when it is written. -/
theorem press_setLockSt : lawOutline.Triple (.button i) ((accepted i now).and (barUp i))
    (perform (.setLockSt i .unlocking)) fun _ ↦ quiet i := by
  refine button_call (fun j hji ↦ Ne.symm hji) fun s _ x hsound hlawful ha _ hnext ↦ ?_
  have hup : (of i s).lockSt = .locked := (hsound.matches_bar ha.2).lockSt
  have hvars : (of i s).toLockVars.next i (.op (.button i) (.setLockSt i .unlocking) ())
      = { (of i s).toLockVars with lockSt := .unlocking } := if_pos rfl
  have hlog : (of i s).log.button i (.setLockSt i .unlocking) () = (of i s).log.press := if_pos rfl
  change _ ∧ Quiet (of i _)
  rw [hnext, hvars, hlog]
  exact Accepted.press ha.1 hlawful (.inl ⟨hup, rfl⟩)

theorem btnIsr_rule (i : Slot) :
    lawOutline.Triple (.button i) (quiet i) (btnIsr i) fun _ ↦ quiet i := by
  refine .bind press_ktime fun now ↦ .bind press_load fun last ↦ ?_
  refine .ite (fun hearly ↦ ?_) fun hdue ↦ ?_
  · rw [if_pos hearly]
    exact .ret fun _ _ h ↦ h
  · rw [if_neg hdue]
    refine .bind press_store fun _ ↦ .bind press_readLockSt fun st ↦ ?_
    refine .ite (fun hst ↦ ?_) fun hst ↦ ?_
    · rw [if_pos hst]
      refine .bind press_setLockSt fun _ ↦ ?_
      refine .bind (quiet_call (fun _ ↦ trivial) fun _ _ ↦ ⟨rfl, rfl⟩) fun _ ↦ ?_
      refine .bind (quiet_call (fun _ ↦ trivial) fun _ _ ↦ ⟨rfl, rfl⟩) fun _ ↦ ?_
      exact .ret fun _ _ h ↦ h
    · rw [if_neg hst]
      exact .ret fun _ _ h ↦ h

end LockBoard

/-! ## Every run -/

def lawIdle : ∀ t, lawOutline.Assertion t
  | .worker => LockBoard.resting
  | .timer => .top
  | .button i => LockBoard.quiet i

/-- A label that no slot takes notice of. -/
theorem LawSound.unnoticed (h : LawSound i s) (hx : slotMachine.Emits s.state l x)
    (hnext : ∀ b : LockBoard, b.next i l = b)
    (hstore : ∀ t y, l ≠ .op t (.store i .lastBtnTime y) ()) : LawSound i (s.log x l) := by
  refine ⟨?_, always_append_singleton.mpr ⟨h.owned, fun t y hl ↦ absurd hl (hstore t y)⟩⟩
  rw [LockBoard.of_log hx, hnext]
  exact h.lawful

theorem measureTimerCb_rule :
    lawOutline.Triple .timer .top measureTimerCb fun _ ↦ .top := by
  refine .frame measureTimerCb_uses fun o ho s r x hs _ hexec _ ↦ ⟨fun i ↦ ?_, trivial⟩
  have hx : slotMachine.Emits s.state (.op .timer o r) x := hexec
  refine (hs.2 i).unnoticed hx (fun b ↦ ?_) fun t y hl ↦ ?_
  · cases o <;> first | rfl | exact ho.elim
  · obtain ⟨-, rfl, -⟩ := Label.op.inj hl
    exact ho.elim

theorem lawOutline_valid : lawOutline.Valid lawIdle where
  ext hs hext _ i := (hs.2 i).unnoticed hext (fun _ ↦ rfl) fun _ _ h ↦ by cases h
  start {t j s p x} hs hidle hentry hknown := by
    have hx : slotMachine.Emits s.state (.start t j) x := ⟨p, hentry⟩
    have hinv : lawOutline.inv (s.log x (.start t j)) :=
      fun i ↦ (hs.2 i).unnoticed hx (fun _ ↦ rfl) fun _ _ h ↦ by cases h
    have hsame (i : Slot) : LockBoard.of i (s.log x (.start t j)) = LockBoard.of i s :=
      LockBoard.of_log hx
    refine ⟨hinv, ?_⟩
    obtain ⟨w, rfl, rfl, rfl, -, -⟩ | ⟨rfl, rfl, rfl, -⟩ | ⟨k, rfl, rfl, rfl, -⟩ :=
      slotEntry_cases hentry
    · have hrest : LockBoard.resting (s.log x (.start .worker (.work w))) := by
        intro i
        change LockBoard.At .rest (LockBoard.of i _)
        rw [hsame i]
        exact hidle i
      cases w with
      | sensor i => exact LockBoard.sensorWorkFunc_rule i _ ⟨hknown, hinv⟩ hrest
      | lock i => exact LockBoard.lockWorkFunc_rule i _ ⟨hknown, hinv⟩ hrest
    · exact measureTimerCb_rule _ ⟨hknown, hinv⟩ trivial
    · refine LockBoard.btnIsr_rule k _ ⟨hknown, hinv⟩ ?_
      change LockBoard.Quiet (LockBoard.of k _)
      rw [hsame k]
      exact hidle

theorem watch_of_reachable {c : SlotConfig} (hc : SlotReachable c) :
    watchOutline.Good c.toSnap := by
  refine ⟨(lock_holds hc).1, (watchOutline_valid.reachable (fun j ↦ ⟨always_nil, always_nil⟩)
    (fun t ↦ ?_) hc fun c₁ h₁ ↦ (lock_holds h₁).1).1⟩
  cases t with
  | worker =>
    intro j b hb
    obtain rfl : .free = b := Option.some.inj hb
    intro before l after heq
    simp at heq
  | _ => trivial

theorem law_holds {c : SlotConfig} (hc : SlotReachable c) : lawOutline.Holds lawIdle c := by
  refine lawOutline_valid.reachable (fun i ↦ ⟨?_, always_nil⟩) (fun t ↦ ?_) hc
    fun c₁ h₁ ↦ watch_of_reachable h₁
  · exact ⟨.init, rfl, iff_of_false (by decide) (by exact LockState.noConfusion),
      iff_of_false (by decide) (by exact LockState.noConfusion)⟩
  · cases t with
    | worker => exact fun i ↦ ⟨rfl, .init, rfl, rfl, fun _ _ h ↦ by cases h⟩
    | timer => trivial
    | button i => exact ⟨.init, rfl, rfl⟩

/-- What is known of a slot that nobody is concerned with. -/
structure LockControl.Describes (k : LockControl) (d : SensorDev) : Prop where
  lockSt : d.lockSt = k.mode.lockSt
  stay : ∀ since n, k.mode = .timing since n → d.occupyStart = since ∧ d.consecutiveUnoccupied = n
  press : d.lastBtnTime = k.lastPress
  position : d.position = if k.mode = .locked ∨ k.mode = .unlocking then lockSteps else 0

/-- Where a bar is that nobody has anything to do about. -/
theorem Bar.position_of_settled {b : Bar} (h : b.Settled) :
    b.position = if b.lockSt = .locked ∨ b.lockSt = .unlocking then lockSteps else 0 := by
  cases b with
  | changing p stage =>
    cases stage with
    | queued => cases p <;> simp [Bar.position, Bar.lockSt, Stage.turned]
    | _ => exact h.elim
  | _ => simp [Bar.position, Bar.lockSt]

theorem describes_of_reachable {c : SlotConfig} (hc : SlotReachable c) (i : Slot)
    (hworker : c.thread .worker = none) (hbutton : c.thread (.button i) = none) :
    ∃ k, LockControl.run (lockEvents i c.trace) = some k ∧ k.Describes (c.state.sensor i) := by
  have hholds := law_holds hc
  obtain ⟨-, k, hrun, hst, hstay⟩ := hholds.idle_of_none hworker i
  obtain ⟨k', hrun', hlast⟩ := hholds.idle_of_none hbutton
  obtain rfl : k = k' := Option.some.inj (hrun.symm.trans hrun')
  obtain ⟨b, hb, hmatches⟩ := ((lock_holds hc).1 i).lawful
  have hsettled : b.Settled := by
    have howner : b.owner i = .worker ∨ b.owner i = .button i := by
      cases b with
      | changing p stage => cases p <;> cases stage <;> first | exact .inl rfl | exact .inr rfl
      | locked => exact .inr rfl
      | _ => exact .inl rfl
    obtain howner | howner := howner
    · exact (lock_holds hc).idle_of_none hworker i b hb howner
    · exact (lock_holds hc).idle_of_none hbutton i b hb howner
  refine ⟨k, hrun, hst, fun since n hm ↦ Prod.mk.inj (hstay since n hm), hlast.symm, ?_⟩
  rw [hmatches.position, Bar.position_of_settled hsettled, ← hmatches.lockSt]
  have hst : (c.state.sensor i).lockSt = k.mode.lockSt := hst
  simp only [hst, LockMode.lockSt_eq_locked, LockMode.lockSt_eq_unlocking]

/-- **A slot follows the automaton.** In every run what has happened to a slot is possible for the
automaton, which is locked or unlocking exactly when the slot is; and when neither the worker nor
the button of the slot is busy, the lock state of the slot, the variables of a stay that is timed,
the time of the last press and the position of the bar are what the automaton makes of it. -/
theorem slot_follows_law {c : SlotConfig} (hc : SlotReachable c) (i : Slot) :
    (∃ k, LockControl.run (lockEvents i c.trace) = some k
        ∧ (k.mode = .locked ↔ (c.state.sensor i).lockSt = .locked)
        ∧ (k.mode = .unlocking ↔ (c.state.sensor i).lockSt = .unlocking))
      ∧ (c.thread .worker = none → c.thread (.button i) = none →
        ∃ k, LockControl.run (lockEvents i c.trace) = some k
          ∧ k.Describes (c.state.sensor i)) :=
  ⟨((law_holds hc).1 i).lawful, describes_of_reachable hc i⟩

/-- A car that stays is locked, for the automaton as for the driver. -/
theorem slot_follows_law_locked : ∃ c k, SlotReachable c
    ∧ LockControl.run (lockEvents 0 c.trace) = some k ∧ k.mode = .locked := by
  have hvalid : ValidEcho (ktimeToUs (290000 - 0)) := by decide
  have hocc : occupiedOf (echoCm (ktimeToUs (290000 - 0))) ≠ 0 := by decide
  have helapsed : lockTimeoutMs ≤ ktimeToMs (10000000000 - 0) := by decide
  obtain ⟨c, hc, hthread, -, -, hlocked⟩ :=
    exists_locked (c := .init .init) (i := 0) rfl rfl rfl rfl hvalid hocc helapsed
  obtain ⟨k, hrun, hk⟩ := (slot_follows_law hc 0).2 (congrFun hthread _) (congrFun hthread _)
  exact ⟨c, k, hc, hrun, LockMode.lockSt_eq_locked.mp (hk.lockSt.symm.trans hlocked)⟩

/-- **The slots are independent.** Two runs in which the same has happened to a slot leave it in the
same state, whatever else has happened in them and in whatever order. -/
theorem slots_independent {c c' : SlotConfig} (hc : SlotReachable c) (hc' : SlotReachable c')
    (i : Slot) (hidle : c.thread .worker = none ∧ c.thread (.button i) = none)
    (hidle' : c'.thread .worker = none ∧ c'.thread (.button i) = none)
    (hevents : lockEvents i c.trace = lockEvents i c'.trace) :
    (c.state.sensor i).lockSt = (c'.state.sensor i).lockSt
      ∧ (c.state.sensor i).position = (c'.state.sensor i).position
      ∧ (c.state.sensor i).lastBtnTime = (c'.state.sensor i).lastBtnTime := by
  obtain ⟨k, hrun, hk⟩ := describes_of_reachable hc i hidle.1 hidle.2
  obtain ⟨k', hrun', hk'⟩ := describes_of_reachable hc' i hidle'.1 hidle'.2
  rw [hevents, hrun'] at hrun
  obtain rfl : k' = k := Option.some.inj hrun
  refine ⟨hk.lockSt.trans hk'.lockSt.symm, ?_, hk.press.trans hk'.press.symm⟩
  rw [hk.position, hk'.position]

end ParkingService.Slots
