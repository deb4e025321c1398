import Mathlib.Data.List.Perm.Basic
import ParkingService.Concurrency.Parallel
import ParkingService.Slot.Alone

/-!
# The reader of the slot driver

`parking_read` waits for `status_changed`, clears it, and only then reads the four values of the
record it delivers, one atomic variable after the other, while the worker goes on publishing
readings. A record may be torn. The worker writes distance and occupancy before it sets the flag, so
a change that a record has missed, or has got half of, is announced after the flag was cleared, and
the flag is up again.

`History` keeps from the past of a run what the argument is about: the occupancy that the worker has
compared with, whether it has begun to publish a change that it has not announced, whether the
reader is between clearing the flag and returning, and what it has delivered last.
-/

namespace ParkingService.Slots

open Concurrency

/-! ## `parking_read` -/

/-- How a call of `parking_read` returns. -/
inductive ReadResult
  | len (st : ParkingStatus)
  | eagain
  | erestartsys
  | einval
  | efault

/-- The operations of `parking_read`. -/
inductive ReadOp
  /-- `wait_event_interruptible`: whether a signal has ended the wait -/
  | waitChanged
  | readChanged
  | clearChanged
  | readField (f : StatusField)
  /-- whether `copy_to_user` fails -/
  | copyToUser (record : String)
  | leave (result : ReadResult)

/-- What an operation returns. -/
abbrev ReadOp.Resp : ReadOp → Type
  | .waitChanged | .readChanged | .copyToUser _ => Bool
  | .readField _ => ℤ
  | _ => Unit

/-- A wait that no signal ends lasts until the flag is up, and a copy may fail. -/
def ReadOp.Answers : (o : ReadOp) → o.Resp → Driver → Prop
  | .waitChanged, r, s => r = true ∨ s.statusChanged = true
  | .readChanged, r, s => r = s.statusChanged
  | .readField f, r, s => r = s.field f
  | _, _, _ => True

instance : ∀ (o : ReadOp) (r : o.Resp) (s : Driver), Decidable (o.Answers r s)
  | .waitChanged, r, s => inferInstanceAs (Decidable (r = true ∨ s.statusChanged = true))
  | .readChanged, r, s => inferInstanceAs (Decidable (r = s.statusChanged))
  | .readField f, r, s => inferInstanceAs (Decidable (r = s.field f))
  | .clearChanged, _, _ | .copyToUser _, _, _ | .leave _, _, _ => inferInstanceAs (Decidable True)

def ReadOp.effect : ReadOp → Driver → Driver
  | .clearChanged, s => { s with statusChanged := false }
  | _, s => s

def ReadOp.exec (o : ReadOp) (r : o.Resp) (s : Driver) : Option Driver :=
  if o.Answers r s then some (o.effect s) else none

theorem ReadOp.exec_eq_some {o : ReadOp} {r : o.Resp} {s x : Driver} :
    o.exec r s = some x ↔ o.Answers r s ∧ o.effect s = x := by
  simp [exec]

abbrev ReadProg := Prog ReadOp.Resp

def readPerform (o : ReadOp) : ReadProg o.Resp := .call o

/-- The arguments of `snprintf`, read in this order. -/
def readFields : List StatusField → ParkingStatus → ReadProg ParkingStatus
  | [], st => return st
  | f :: fs, st => do
    let x ← readPerform (.readField f)
    readFields fs (st.set x f)

/-- A call: `O_NONBLOCK`, the size of the buffer, and the order in which the arguments of `snprintf`
are evaluated, which C leaves open. -/
structure ReadCall where
  nonblock : Bool
  count : ℕ
  order : List StatusField
  perm : order.Perm [.occupied 0, .occupied 1, .distance 0, .distance 1]

theorem ReadCall.mem_order (call : ReadCall) (f : StatusField) : f ∈ call.order := by
  refine call.perm.mem_iff.mpr ?_
  match f with
  | .occupied 0 | .occupied 1 | .distance 0 | .distance 1 => simp

/-- `parking_read` from where it clears the flag. -/
def deliver (call : ReadCall) : ReadProg ReadResult := do
  readPerform .clearChanged
  let st ← readFields call.order .init
  if call.count < st.record.length then
    return .einval
  else if ← readPerform (.copyToUser st.record) then
    return .efault
  else
    return .len st

def parkingRead (call : ReadCall) : ReadProg ReadResult := do
  if call.nonblock then
    if ← readPerform .readChanged then deliver call else return .eagain
  else
    if ← readPerform .waitChanged then return .erestartsys else deliver call

/-- One reader, which may call at any time. -/
def readMachine : Machine Unit ReadCall ReadOp.Resp Empty Driver where
  entry _ call s := some ((do readPerform (.leave (← parkingRead call))), s)
  exec := ReadOp.exec
  ext e _ := e.elim

/-- The driver and its reader. -/
abbrev watchedMachine := slotMachine.par readMachine

abbrev WatchedLabel :=
  Label (Thread ⊕ Unit) (Job ⊕ ReadCall) (RespSum SlotOp.Resp ReadOp.Resp) (SlotEvent ⊕ Empty)

abbrev WatchedSnap :=
  Snap (Thread ⊕ Unit) (Job ⊕ ReadCall) (RespSum SlotOp.Resp ReadOp.Resp) (SlotEvent ⊕ Empty) Driver

abbrev WatchedConfig :=
  Config (Thread ⊕ Unit) (Job ⊕ ReadCall) (RespSum SlotOp.Resp ReadOp.Resp) (SlotEvent ⊕ Empty)
    Driver

/-- Reachable within one load of the driver. -/
def WatchedReachable (c : WatchedConfig) : Prop := watchedMachine.Steps (.init .init) c

theorem exec_slot {o : SlotOp} {r : o.Resp} {s x : Driver} :
    watchedMachine.exec (.inl o) r s = some x ↔ o.Answers r s ∧ o.effect s = x :=
  SlotOp.exec_eq_some

theorem exec_read {o : ReadOp} {r : o.Resp} {s x : Driver} :
    watchedMachine.exec (.inr o) r s = some x ↔ o.Answers r s ∧ o.effect s = x :=
  ReadOp.exec_eq_some

/-! ## What has happened -/

/-- What worker and reader do about a record. -/
inductive Act
  /-- the worker reads the occupancy it compares with -/
  | compare (occupied : ℤ)
  | setDistance (i : Slot) (cm : ℤ)
  | setOccupied (i : Slot) (x : ℤ)
  | notify
  | clear
  | leave (result : ReadResult)

/-- Whose part it is. -/
def Act.owner : Act → Thread ⊕ Unit
  | .clear | .leave _ => .inr ()
  | .compare _ | .setDistance _ _ | .setOccupied _ _ | .notify => .inl .worker

def act? : WatchedLabel → Option Act
  | .op _ (.inl (.readOccupied _)) r => some (.compare r)
  | .op _ (.inl (.setDistance i cm)) _ => some (.setDistance i cm)
  | .op _ (.inl (.setOccupied i x)) _ => some (.setOccupied i x)
  | .op _ (.inl .notify) _ => some .notify
  | .op _ (.inr .clearChanged) _ => some .clear
  | .op _ (.inr (.leave result)) _ => some (.leave result)
  | _ => none

/-- What is remembered of the past of a run. -/
structure History where
  /-- The occupancy that the worker has read last. -/
  prevOccupied : ℤ
  /-- The worker is between the first update of a change and its notification. -/
  changing : Bool
  /-- The reader is between clearing the flag and returning. -/
  reading : Bool
  /-- The last record delivered. -/
  shown : ParkingStatus

namespace History

def init : History := ⟨0, false, false, .init⟩

def next (h : History) : Act → History
  | .compare r => { h with prevOccupied := r }
  | .setDistance _ cm =>
    { h with changing := h.changing || decide (h.prevOccupied ≠ occupiedOf cm) }
  | .setOccupied _ _ => h
  | .notify => { h with changing := false }
  | .clear => { h with reading := true }
  | .leave (.len st) => { h with reading := false, shown := st }
  | .leave _ => { h with reading := false }

def of (tr : List WatchedLabel) : History := (tr.filterMap act?).foldl next init

variable {tr : List WatchedLabel} {l : WatchedLabel} {a : Act}

theorem of_append_of_none (ha : act? l = none) : of (tr ++ [l]) = of tr := by
  simp [of, ha]

theorem of_append_of_some (ha : act? l = some a) : of (tr ++ [l]) = (of tr).next a := by
  simp [of, ha]

end History

/-! ## The board -/

/-- What is published, beside what is remembered. -/
structure Board extends History where
  occupied : Slot → ℤ
  distance : Slot → ℤ
  changed : Bool

namespace Board

def next (b : Board) (a : Act) : Board where
  toHistory := b.toHistory.next a
  occupied := match a with
    | .setOccupied i x => Function.update b.occupied i x
    | _ => b.occupied
  distance := match a with
    | .setDistance i cm => Function.update b.distance i cm
    | _ => b.distance
  changed := match a with
    | .notify => true
    | .clear => false
    | _ => b.changed

end Board

def board (s : WatchedSnap) : Board where
  toHistory := .of s.trace
  occupied i := (s.state.sensor i).occupied
  distance i := (s.state.sensor i).distanceCm
  changed := s.state.statusChanged

variable {s : WatchedSnap} {l : WatchedLabel} {x : Driver} {a : Act}

/-- What a slot has published. -/
def SensorDev.published (d : SensorDev) : ℤ × ℤ := (d.occupied, d.distanceCm)

/-- A step of the driver that is no act changes nothing that is published. -/
theorem published_of_slot {s x : Driver} {l : SlotLabel} (hx : slotMachine.Emits s l x)
    (ha : act? l.inl = none) :
    (∀ i, (x.sensor i).published = (s.sensor i).published) ∧ x.statusChanged = s.statusChanged := by
  have hqueue (s : Driver) (w : Work) : (s.queueWork w).statusChanged = s.statusChanged := by
    unfold Driver.queueWork
    split <;> rfl
  cases l with
  | start t j =>
    refine ⟨fun i ↦ by rw [sensor_of_start hx], ?_⟩
    obtain ⟨p, hentry⟩ := hx
    cases t <;> cases j <;> simp [slotMachine, slotEntry] at hentry
    · rw [← hentry.2.2]
    · rw [← hentry.2]
    · rw [← hentry.2]
  | op t o r =>
    obtain ⟨-, rfl⟩ := emits_op.mp hx
    cases o with
    | readOccupied | setDistance | setOccupied | notify => cases ha
    | fireTrigger | ktime | load | readLockSt | readLockPending | printk => exact ⟨fun _ ↦ rfl, rfl⟩
    | queueWork w =>
      refine ⟨fun i ↦ ?_, hqueue s w⟩
      rw [SlotOp.effect, Driver.queueWork_sensor]
    | request j =>
      refine ⟨fun i ↦ ?_, rfl⟩
      rw [SlotOp.effect]
      refine s.modify_sensor_congr j i _ SensorDev.published fun d ↦ ?_
      split <;> rfl
    | store j v y =>
      refine ⟨fun i ↦ ?_, rfl⟩
      rw [SlotOp.effect]
      refine s.modify_sensor_congr j i _ SensorDev.published fun d ↦ ?_
      cases v <;> rfl
    | _ =>
      refine ⟨fun i ↦ ?_, rfl⟩
      rw [SlotOp.effect]
      exact s.modify_sensor_congr _ i _ SensorDev.published fun _ ↦ rfl
  | ext e =>
    obtain ⟨j, now, pinVal⟩ := e
    obtain rfl : (SlotEvent.echoIsr j now pinVal).exec s = x := Option.some.inj hx
    obtain ⟨-, -, hexec⟩ | ⟨-, -, hexec⟩ | ⟨-, -, hexec⟩ := SlotEvent.exec_cases j now pinVal s
    · rw [hexec]
      exact ⟨fun i ↦ s.modify_sensor_congr j i _ SensorDev.published fun _ ↦ rfl, rfl⟩
    · rw [hexec]
      refine ⟨fun i ↦ ?_, hqueue _ _⟩
      rw [Driver.queueWork_sensor]
      exact s.modify_sensor_congr j i _ SensorDev.published fun _ ↦ rfl
    · rw [hexec]
      exact ⟨fun _ ↦ rfl, rfl⟩

/-- A step that is no act changes nothing that is published. -/
theorem published_of_emits {s x : Driver} (hx : watchedMachine.Emits s l x) (ha : act? l = none) :
    (∀ i, (x.sensor i).published = (s.sensor i).published) ∧ x.statusChanged = s.statusChanged := by
  cases l with
  | start t j =>
    obtain ⟨p, hentry⟩ := hx
    rcases t with t | t <;> rcases j with j | call
    · obtain ⟨⟨q, y⟩, hq, heq⟩ := Option.map_eq_some_iff.mp hentry
      obtain ⟨-, rfl⟩ := Prod.mk.inj heq
      exact published_of_slot (l := .start t j) ⟨q, hq⟩ rfl
    · cases hentry
    · cases hentry
    · obtain ⟨rfl, rfl⟩ := Prod.mk.inj (Option.some.inj hentry)
      exact ⟨fun _ ↦ rfl, rfl⟩
  | op t o r =>
    cases o with
    | inl o =>
      have ha' : act? (Label.op Thread.worker o r).inl = none := by cases o <;> exact ha
      exact published_of_slot (l := .op .worker o r) hx ha'
    | inr o =>
      obtain ⟨-, rfl⟩ := exec_read.mp hx
      cases o with
      | clearChanged => cases ha
      | _ => exact ⟨fun _ ↦ rfl, rfl⟩
  | ext e =>
    cases e with
    | inl e => exact published_of_slot (l := .ext e) hx rfl
    | inr e => exact e.elim

/-- Neither does it change the board. -/
theorem board_of_none (hx : watchedMachine.Emits s.state l x) (ha : act? l = none) :
    board (s.log x l) = board s := by
  obtain ⟨hpublished, hchanged⟩ := published_of_emits hx ha
  have hoccupied (i : Slot) := congrArg Prod.fst (hpublished i)
  have hdistance (i : Slot) := congrArg Prod.snd (hpublished i)
  simp only [board, Snap.log_trace, Snap.log_state, History.of_append_of_none ha, hchanged]
  congr 1
  · exact funext hoccupied
  · exact funext hdistance

/-- An act moves the board. -/
theorem board_of_some (hx : watchedMachine.Emits s.state l x) (ha : act? l = some a) :
    board (s.log x l) = (board s).next a := by
  have hhistory : History.of (s.trace ++ [l]) = (History.of s.trace).next a :=
    History.of_append_of_some ha
  have hupdate (g : SensorDev → ℤ) (j : Slot) (f : SensorDev → SensorDev) :
      (fun i ↦ g ((s.state.modify j f).sensor i))
        = Function.update (fun i ↦ g (s.state.sensor i)) j (g (f (s.state.sensor j))) :=
    Function.comp_update g _ _ _
  unfold act? at ha
  split at ha
  case h_7 => cases ha
  all_goals obtain rfl := Option.some.inj ha
  case h_1 =>
    obtain ⟨-, rfl⟩ := exec_slot.mp hx
    simp only [board, Snap.log_trace, Snap.log_state, hhistory]
    rfl
  case h_2 | h_3 =>
    obtain ⟨-, rfl⟩ := exec_slot.mp hx
    simp only [board, Snap.log_trace, Snap.log_state, hhistory, SlotOp.effect]
    rw [hupdate SensorDev.distanceCm, hupdate SensorDev.occupied, Function.update_eq_self]
    rfl
  case h_4 =>
    obtain ⟨-, rfl⟩ := exec_slot.mp hx
    simp only [board, Snap.log_trace, Snap.log_state, hhistory]
    rfl
  case h_5 | h_6 =>
    obtain ⟨-, rfl⟩ := exec_read.mp hx
    simp only [board, Snap.log_trace, Snap.log_state, hhistory]
    rfl

/-! ## What the board says of the last record -/

namespace Board

variable {b : Board} {st : ParkingStatus} {f : StatusField}

/-- The occupancies are those of the distances. -/
def Agree (b : Board) : Prop := ∀ i, b.occupied i = occupiedOf (b.distance i)

/-- A change is announced, or will be. -/
def Announced (b : Board) : Prop := b.changed = true ∨ b.changing = true

/-- A value of a record is that of the slot, or a distance from the same side of the threshold. -/
def Tells (b : Board) (st : ParkingStatus) : StatusField → Prop
  | .occupied i => st.occupied i = b.occupied i
  | .distance i => occupiedOf (st.distanceCm i) = b.occupied i

/-- A record that is out of date has been noticed. -/
structure Sound (b : Board) : Prop where
  agree : b.changing = false → b.Agree
  shown : ¬b.Announced → b.reading = false → ∀ f, b.Tells b.shown f

theorem Announced.next (h : b.Announced) (ha : a ≠ .clear) : (b.next a).Announced := by
  cases a with
  | clear => exact absurd rfl ha
  | notify => exact .inl rfl
  | setDistance i cm => exact h.imp id fun h ↦ by simp [Board.next, History.next, h]
  | leave result =>
    cases result <;> exact h
  | _ => exact h

/-- Unless it is announced the occupancies do not change. -/
theorem occupied_next (hagree : b.changing = false → b.Agree)
    (hagree' : (b.next a).changing = false → (b.next a).Agree) (h : ¬(b.next a).Announced)
    (ha : a ≠ .clear) : (b.next a).occupied = b.occupied := by
  have hchanging : b.changing = false := by
    by_contra hb
    exact h (Announced.next (.inr (Bool.eq_true_of_not_eq_false hb)) ha)
  have hchanging' : (b.next a).changing = false := by
    by_contra hb
    exact h (.inr (Bool.eq_true_of_not_eq_false hb))
  cases a with
  | setOccupied i x =>
    -- the distances have stayed the same
    funext j
    rw [hagree' hchanging' j, hagree hchanging j]
    rfl
  | _ => rfl

theorem tells_next (hagree : b.changing = false → b.Agree)
    (hagree' : (b.next a).changing = false → (b.next a).Agree) (ha : a ≠ .clear)
    (h : b.Announced ∨ b.Tells st f) : (b.next a).Announced ∨ (b.next a).Tells st f := by
  by_cases hannounced : (b.next a).Announced
  · exact .inl hannounced
  · have htells : b.Tells st f := h.resolve_left fun hb ↦ hannounced (hb.next ha)
    have hoccupied := occupied_next hagree hagree' hannounced ha
    right
    cases f with
    | occupied i => exact htells.trans (congrFun hoccupied i).symm
    | distance i => exact htells.trans (congrFun hoccupied i).symm

/-- What only the worker changes. -/
def desk (b : Board) : (Slot → ℤ) × (Slot → ℤ) × ℤ × Bool :=
  (b.occupied, b.distance, b.prevOccupied, b.changing)

theorem desk_next (ha : a.owner ≠ .inl .worker) : (b.next a).desk = b.desk := by
  cases a with
  | clear => rfl
  | leave result => cases result <;> rfl
  | _ => exact absurd rfl ha

/-- The worker keeps its distances and occupancies in agreement. -/
theorem Sound.next_of_worker (hb : b.Sound) (ha : a.owner = .inl .worker)
    (hagree : (b.next a).changing = false → (b.next a).Agree) : (b.next a).Sound := by
  refine ⟨hagree, fun hannounced hreading f ↦ ?_⟩
  have hclear : a ≠ .clear := by
    rintro rfl
    cases ha
  have hshown : (b.next a).shown = b.shown ∧ (b.next a).reading = b.reading := by
    cases a with
    | clear | leave => cases ha
    | _ => exact ⟨rfl, rfl⟩
  rw [hshown.1]
  refine (tells_next hb.agree hagree hclear ?_).resolve_left hannounced
  by_cases hb' : b.Announced
  · exact .inl hb'
  · exact .inr (hb.shown hb' (hshown.2.symm.trans hreading) f)

end Board

/-! ## The outline -/

/-- A read that fails after the flag was cleared. -/
def Fails : WatchedLabel → Prop
  | .op _ (.inr (.leave .einval)) _ | .op _ (.inr (.leave .efault)) _ => True
  | _ => False

/-- The board is sound, and nobody does the part of another. -/
structure ReadSound (s : WatchedSnap) : Prop where
  sound : (board s).Sound
  owned : Always (fun _ l ↦ ∀ a, act? l = some a → l.by? = some a.owner) s.trace

/-- That no read fails is known. -/
def readOutline : Outline watchedMachine where
  known s := ∀ l ∈ s.trace, ¬Fails l
  inv := ReadSound

variable {t : Thread ⊕ Unit}

/-- An assertion about the board that the acts of others cannot falsify. -/
def onBoard (P : Board → Prop)
    (hP : ∀ b a, b.Sound → (b.next a).Sound → a.owner ≠ t → P b → P (b.next a)) :
    readOutline.Assertion t where
  holds s := P (board s)
  stable {s l x} hs hl hx hs' h := by
    cases ha : act? l with
    | none => rwa [board_of_none hx ha]
    | some a =>
      have howner := (always_append_singleton.mp hs'.2.owned).2 a ha
      have hsound := hs'.2.sound
      rw [board_of_some hx ha] at hsound ⊢
      exact hP _ a hs.2.sound hsound (fun h ↦ hl (howner.trans (congrArg some h))) h

/-- A claim about what only the worker changes. -/
def onDesk (P : (Slot → ℤ) × (Slot → ℤ) × ℤ × Bool → Prop) : readOutline.Assertion (.inl .worker) :=
  onBoard (fun b ↦ P b.desk) fun b a _ _ ha h ↦ by rwa [Board.desk_next ha]

/-- Between two acts of this thread. -/
theorem quiet_rule {o : SlotOp ⊕ ReadOp} {P : readOutline.Assertion t}
    {R : RespSum SlotOp.Resp ReadOp.Resp o → readOutline.Assertion t}
    (ho : ∀ r, act? (.op t o r) = none)
    (h : ∀ s r x, (board s).Sound → P s → watchedMachine.exec o r s.state = some x →
      board (s.log x (.op t o r)) = board s → R r (s.log x (.op t o r))) :
    readOutline.Triple t P (.call o) R :=
  .call fun s r x hs hP hx _ ↦ by
    have hboard : board (s.log x (.op t o r)) = board s := board_of_none (l := .op t o r) hx (ho r)
    refine ⟨⟨hboard ▸ hs.2.sound, ?_⟩, h s r x hs.2.sound hP hx hboard⟩
    refine always_append_singleton.mpr ⟨hs.2.owned, fun a ha ↦ ?_⟩
    rw [ho r] at ha
    cases ha

/-- An act of this thread. -/
theorem act_rule {o : SlotOp ⊕ ReadOp} {P : readOutline.Assertion t}
    {R : RespSum SlotOp.Resp ReadOp.Resp o → readOutline.Assertion t}
    (act : RespSum SlotOp.Resp ReadOp.Resp o → Act) (hact : ∀ r, act? (.op t o r) = some (act r))
    (howner : ∀ r, (act r).owner = t)
    (h : ∀ s r x, (board s).Sound → P s → watchedMachine.exec o r s.state = some x →
      readOutline.known (s.log x (.op t o r)) →
      board (s.log x (.op t o r)) = (board s).next (act r) →
      ((board s).next (act r)).Sound ∧ R r (s.log x (.op t o r))) :
    readOutline.Triple t P (.call o) R :=
  .call fun s r x hs hP hx hknown ↦ by
    have hboard := board_of_some (l := .op t o r) hx (hact r)
    obtain ⟨hsound, hR⟩ := h s r x hs.2.sound hP hx hknown hboard
    refine ⟨⟨hboard ▸ hsound, always_append_singleton.mpr ⟨hs.2.owned, fun a ha ↦ ?_⟩⟩, hR⟩
    rw [hact r] at ha
    obtain rfl := Option.some.inj ha
    exact congrArg some (howner r).symm

/-- Operations that are no acts. -/
def SlotOp.Quiet : SlotOp → Prop
  | .readOccupied _ | .setDistance _ _ | .setOccupied _ _ | .notify => False
  | _ => True

theorem SlotOp.Quiet.act {o : SlotOp} (ho : o.Quiet) (r : o.Resp) :
    act? (.op t (.inl o) r) = none := by
  cases o <;> first | rfl | exact ho.elim

/-- An assertion that is about the board. -/
def AboutBoard (P : readOutline.Assertion t) : Prop :=
  ∀ {s s' : WatchedSnap}, board s' = board s → P s → P s'

theorem quiet_frame {α : Type} {p : SlotProg α} {P : readOutline.Assertion t} (hP : AboutBoard P)
    (hp : p.Uses SlotOp.Quiet) : readOutline.Triple t P p.inl fun _ ↦ P := by
  induction p with
  | ret a => exact .ret fun _ _ h ↦ h
  | op o k ih =>
    refine .bind (quiet_rule (o := .inl o) (R := fun _ ↦ P) hp.1.act ?_) fun r ↦ ih r (hp.2 r)
    exact fun s r x _ h _ hboard ↦ hP hboard h

theorem aboutBoard_onDesk {P : (Slot → ℤ) × (Slot → ℤ) × ℤ × Bool → Prop} :
    AboutBoard (onDesk P) :=
  fun hboard h ↦ show P _ by rwa [hboard]

/-! ## The worker -/

/-- No change is under way. -/
def settledDesk : readOutline.Assertion (.inl .worker) := onDesk fun d ↦ d.2.2.2 = false

/-- The occupancy has been read. -/
def compared (i : Slot) (r : ℤ) : readOutline.Assertion (.inl .worker) :=
  onDesk fun (occupied, distance, prev, changing) ↦
    (∀ j, occupied j = occupiedOf (distance j)) ∧ occupied i = r ∧ prev = r ∧ changing = false

/-- The distance has been published, and the occupancy has not. -/
def measured (i : Slot) (r cm : ℤ) : readOutline.Assertion (.inl .worker) :=
  onDesk fun (occupied, distance, _, changing) ↦
    (∀ j, j ≠ i → occupied j = occupiedOf (distance j)) ∧ distance i = cm
      ∧ changing = decide (r ≠ occupiedOf cm)

/-- The occupancy has been published, and the change has not been announced. -/
def published (r cm : ℤ) : readOutline.Assertion (.inl .worker) :=
  onDesk fun (occupied, distance, _, changing) ↦
    (∀ j, occupied j = occupiedOf (distance j)) ∧ changing = decide (r ≠ occupiedOf cm)

theorem readOccupied_rule (i : Slot) :
    readOutline.Triple (.inl .worker) settledDesk (perform (.readOccupied i)).inl (compared i) := by
  refine act_rule (o := .inl (.readOccupied i)) .compare (fun _ ↦ rfl) (fun _ ↦ rfl)
    fun s r x hsound hsettled hx _ hboard ↦ ?_
  obtain ⟨rfl, -⟩ := exec_slot.mp hx
  refine ⟨hsound.next_of_worker rfl hsound.agree, ?_⟩
  change _ ∧ _
  rw [hboard]
  exact ⟨hsound.agree hsettled, rfl, rfl, hsettled⟩

theorem setDistance_rule (i : Slot) (r cm : ℤ) :
    readOutline.Triple (.inl .worker) (compared i r) (perform (.setDistance i cm)).inl
      fun _ ↦ measured i r cm := by
  refine act_rule (o := .inl (.setDistance i cm)) (fun _ ↦ .setDistance i cm) (fun _ ↦ rfl)
    (fun _ ↦ rfl) fun s _ x hsound hcompared _ _ hboard ↦ ?_
  obtain ⟨hagree, hoccupied, hprev, hchanging⟩ := hcompared
  have hother (j : Slot) (hj : j ≠ i) : ((board s).next (.setDistance i cm)).occupied j
      = occupiedOf (((board s).next (.setDistance i cm)).distance j) := by
    simp only [Board.next, Function.update_of_ne hj]
    exact hagree j
  have hdistance : ((board s).next (.setDistance i cm)).distance i = cm := Function.update_self ..
  have hchange : ((board s).next (.setDistance i cm)).changing = decide (r ≠ occupiedOf cm) := by
    simp [Board.next, History.next, hprev, hchanging]
  -- slot `i` is between its two fields: they agree already if there is no change
  refine ⟨hsound.next_of_worker rfl fun hsame j ↦ ?_, ?_⟩
  · by_cases hj : j = i
    · rw [hchange] at hsame
      rw [hj, hdistance, ← not_not.mp (of_decide_eq_false hsame)]
      exact hoccupied
    · exact hother j hj
  · change _ ∧ _
    rw [hboard]
    exact ⟨hother, hdistance, hchange⟩

theorem setOccupied_rule (i : Slot) (r cm : ℤ) :
    readOutline.Triple (.inl .worker) (measured i r cm)
      (perform (.setOccupied i (occupiedOf cm))).inl fun _ ↦ published r cm := by
  refine act_rule (o := .inl (.setOccupied i (occupiedOf cm)))
    (fun _ ↦ .setOccupied i (occupiedOf cm)) (fun _ ↦ rfl) (fun _ ↦ rfl)
    fun s _ x hsound hmeasured _ _ hboard ↦ ?_
  obtain ⟨hother, hdistance, hchange⟩ := hmeasured
  have hagree : ((board s).next (.setOccupied i (occupiedOf cm))).Agree := by
    intro j
    by_cases hj : j = i
    · subst hj
      simp only [Board.next, Function.update_self]
      exact congrArg occupiedOf hdistance.symm
    · simp only [Board.next, Function.update_of_ne hj]
      exact hother j hj
  refine ⟨hsound.next_of_worker rfl fun _ ↦ hagree, ?_⟩
  change _ ∧ _
  rw [hboard]
  exact ⟨hagree, hchange⟩

theorem notify_rule (r cm : ℤ) :
    readOutline.Triple (.inl .worker) (published r cm) (perform .notify).inl
      fun _ ↦ settledDesk := by
  refine act_rule (o := .inl .notify) (fun _ ↦ .notify) (fun _ ↦ rfl) (fun _ ↦ rfl)
    fun s _ x hsound hpublished _ _ hboard ↦ ?_
  refine ⟨hsound.next_of_worker rfl fun _ ↦ hpublished.1, ?_⟩
  change (board _).changing = false
  rw [hboard]
  rfl

/-- Every change is announced. -/
theorem updateStatus_rule (i : Slot) (cm : ℤ) :
    readOutline.Triple (.inl .worker) settledDesk (updateStatus i cm).inl fun _ ↦ settledDesk := by
  have hled (P : (Slot → ℤ) × (Slot → ℤ) × ℤ × Bool → Prop) : readOutline.Triple (.inl .worker)
      (onDesk P) (perform (.setLed i (occupiedOf cm))).inl fun _ ↦ onDesk P :=
    quiet_frame aboutBoard_onDesk (Prog.uses_call.mpr trivial)
  have hprintk : readOutline.Triple (.inl .worker) settledDesk
      (perform (.printk (.spaceChanged (occupiedOf cm) cm))).inl fun _ ↦ settledDesk :=
    quiet_frame aboutBoard_onDesk (Prog.uses_call.mpr trivial)
  refine .bind_inl (readOccupied_rule i) fun r ↦ ?_
  refine .bind_inl (setDistance_rule i r cm) fun _ ↦ ?_
  refine .bind_inl (setOccupied_rule i r cm) fun _ ↦ ?_
  refine .bind_inl (hled _) fun _ ↦ ?_
  by_cases hchange : r = occupiedOf cm
  · rw [if_neg (not_not.mpr hchange)]
    exact .ret fun s _ hpublished ↦ hpublished.2.trans (decide_eq_false (not_not.mpr hchange))
  · rw [if_pos hchange]
    exact .bind_inl (notify_rule r cm) fun _ ↦ hprintk

/-! ## The reader -/

/-- The reader is not reading. -/
def away : readOutline.Assertion (.inr ()) :=
  onBoard (fun b ↦ b.reading = false) fun b a _ _ ha h ↦ by
    cases a with
    | clear | leave => exact absurd rfl ha
    | _ => exact h

/-- These values have been read. -/
def collected (F : StatusField → Prop) (st : ParkingStatus) : readOutline.Assertion (.inr ()) :=
  onBoard (fun b ↦ ∀ f, F f → b.Announced ∨ b.Tells st f) fun b a hb hb' ha h f hf ↦
    Board.tells_next hb.agree hb'.agree (by rintro rfl; exact ha rfl) (h f hf)

theorem ParkingStatus.tells_set {b : Board} {st : ParkingStatus} {f f' : StatusField} {x : ℤ}
    (hf : b.Tells (st.set x f) f) (hf' : b.Tells st f') : b.Tells (st.set x f) f' := by
  by_cases heq : f' = f
  · rwa [heq]
  · cases f with
    | occupied i =>
      cases f' with
      | occupied j =>
        have hne : j ≠ i := fun h ↦ heq (congrArg _ h)
        simpa [Board.Tells, set, Function.update_of_ne hne] using hf'
      | distance j => exact hf'
    | distance i =>
      cases f' with
      | occupied j => exact hf'
      | distance j =>
        have hne : j ≠ i := fun h ↦ heq (congrArg _ h)
        simpa [Board.Tells, set, Function.update_of_ne hne] using hf'

/-- A value that is read while no change is announced is up to date. -/
theorem readField_rule {F : StatusField → Prop} (f : StatusField) (st : ParkingStatus) :
    readOutline.Triple (.inr ()) (collected F st) (readPerform (.readField f)).inr fun x ↦
      collected (fun f' ↦ F f' ∨ f' = f) (st.set x f) := by
  refine quiet_rule (o := .inr (.readField f)) (fun _ ↦ rfl) fun s x y hsound h hx hboard ↦ ?_
  obtain ⟨rfl, -⟩ := exec_read.mp hx
  intro f' hf'
  rw [hboard]
  -- while a change is announced the record may be stale: another read will follow
  by_cases hannounced : (board s).Announced
  · exact .inl hannounced
  right
  have hagree : (board s).Agree := hsound.agree (Bool.eq_false_iff.mpr fun h ↦ hannounced (.inr h))
  have hnew : (board s).Tells (st.set (s.state.field f) f) f := by
    cases f with
    | occupied i => simp [Board.Tells, ParkingStatus.set, Driver.field, board]
    | distance i =>
      simpa [Board.Tells, ParkingStatus.set, Driver.field, board] using (hagree i).symm
  rcases hf' with hf' | rfl
  · exact ParkingStatus.tells_set hnew ((h f' hf').resolve_left hannounced)
  · exact hnew

/-- The record is complete at the end, in whatever order it has been put together. -/
theorem readFields_rule (fs : List StatusField) {F : StatusField → Prop} (st : ParkingStatus)
    (hall : ∀ f, F f ∨ f ∈ fs) :
    readOutline.Triple (.inr ()) (collected F st) (readFields fs st).inr fun st' ↦
      collected (fun _ ↦ True) st' := by
  induction fs generalizing F st with
  | nil => exact .ret fun s _ h f _ ↦ h f ((hall f).resolve_right List.not_mem_nil)
  | cons f fs ih =>
    refine .bind_inr (readField_rule f st) fun x ↦ ih (st.set x f) fun f' ↦ ?_
    rcases hall f' with hf' | hf'
    · exact .inl (.inl hf')
    · exact (List.mem_cons.mp hf').imp .inr id

/-- What a call leaves behind. -/
def returning : ReadResult → readOutline.Assertion (.inr ())
  | .len st => collected (fun _ ↦ True) st
  | .eagain | .erestartsys => away
  | .einval | .efault => .top

theorem deliver_rule (call : ReadCall) :
    readOutline.Triple (.inr ()) away (deliver call).inr returning := by
  have hclear : readOutline.Triple (.inr ()) away (readPerform .clearChanged).inr
      fun _ ↦ collected (fun _ ↦ False) .init := by
    refine act_rule (o := .inr .clearChanged) (fun _ ↦ .clear) (fun _ ↦ rfl) (fun _ ↦ rfl)
      fun s _ x hsound _ _ _ _ ↦ ⟨⟨hsound.agree, fun _ h ↦ by cases h⟩, fun _ h ↦ h.elim⟩
  have hcopy (st : ParkingStatus) : readOutline.Triple (.inr ()) (collected (fun _ ↦ True) st)
      (readPerform (.copyToUser st.record)).inr fun _ ↦ collected (fun _ ↦ True) st :=
    quiet_rule (o := .inr (.copyToUser st.record)) (fun _ ↦ rfl) fun s _ x _ h _ hboard f ↦ by
      rw [hboard]
      exact h f
  refine .bind_inr hclear fun _ ↦ ?_
  refine .bind_inr (readFields_rule call.order .init fun f ↦ .inr (call.mem_order f)) fun st ↦ ?_
  split
  · exact .ret fun _ _ _ ↦ trivial
  · refine .bind_inr (hcopy st) fun fault ↦ ?_
    cases fault with
    | true => exact .ret fun _ _ _ ↦ trivial
    | false => exact .ret fun _ _ h ↦ h

theorem parkingRead_rule (call : ReadCall) :
    readOutline.Triple (.inr ()) away (parkingRead call).inr returning := by
  have hquiet {o : ReadOp} (ho : ∀ r, act? (.op (.inr ()) (.inr o) r) = none) :
      readOutline.Triple (.inr ()) away (readPerform o).inr fun _ ↦ away :=
    quiet_rule (o := .inr o) ho fun s _ x _ h _ hboard ↦ show (board _).reading = false by
      rw [hboard]
      exact h
  obtain ⟨nonblock, count, order, perm⟩ := call
  cases nonblock with
  | true =>
    refine .bind_inr (hquiet (o := .readChanged) fun _ ↦ rfl) fun changed ↦ ?_
    cases changed with
    | true => exact deliver_rule _
    | false => exact .ret fun _ _ h ↦ h
  | false =>
    refine .bind_inr (hquiet (o := .waitChanged) fun _ ↦ rfl) fun signal ↦ ?_
    cases signal with
    | true => exact .ret fun _ _ h ↦ h
    | false => exact deliver_rule _

theorem leave_rule (result : ReadResult) :
    readOutline.Triple (.inr ()) (returning result) (readPerform (.leave result)).inr
      fun _ ↦ away := by
  refine act_rule (o := .inr (.leave result)) (fun _ ↦ .leave result) (fun _ ↦ rfl) (fun _ ↦ rfl)
    fun s r x hsound hret _ hknown hboard ↦ ?_
  -- a read that fails now has lowered the flag and shown nothing
  have hnofail := hknown _ (List.mem_append_right _ (List.mem_singleton_self _))
  have haway : (board (s.log x (.op (.inr ()) (.inr (.leave result)) r))).reading = false := by
    rw [hboard]
    cases result <;> rfl
  refine ⟨⟨?_, fun hannounced _ f ↦ ?_⟩, haway⟩
  · cases result <;> exact hsound.agree
  · cases result with
    | len st => exact (hret f trivial).resolve_left hannounced
    | eagain | erestartsys => exact hsound.shown hannounced hret f
    | einval | efault => exact absurd trivial hnofail

/-! ## Soundness -/

def readIdle : ∀ t : Thread ⊕ Unit, readOutline.Assertion t
  | .inl .worker => settledDesk
  | .inr () => away
  | .inl .timer | .inl (.button _) => .top

/-- A work item of the driver is quiet but for what it publishes. -/
theorem work_rule (w : Work) :
    readOutline.Triple (.inl .worker) settledDesk w.func.inl fun _ ↦ settledDesk := by
  have hquiet {α : Type} {p : SlotProg α} (hp : p.Uses SlotOp.Quiet) :
      readOutline.Triple (.inl .worker) settledDesk p.inl fun _ ↦ settledDesk :=
    quiet_frame aboutBoard_onDesk hp
  cases w with
  | sensor i =>
    refine .bind_inl (hquiet (p := perform (.takeEcho i)) (Prog.uses_call.mpr trivial))
      fun echo ↦ ?_
    obtain ⟨start, stop⟩ := echo
    dsimp only
    by_cases hvalid : ValidEcho (ktimeToUs (stop - start))
    · rw [if_pos hvalid]
      refine .bind_inl (updateStatus_rule i _) fun _ ↦ ?_
      refine hquiet ((lockMachine_uses i _).mono fun o ho ↦ ?_)
      cases o <;> trivial
    · rw [if_neg hvalid]
      exact .ret fun _ _ h ↦ h
  | lock i =>
    refine hquiet ((lockWorkFunc_uses i).mono fun o ho ↦ ?_)
    cases o <;> trivial

theorem readOutline_valid : readOutline.Valid readIdle where
  ext {s e x} hs hext _ := by
    have hboard : board (s.log x (.ext e)) = board s := board_of_none (l := .ext e) hext rfl
    refine ⟨hboard ▸ hs.2.sound, always_append_singleton.mpr ⟨hs.2.owned, fun a ha ↦ by cases ha⟩⟩
  start {t j s p x} hs hidle hentry hknown := by
    have hboard : board (s.log x (.start t j)) = board s :=
      board_of_none (l := .start t j) ⟨p, hentry⟩ rfl
    have hinv : readOutline.inv (s.log x (.start t j)) :=
      ⟨hboard ▸ hs.2.sound, always_append_singleton.mpr ⟨hs.2.owned, fun a ha ↦ by cases ha⟩⟩
    refine ⟨hinv, ?_⟩
    have hgood : readOutline.Good (s.log x (.start t j)) := ⟨hknown, hinv⟩
    rcases t with t | ⟨⟩ <;> rcases j with j | call
    · obtain ⟨⟨q, y⟩, hq, heq⟩ := Option.map_eq_some_iff.mp hentry
      obtain ⟨rfl, rfl⟩ := Prod.mk.inj heq
      obtain ⟨w, rfl, rfl, rfl, -⟩ | ⟨rfl, -, rfl, -⟩ | ⟨k, rfl, -, rfl, -⟩ := slotEntry_cases hq
      · exact work_rule w _ hgood (aboutBoard_onDesk hboard hidle)
      · refine quiet_frame (P := .top) (fun _ h ↦ h) (measureTimerCb_uses.mono fun o ho ↦ ?_) _
          hgood
          trivial
        cases o <;> trivial
      · refine quiet_frame (P := .top) (fun _ h ↦ h) ((btnIsr_uses k).mono fun o ho ↦ ?_) _ hgood
          trivial
        cases o <;> trivial
    · cases hentry
    · cases hentry
    · obtain ⟨rfl, rfl⟩ := Prod.mk.inj (Option.some.inj hentry)
      have hcall : readOutline.Triple (.inr ()) away
          (parkingRead call >>= fun result ↦ readPerform (.leave result)).inr fun _ ↦ away :=
        .bind_inr (parkingRead_rule call) leave_rule
      exact hcall _ hgood (show (board _).reading = false by rw [hboard]; exact hidle)

/-! ## Results -/

variable {c : WatchedConfig}

/-- In every run without failing reads the board is sound, and no change is under way when the
worker is idle. -/
theorem read_holds (hc : WatchedReachable c) (hnofail : ∀ l ∈ c.trace, ¬Fails l) :
    readOutline.Holds readIdle c := by
  have hstart : readOutline.Holds readIdle (.init Driver.init) := by
    refine ⟨⟨⟨fun _ _ ↦ rfl, fun _ _ f ↦ ?_⟩, always_nil⟩, ?_⟩
    · cases f <;> rfl
    · rintro (t | ⟨⟩)
      · cases t <;> first | rfl | trivial
      · rfl
  exact readOutline_valid.steps hstart hc fun c₁ _ h l hl ↦ hnofail l (h.trace_prefix.subset hl)

/-- While nothing is announced and no read is under way, the last record delivered is up to date. -/
theorem tells_shown (hc : WatchedReachable c) (hnofail : ∀ l ∈ c.trace, ¬Fails l)
    (hchanged : c.state.statusChanged = false) (hreading : (History.of c.trace).reading = false)
    (hchanging : (History.of c.trace).changing = false) (f : StatusField) :
    (board c.toSnap).Tells (History.of c.trace).shown f := by
  have hsound : (board c.toSnap).Sound := (read_holds hc hnofail).1.sound
  have hannounced : ¬(board c.toSnap).Announced := by
    rintro (h | h)
    · rw [show (board c.toSnap).changed = false from hchanged] at h
      cases h
    · rw [show (board c.toSnap).changing = false from hchanging] at h
      cases h
  exact hsound.shown hannounced hreading f

/-- **No change is lost.** While the flag is down, and neither the worker is announcing a change nor
the reader is reading, the last record delivered has the occupancy of both slots, and a distance for
each on the same side of the threshold. -/
theorem no_change_lost (hc : WatchedReachable c) (hnofail : ∀ l ∈ c.trace, ¬Fails l)
    (hchanged : c.state.statusChanged = false) (hreading : (History.of c.trace).reading = false)
    (hchanging : (History.of c.trace).changing = false) (i : Slot) :
    (History.of c.trace).shown.occupied i = (c.state.sensor i).occupied
      ∧ ((History.of c.trace).shown.occupied i = 1
        ↔ (History.of c.trace).shown.distanceCm i ≤ occupiedThresholdCm) := by
  have hoccupied : (History.of c.trace).shown.occupied i = (c.state.sensor i).occupied :=
    tells_shown hc hnofail hchanged hreading hchanging (.occupied i)
  have hdistance : occupiedOf ((History.of c.trace).shown.distanceCm i)
      = (c.state.sensor i).occupied :=
    tells_shown hc hnofail hchanged hreading hchanging (.distance i)
  refine ⟨hoccupied, ?_⟩
  rw [hoccupied.trans hdistance.symm]
  unfold occupiedOf
  split <;> simp [*]

/-! ## A change and its record -/

/-- A change of occupancy is announced. -/
theorem updateStatus_may_announce {i : Slot} {cm : ℤ} {s : SlotSnap} {Q : Unit → SlotSnap → Prop}
    (hne : (s.state.sensor i).occupied ≠ occupiedOf cm)
    (h : ∀ s', s'.state.statusChanged = true → (s'.state.sensor i).occupied = occupiedOf cm →
      (s'.state.sensor i).lockSt = (s.state.sensor i).lockSt → Q () s') :
    SlotMay .worker (updateStatus i cm) Q s := by
  refine .bind (SlotMay.perform (o := .readOccupied i) _ rfl ?_)
  refine .bind (SlotMay.perform (o := .setDistance i cm) () trivial ?_)
  refine .bind (SlotMay.perform (o := .setOccupied i _) () trivial ?_)
  refine .bind (SlotMay.perform (o := .setLed i _) () trivial ?_)
  rw [if_pos hne]
  refine .bind (SlotMay.perform (o := .notify) () trivial ?_)
  refine SlotMay.perform (o := .printk _) () trivial (h _ rfl ?_ ?_)
  · simp [SlotOp.effect]
  · simp [SlotOp.effect]

/-- The lock state machine of a free slot. -/
theorem lockMachine_may_start {i : Slot} {occupied : ℤ} {s : SlotSnap} {Q : Unit → SlotSnap → Prop}
    (hocc : occupied ≠ 0) (hst : (s.state.sensor i).lockSt = .free)
    (h : ∀ s', s'.state.statusChanged = s.state.statusChanged →
      (s'.state.sensor i).occupied = (s.state.sensor i).occupied → Q () s') :
    SlotMay .worker (lockMachine i occupied) Q s := by
  refine .bind (SlotMay.perform (o := .readLockSt i) .free hst.symm ?_)
  change SlotMay .worker (ite _ _ _) Q _
  rw [if_pos hocc]
  refine .bind (SlotMay.perform (o := .ktime) 0 trivial ?_)
  refine .bind (SlotMay.perform (o := .store i .occupyStart 0) () trivial ?_)
  refine .bind (SlotMay.perform (o := .store i .consecutiveUnoccupied 0) () trivial ?_)
  refine SlotMay.perform (o := .setLockSt i .timing) () trivial (h _ rfl ?_)
  simp [SlotOp.effect, SensorDev.set]

/-- A vehicle comes, and the change is announced. -/
theorem exists_announced : ∃ c, slotMachine.Steps (.init .init) c ∧ (c.thread = fun _ ↦ none)
    ∧ c.state.statusChanged = true ∧ (c.state.sensor 0).occupied = 1 := by
  have hvalid : ValidEcho (ktimeToUs (290000 - 0)) := by decide
  have hocc : occupiedOf (echoCm (ktimeToUs (290000 - 0))) = 1 := by decide
  obtain ⟨c₁, -, h₁, hthread₁, hqueue₁, hsensor₁, -⟩ := exists_measurement (c := .init Driver.init)
    (i := 0) 0 290000 rfl rfl rfl
  have hmay : SlotMay .worker (sensorWorkFunc 0)
      (fun _ s ↦ s.state.statusChanged = true ∧ (s.state.sensor 0).occupied = 1)
      (c₁.toSnap.log { c₁.state with queue := [] } (.start .worker (.work (.sensor 0)))) := by
    refine .bind (SlotMay.perform (o := .takeEcho 0) (0, 290000) ?_ ?_)
    · simp [SlotOp.Answers, hsensor₁]
    change SlotMay .worker (ite _ _ _) _ _
    rw [if_pos hvalid]
    refine .bind (updateStatus_may_announce ?_ fun s₁ hchanged hoccupied hst ↦ ?_)
    · rw [hocc]
      simp [SlotOp.effect, hsensor₁, Config.init, Driver.init, SensorDev.init]
    refine lockMachine_may_start (by rw [hocc]; decide) (hst.trans ?_) fun s₂ h₂ h₂' ↦
      ⟨h₂.trans hchanged, h₂'.trans (hoccupied.trans hocc)⟩
    simp [SlotOp.effect, hsensor₁, Config.init, Driver.init, SensorDev.init]
  obtain ⟨c₂, h₂, hthread₂, -, hP⟩ := exists_work (congrFun hthread₁ .worker) hqueue₁ hmay
  exact ⟨c₂, h₁.trans h₂, hthread₂.trans hthread₁, hP⟩

theorem readPerform_may {o : ReadOp} (r : o.Resp) {Q : o.Resp → WatchedSnap → Prop}
    {s : WatchedSnap} (hr : o.Answers r s.state)
    (hQ : Q r (s.log (o.effect s.state) (.op (.inr ()) (.inr o) r))) :
    watchedMachine.May (.inr ()) (readPerform o).inr Q s :=
  Machine.May.call (M := watchedMachine) (t := .inr ()) (o := .inr o) r (exec_read.mpr ⟨hr, rfl⟩) hQ

theorem known_log {s : WatchedSnap} (h : readOutline.known s) (hl : ¬Fails l) :
    readOutline.known (s.log x l) := by
  intro l' hl'
  rcases List.mem_append.mp hl' with hl' | hl'
  · exact h l' hl'
  · rwa [List.mem_singleton.mp hl']

/-- The values are read one after the other. -/
theorem readFields_may (fs : List StatusField) (st : ParkingStatus) {s : WatchedSnap}
    {Q : ParkingStatus → WatchedSnap → Prop} (hs : readOutline.known s)
    (h : ∀ s', s'.state = s.state → readOutline.known s' →
      Q (fs.foldl (fun st f ↦ st.set (s.state.field f) f) st) s') :
    watchedMachine.May (.inr ()) (readFields fs st).inr Q s := by
  induction fs generalizing st s with
  | nil => exact .ret (h s rfl hs)
  | cons f fs ih =>
    exact .bind_inr (readPerform_may _ rfl (ih _ (known_log hs id) fun s' hstate ↦ h s' hstate))

/-- A read that delivers a record. -/
theorem exists_read (hidle : c.thread (.inr ()) = none) (hchanged : c.state.statusChanged = true)
    (hknown : readOutline.known c.toSnap) :
    ∃ c', watchedMachine.Steps c c' ∧ c'.thread = c.thread
      ∧ c'.state = { c.state with statusChanged := false } ∧ readOutline.known c'.toSnap := by
  let order : List StatusField := [.occupied 0, .occupied 1, .distance 0, .distance 1]
  let st : ParkingStatus := order.foldl (fun st f ↦ st.set (c.state.field f) f) .init
  let call : ReadCall := ⟨false, st.record.length, order, .refl _⟩
  have hmay : watchedMachine.May (.inr ())
      (parkingRead call >>= fun result ↦ readPerform (.leave result)).inr
      (fun _ s ↦ s.state = { c.state with statusChanged := false } ∧ readOutline.known s)
      (c.toSnap.log c.state (.start (.inr ()) (.inr call))) := by
    refine .bind_inr (.bind_inr (readPerform_may (o := .waitChanged) false (.inr hchanged) ?_))
    refine .bind_inr (readPerform_may (o := .clearChanged) () trivial ?_)
    refine .bind_inr (readFields_may order .init ?_ fun s hstate hs ↦ ?_)
    · exact known_log (known_log (known_log hknown id) id) id
    split
    · exact absurd ‹_› (Nat.lt_irrefl _)
    · refine .bind_inr (readPerform_may (o := .copyToUser _) false trivial ?_)
      refine .ret (readPerform_may (o := .leave _) () trivial ⟨hstate, ?_⟩)
      exact known_log (known_log hs id) id
  obtain ⟨c', hsteps, hthread, hstate, hknown'⟩ := hmay.steps hidle rfl
  exact ⟨c', hsteps, hthread, hstate, hknown'⟩

/-- A run of the driver that nobody reads. -/
theorem watched_of_slot {c : SlotConfig} (h : SlotReachable c) : WatchedReachable c.inl := by
  have hsteps := Machine.steps_inl (N := readMachine) h
  rwa [Config.inl_init] at hsteps

/-- No read has failed in it. -/
theorem known_inl (c : SlotConfig) : readOutline.known c.inl.toSnap := by
  intro l hl
  obtain ⟨l₁, -, rfl⟩ := List.mem_map.mp hl
  cases l₁ <;> exact id

/-- The record says that there is a vehicle. -/
theorem no_change_lost_announced : ∃ c, WatchedReachable c ∧ c.state.statusChanged = false
    ∧ (History.of c.trace).shown.occupied 0 = 1 := by
  obtain ⟨c₁, h₁, hthread₁, hchanged₁, hoccupied₁⟩ := exists_announced
  obtain ⟨c₂, h₂, hthread₂, hstate₂, hnofail⟩ :=
    exists_read (c := c₁.inl) rfl hchanged₁ (known_inl c₁)
  have hc : WatchedReachable c₂ := (watched_of_slot h₁).trans h₂
  have hholds := read_holds hc hnofail
  have hreading : (History.of c₂.trace).reading = false :=
    hholds.idle_of_none (t := .inr ()) (by rw [hthread₂]; rfl)
  have hchanging : (History.of c₂.trace).changing = false :=
    hholds.idle_of_none (t := .inl .worker) (by simp [hthread₂, Config.inl, Prog.threads, hthread₁])
  have hchanged : c₂.state.statusChanged = false := by rw [hstate₂]
  refine ⟨c₂, hc, hchanged, ?_⟩
  rw [(no_change_lost hc hnofail hchanged hreading hchanging 0).1, hstate₂]
  exact hoccupied₁

end ParkingService.Slots
