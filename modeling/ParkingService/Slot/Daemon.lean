import ParkingService.Slot.Reader

/-!
# The daemon and the broker

`rpi1_parking_mqtt.c` reads one record after the other from the driver and publishes each as three
retained messages. What the broker retains is all that is left of a driver that has been unloaded
and of a daemon that has been stopped, and it is what RPI2 lights its full LED by.

A load starts from two empty slots and announces nothing, and the daemon publishes nothing that has
not been announced. So until the first change the broker keeps what it has. That describes the
driver if it happens to say that both slots are empty, and else it does not.

A reading is published here in one step, and so is a record taken; `updateStatus_alone` and
`parkingRead_alone` say that this is what the two routines do when nothing interrupts them.
-/

namespace ParkingService.Slots

open Concurrency

/-! ## Readings and records in one step -/

/-- What `updateStatus` does. -/
def Driver.publish (s : Driver) (i : Slot) (cm : ℤ) : Driver :=
  { s.modify i fun d ↦
      { d with distanceCm := cm, occupied := occupiedOf cm, led := occupiedOf cm } with
    statusChanged := s.statusChanged || decide ((s.sensor i).occupied ≠ occupiedOf cm) }

/-- What a record says that is taken now. -/
def Driver.status (s : Driver) : ParkingStatus where
  occupied i := (s.sensor i).occupied
  distanceCm i := (s.sensor i).distanceCm

theorem Driver.modify_modify (s : Driver) (i : Slot) (f g : SensorDev → SensorDev) :
    (s.modify i f).modify i g = s.modify i fun d ↦ g (f d) := by
  simp [modify]

theorem updateStatus_alone (t : Thread) (i : Slot) (cm : ℤ) (s : SlotSnap) :
    SlotMust t (updateStatus i cm) (fun _ s' ↦ s'.state = s.state.publish i cm) s := by
  refine .bind (SlotMust.perform fun prev hprev ↦ ?_)
  obtain rfl : prev = (s.state.sensor i).occupied := hprev
  refine .bind (SlotMust.perform fun _ _ ↦ ?_)
  refine .bind (SlotMust.perform fun _ _ ↦ ?_)
  refine .bind (SlotMust.perform fun _ _ ↦ ?_)
  by_cases hsame : (s.state.sensor i).occupied = occupiedOf cm
  · rw [if_neg (not_not.mpr hsame)]
    refine .ret ?_
    simp [SlotOp.effect, Driver.modify_modify, Driver.publish, hsame]
    rfl
  · rw [if_pos hsame]
    refine .bind (SlotMust.perform fun _ _ ↦ SlotMust.perform fun _ _ ↦ ?_)
    simp [SlotOp.effect, Driver.modify_modify, Driver.publish, hsame]

abbrev ReadSnap := Snap Unit ReadCall ReadOp.Resp Empty Driver

variable {s : ReadSnap}

theorem readPerform_must {o : ReadOp} {Q : o.Resp → ReadSnap → Prop}
    (h : ∀ r, o.Answers r s.state → Q r (s.log (o.effect s.state) (.op () o r))) :
    readMachine.Must () (readPerform o) Q s := by
  refine .call fun r x hx ↦ ?_
  obtain ⟨hr, rfl⟩ := ReadOp.exec_eq_some.mp hx
  exact h r hr

/-- A value of a record. -/
def ParkingStatus.get (st : ParkingStatus) : StatusField → ℤ
  | .occupied i => st.occupied i
  | .distance i => st.distanceCm i

theorem ParkingStatus.get_set_self (st : ParkingStatus) (x : ℤ) (f : StatusField) :
    (st.set x f).get f = x := by
  cases f <;> exact Function.update_self ..

theorem ParkingStatus.get_set_of_ne (st : ParkingStatus) (x : ℤ) {f f' : StatusField} (h : f' ≠ f) :
    (st.set x f).get f' = st.get f' := by
  cases f <;> cases f'
  case occupied.occupied i j => exact Function.update_of_ne (fun hij ↦ h (congrArg _ hij)) _ _
  case distance.distance i j => exact Function.update_of_ne (fun hij ↦ h (congrArg _ hij)) _ _
  all_goals rfl

theorem readFields_alone (fs : List StatusField) (st : ParkingStatus) (s : ReadSnap) :
    readMachine.Must () (readFields fs st) (fun st' s' ↦ s'.state = s.state
      ∧ ∀ f, st'.get f = if f ∈ fs then s.state.field f else st.get f) s := by
  induction fs generalizing st s with
  | nil => exact .ret ⟨rfl, fun f ↦ by simp⟩
  | cons f fs ih =>
    refine .bind (readPerform_must fun x hx ↦ ?_)
    obtain rfl : x = s.state.field f := hx
    intro st' s' h
    obtain ⟨hstate, hget⟩ := ih _ _ st' s' h
    refine ⟨hstate, fun f' ↦ ?_⟩
    rw [hget f']
    by_cases hff : f' = f
    · subst hff
      simp [ParkingStatus.get_set_self, ReadOp.effect]
    · simp [ParkingStatus.get_set_of_ne _ _ hff, hff, ReadOp.effect]

theorem deliver_alone (call : ReadCall) (s : ReadSnap) :
    readMachine.Must () (deliver call) (fun result s' ↦ ∀ st, result = .len st →
      st = s.state.status ∧ s'.state = { s.state with statusChanged := false }) s := by
  refine .bind (readPerform_must fun _ _ ↦ .bind fun st s₁ h ↦ ?_)
  obtain ⟨hstate, hget⟩ := readFields_alone _ _ _ _ _ h
  have hst : st = s.state.status := by
    have hall (f : StatusField) := (hget f).trans (if_pos (call.mem_order f))
    ext i
    · exact hall (.occupied i)
    · exact hall (.distance i)
  split
  · exact .ret fun _ h ↦ by cases h
  · refine .bind (readPerform_must fun fault _ ↦ ?_)
    cases fault with
    | true => exact .ret fun _ h ↦ by cases h
    | false =>
      refine .ret fun st' h ↦ ?_
      obtain rfl : st = st' := by injection h
      exact ⟨hst, hstate⟩

/-- A record that is delivered says how things are, and the flag that was up is down. -/
theorem parkingRead_alone (call : ReadCall) (s : ReadSnap) :
    readMachine.Must () (parkingRead call) (fun result s' ↦ ∀ st, result = .len st →
      s.state.statusChanged = true ∧ st = s.state.status
        ∧ s'.state = { s.state with statusChanged := false }) s := by
  obtain ⟨nonblock, count, order, perm⟩ := call
  cases nonblock with
  | true =>
    refine .bind (readPerform_must (o := .readChanged) fun changed hchanged ↦ ?_)
    cases changed with
    | true => exact fun result s' h st hst ↦ ⟨hchanged.symm, deliver_alone _ _ result s' h st hst⟩
    | false => exact .ret fun _ h ↦ by cases h
  | false =>
    refine .bind (readPerform_must (o := .waitChanged) fun signal hsignal ↦ ?_)
    cases signal with
    | true => exact .ret fun _ h ↦ by cases h
    | false =>
      have hchanged : s.state.statusChanged = true := hsignal.resolve_left fun h ↦ by cases h
      exact fun result s' h st hst ↦ ⟨hchanged, deliver_alone _ _ result s' h st hst⟩

/-! ## `main` -/

/-- The state of a slot in words. -/
def slotWord (occupied : ℤ) : String := if occupied ≠ 0 then "OCCUPIED" else "EMPTY"

/-- `parking/rpi1/slot` -/
def ParkingStatus.slotPayload (st : ParkingStatus) : String :=
  "\x7b\"slot1\":\"" ++ slotWord st.s1 ++ "\",\"slot2\":\"" ++ slotWord st.s2
    ++ "\"\x7d"

/-- `parking/rpi1/distance` -/
def ParkingStatus.distancePayload (st : ParkingStatus) : String :=
  "\x7b\"slot1\":" ++ toString st.d1 ++ ",\"slot2\":" ++ toString st.d2
    ++ ",\"unit\":\"cm\"\x7d"

/-- `parking/rpi1/lot` -/
def ParkingStatus.lotPayload (st : ParkingStatus) : String :=
  if st.s1 ≠ 0 ∧ st.s2 ≠ 0 then "FULL" else "AVAILABLE"

/-- What the broker retains on the three topics. -/
structure Broker where
  slot : Option String
  distance : Option String
  lot : Option String

/-- The three `mosquitto_publish` calls. -/
def Broker.publish (_ : Broker) (st : ParkingStatus) : Broker :=
  ⟨some st.slotPayload, some st.distancePayload, some st.lotPayload⟩

/-- The daemon: not running, waiting in `parking_read`, or with a record to publish. -/
inductive Daemon
  | off
  | waiting
  | publishing (st : ParkingStatus)

/-- The driver if it is loaded, and whether it has announced a change since then; the daemon; the
broker. -/
structure Rpi1 where
  driver : Option Driver
  announced : Bool
  daemon : Daemon
  broker : Broker

/-- What can happen. -/
inductive Rpi1Event
  | load
  | unload
  /-- the daemon is started -/
  | start
  /-- the daemon ends: the loop looks at `running` between two records only -/
  | stop
  /-- a sensor is read -/
  | update (i : Slot) (cm : ℤ)
  /-- the daemon takes a record -/
  | read
  | publish

/-- An open device keeps the driver from being unloaded, and without a device the daemon ends at
once. -/
def Rpi1Event.exec : Rpi1Event → Rpi1 → Option Rpi1
  | .load, x =>
    match x.driver with
    | none => some { x with driver := some .init, announced := false }
    | some _ => none
  | .unload, x =>
    match x.driver, x.daemon with
    | some _, .off => some { x with driver := none }
    | _, _ => none
  | .start, x =>
    match x.driver, x.daemon with
    | some _, .off => some { x with daemon := .waiting }
    | none, .off => some x
    | _, _ => none
  | .stop, x =>
    match x.daemon with
    | .waiting => some { x with daemon := .off }
    | _ => none
  | .update i cm, x =>
    match x.driver with
    | some d =>
      some { x with
        driver := some (d.publish i cm)
        announced := x.announced || decide ((d.sensor i).occupied ≠ occupiedOf cm) }
    | none => none
  | .read, x =>
    match x.driver, x.daemon with
    | some d, .waiting =>
      if d.statusChanged then
        some { x with
          driver := some { d with statusChanged := false }
          daemon := .publishing d.status }
      else none
    | _, _ => none
  | .publish, x =>
    match x.daemon with
    | .publishing st => some { x with daemon := .waiting, broker := x.broker.publish st }
    | _ => none

/-- One event of a run, under a condition on where the daemon is started. -/
def Rpi1Step (C : Rpi1 → Prop) (x y : Rpi1) : Prop :=
  ∃ e : Rpi1Event, e.exec x = some y ∧ (e = .start → C x)

def Rpi1Steps (C : Rpi1 → Prop) : Rpi1 → Rpi1 → Prop := Relation.ReflTransGen (Rpi1Step C)

/-- The broker retains what `main` computes from these occupancies. -/
def Broker.Tells (b : Broker) (st : ParkingStatus) : Prop :=
  b.slot = some st.slotPayload ∧ b.lot = some st.lotPayload

/-- Nothing loaded, nothing running. -/
def Rpi1.init (b : Broker) : Rpi1 := ⟨none, false, .off, b⟩

/-- While the daemon waits and nothing is announced, the broker describes the driver. -/
def Rpi1.Described (x : Rpi1) : Prop :=
  ∀ d, x.driver = some d → x.daemon = .waiting → d.statusChanged = false → x.broker.Tells d.status

/-- The daemon is started without a driver, or a change has been announced since the load, or the
broker says that both slots are empty. -/
def Rpi1.Fresh (x : Rpi1) : Prop :=
  x.driver = none ∨ x.announced = true ∨ x.broker.Tells .init

/-! ## The invariant -/

section Invariant

variable {b : Broker} {st st' : ParkingStatus} {d : Driver} {i : Slot} {cm : ℤ} {x y : Rpi1}

/-- Distances are not told. -/
theorem Broker.Tells.congr (h : b.Tells st) (hocc : st.occupied = st'.occupied) : b.Tells st' := by
  obtain ⟨hslot, hlot⟩ := h
  have h₁ : st.s1 = st'.s1 := congrFun hocc 0
  have h₂ : st.s2 = st'.s2 := congrFun hocc 1
  refine ⟨hslot.trans ?_, hlot.trans ?_⟩
  · rw [ParkingStatus.slotPayload, h₁, h₂, ParkingStatus.slotPayload]
  · simp only [ParkingStatus.lotPayload, h₁, h₂]

theorem Broker.tells_publish (b : Broker) (st : ParkingStatus) : (b.publish st).Tells st :=
  ⟨rfl, rfl⟩

/-- A reading that changes nothing. -/
theorem Driver.occupied_publish (h : (d.sensor i).occupied = occupiedOf cm) :
    (d.publish i cm).status.occupied = d.status.occupied := by
  funext j
  by_cases hj : j = i
  · subst hj
    simp [publish, status, h]
  · simp [publish, status, Driver.modify_sensor_of_ne _ _ hj]

/-- What the daemon has published, or is about to, is how things are. -/
def Rpi1.Synced (x : Rpi1) (d : Driver) : Prop :=
  match x.daemon with
  | .publishing st => st.occupied = d.status.occupied
  | .off | .waiting => x.broker.Tells d.status

/-- Before the first change since the load. -/
structure Rpi1.Untouched (x : Rpi1) (d : Driver) : Prop where
  unchanged : d.statusChanged = false
  empty : d.status.occupied = ParkingStatus.init.occupied
  told : x.daemon = .off ∨ (x.daemon = .waiting ∧ x.broker.Tells .init)

/-- Before the first change since the load nothing needs to be told, and from then on what is not
told is announced. -/
def Rpi1.Sound (x : Rpi1) : Prop :=
  match x.driver with
  | none => x.daemon = .off
  | some d => if x.announced then d.statusChanged = true ∨ x.Synced d else x.Untouched d

theorem Rpi1.Sound.described (h : x.Sound) : x.Described := by
  intro d hd hwaiting hunchanged
  simp only [Sound, hd] at h
  split at h
  · have hsynced := h.resolve_left (by simp [hunchanged])
    simpa only [Synced, hwaiting] using hsynced
  · rcases h.told with hoff | ⟨-, htells⟩
    · rw [hwaiting] at hoff
      cases hoff
    · exact htells.congr h.empty.symm

theorem Rpi1.Sound.exec {e : Rpi1Event} (h : x.Sound) (he : e.exec x = some y)
    (hfresh : e = .start → x.Fresh) : y.Sound := by
  obtain ⟨driver, announced, daemon, broker⟩ := x
  cases e with
  | load =>
    cases driver with
    | some d => cases he
    | none =>
      obtain rfl := Option.some.inj he
      exact ⟨rfl, rfl, .inl h⟩
  | unload =>
    cases driver with
    | none => cases he
    | some d =>
      cases daemon with
      | off =>
        obtain rfl := Option.some.inj he
        exact rfl
      | waiting | publishing => cases he
  | start =>
    cases driver with
    | none =>
      cases daemon with
      | off =>
        obtain rfl := Option.some.inj he
        exact h
      | waiting | publishing => cases he
    | some d =>
      cases daemon with
      | off =>
        obtain rfl := Option.some.inj he
        cases announced with
        | true => exact h
        | false =>
          -- nothing will be published until the first change
          obtain hnone | hannounced | htells := hfresh rfl
          · cases hnone
          · cases hannounced
          · exact ⟨h.unchanged, h.empty, .inr ⟨rfl, htells⟩⟩
      | waiting | publishing => cases he
  | stop =>
    cases daemon with
    | off | publishing => cases he
    | waiting =>
      obtain rfl := Option.some.inj he
      cases driver with
      | none => cases h
      | some d =>
        cases announced with
        | true => exact h
        | false => exact ⟨h.unchanged, h.empty, .inl rfl⟩
  | update i cm =>
    cases driver with
    | none => cases he
    | some d =>
      obtain rfl := Option.some.inj he
      by_cases hsame : (d.sensor i).occupied = occupiedOf cm
      · have hocc := Driver.occupied_publish hsame
        have hchanged : (d.publish i cm).statusChanged = d.statusChanged := by
          simp [Driver.publish, hsame]
        simp only [hsame, ne_eq, not_true_eq_false, decide_false, Bool.or_false]
        cases announced with
        | true =>
          refine h.imp hchanged.trans fun hsynced ↦ ?_
          cases daemon with
          | publishing st => exact Eq.trans hsynced hocc.symm
          | off | waiting => exact Broker.Tells.congr hsynced hocc.symm
        | false => exact ⟨hchanged.trans h.unchanged, hocc.trans h.empty, h.told⟩
      · have hchanged : (d.publish i cm).statusChanged = true := by simp [Driver.publish, hsame]
        simp only [hsame, ne_eq, not_false_eq_true, decide_true, Bool.or_true]
        exact .inl hchanged
  | read =>
    cases driver with
    | none => cases he
    | some d =>
      cases daemon with
      | off | publishing => cases he
      | waiting =>
        obtain ⟨hchanged, hy⟩ := Option.ite_none_right_eq_some.mp he
        obtain rfl := Option.some.inj hy
        cases announced with
        | true => exact .inr rfl
        | false =>
          have hunchanged : d.statusChanged = false := h.unchanged
          rw [hchanged] at hunchanged
          cases hunchanged
  | publish =>
    cases daemon with
    | off | waiting => cases he
    | publishing st =>
      obtain rfl := Option.some.inj he
      cases driver with
      | none => cases h
      | some d =>
        cases announced with
        | true => exact h.imp id fun hsynced ↦ (broker.tells_publish st).congr hsynced
        | false =>
          obtain hoff | ⟨hwaiting, -⟩ := h.told
          · cases hoff
          · cases hwaiting

end Invariant

/-! ## Results -/

/-- **What the broker retains.** If every start of the daemon finds a driver that has announced a
change since its load, or a broker that says that both slots are empty, then whenever the daemon
waits and nothing is announced, the broker describes the driver. This is just what it takes: where
the broker has described the driver so far, a daemon that is started without it finds one that is
not described. -/
theorem broker_describes {b : Broker} {x : Rpi1} (h : Rpi1Steps Rpi1.Fresh (.init b) x) :
    x.Described ∧ ∀ y, Rpi1Event.start.exec x = some y → (y.Described ↔ x.Fresh) := by
  have hsound : x.Sound := by
    induction h with
    | refl => exact rfl
    | tail _ hstep ih =>
      obtain ⟨e, he, hfresh⟩ := hstep
      exact ih.exec he hfresh
  refine ⟨hsound.described, fun y hy ↦ ⟨fun hdescribed ↦ ?_, fun hfresh ↦ ?_⟩⟩
  · obtain ⟨driver, announced, daemon, broker⟩ := x
    cases driver with
    | none => exact .inl rfl
    | some d =>
      cases announced with
      | true => exact .inr (.inl rfl)
      | false =>
        cases daemon with
        | waiting | publishing => cases hy
        | off =>
          obtain rfl := Option.some.inj hy
          have htells := hdescribed d rfl rfl hsound.unchanged
          exact .inr (.inr (htells.congr hsound.empty))
  · exact (hsound.exec hy fun _ ↦ hfresh).described

/-- One event after the other. -/
def Rpi1.run (x : Rpi1) (es : List Rpi1Event) : Option Rpi1 := es.foldlM (fun x e ↦ e.exec x) x

theorem Rpi1.steps_of_run {x y : Rpi1} {es : List Rpi1Event} (h : x.run es = some y) :
    Rpi1Steps (fun _ ↦ True) x y := by
  induction es generalizing x with
  | nil =>
    obtain rfl : x = y := Option.some.inj h
    exact .refl
  | cons e es ih =>
    obtain ⟨x₁, he, hrest⟩ := Option.bind_eq_some_iff.mp h
    exact .head ⟨e, he, fun _ ↦ trivial⟩ (ih hrest)

/-- The lot was full when it was last told. Driver and daemon come up again, both slots are empty,
and the broker goes on saying that it is full. -/
theorem broker_stays_full : ∃ x, Rpi1Steps (fun _ ↦ True) (.init ⟨none, none, none⟩) x
    ∧ x.broker.lot = some "FULL" ∧ ¬x.Described := by
  obtain ⟨x, hx, hlot, hwaiting, hdriver⟩ : ∃ x, (Rpi1.init ⟨none, none, none⟩).run
      [.load, .start, .update 0 5, .update 1 5, .read, .publish, .stop, .unload, .load, .start]
        = some x ∧ x.broker.lot = some "FULL" ∧ x.daemon = .waiting ∧ x.driver = some .init :=
    ⟨_, rfl, rfl, rfl, rfl⟩
  refine ⟨x, Rpi1.steps_of_run hx, hlot, fun hdescribed ↦ ?_⟩
  have havailable := (hdescribed .init hdriver hwaiting rfl).2
  rw [hlot] at havailable
  exact absurd (Option.some.inj havailable) (by decide)

/-- A vehicle comes before the daemon is started, and is told of. -/
theorem broker_describes_arrival : ∃ x, Rpi1Steps Rpi1.Fresh (.init ⟨none, none, none⟩) x
    ∧ x.daemon = .waiting ∧ x.broker.lot = some "AVAILABLE" ∧ x.Described := by
  have hquiet {x y : Rpi1} (e : Rpi1Event) (he : e.exec x = some y) (hne : e ≠ .start) :
      Rpi1Step Rpi1.Fresh x y := ⟨e, he, fun h ↦ absurd h hne⟩
  have hsteps : ∃ x, Rpi1Steps Rpi1.Fresh (.init ⟨none, none, none⟩) x ∧ x.daemon = .waiting
      ∧ x.broker.lot = some "AVAILABLE" := by
    refine ⟨_, .tail (.tail (.tail (.tail (.tail .refl (hquiet .load rfl ?_))
      (hquiet (.update 0 5) rfl ?_)) ⟨.start, rfl, fun _ ↦ .inr (.inl rfl)⟩)
      (hquiet .read rfl ?_)) (hquiet .publish rfl ?_), rfl, rfl⟩
    all_goals exact fun h ↦ by cases h
  obtain ⟨x, hx, hwaiting, hlot⟩ := hsteps
  exact ⟨x, hx, hwaiting, hlot, (broker_describes hx).1⟩

end ParkingService.Slots
