import ParkingService.Slot.Session
import ParkingService.System.Lot

/-!
# What is sent and what is received

What each program has sent last on a topic is what it knows (`SentByDaemon`, `SentByBridge`), and
what the collector and the gate module hold is what they have received last (`Collected`,
`capacityOf`). `Lot.Sound` puts this together with the network in between, and with what is known of
the parts; it holds of every reachable lot.

Every message is one that both readers understand (`Utterance.tells`). So nothing on the way ends
the collector, and it never stores that it could not interpret something.
-/

namespace ParkingService.Monitor

open Concurrency Json Network Slots Text

/-! ## What has been sent -/

/-- What the daemon has sent last. -/
structure SentByDaemon (b : Broker) (pks : List Parcel) : Prop where
  slot : Network.latest topicSlot pks = b.slot
  distance : Network.latest topicDistance pks = b.distance
  lot : Network.latest topicLot pks = b.lot

/-- What the bridge has sent last. -/
def SentByBridge (b : Bridge) (pks : List Parcel) : Prop :=
  b.prev = "UNKNOWN" ∧ Network.latest topicPubGate pks = none ∨
    ∃ s, b.prev = stateString s ∧
      Network.latest topicPubGate pks = some (stateToGate (stateString s))

section Sent

variable {b : Broker} {br : Bridge} {st : ParkingStatus} {s : SystemState} {pks : List Parcel}
  {pk : Parcel}

theorem SentByDaemon.publish (b : Broker) (st : ParkingStatus) (pks : List Parcel) :
    SentByDaemon (b.publish st) (pks ++ parcelsOf st) := by
  refine ⟨?_, ?_, ?_⟩
  all_goals
    rw [Network.latest_append]
    rfl

theorem parcelsOf_mem (hst : st.Storable) (h : pk ∈ parcelsOf st) :
    plan.owner pk.topic = .daemon ∧ pk.retain = plan.retained pk.topic ∧
      ∃ u, Utterance pk.topic pk.payload u := by
  simp only [parcelsOf, List.mem_cons, List.not_mem_nil, or_false] at h
  obtain rfl | rfl | rfl := h
  · exact ⟨rfl, rfl, _, .slot st⟩
  · exact ⟨rfl, rfl, _, .distance hst⟩
  · exact ⟨rfl, rfl, _, .lot st⟩

/-- What is published of a poll. -/
theorem parcelsOfPoll_eq (br : Bridge) (s : SystemState) :
    parcelsOfPoll br (stateString s) =
      if stateString s = br.prev then []
      else ⟨topicPubGate, stateToGate (stateString s), true⟩ ::
        (if (transitionToEvent br.prev (stateString s)).1 ≠ "" then
          [parcelOf (eventMessage (transitionToEvent br.prev (stateString s)).1
            (transitionToEvent br.prev (stateString s)).2)]
        else []) := by
  rw [parcelsOfPoll, br.pollGateState_stateString s]
  split
  · rw [List.drop_length, List.map_nil]
  · rw [List.drop_left', List.map_cons]
    · split <;> rfl
    · rfl

theorem parcelsOfPoll_mem (h : pk ∈ parcelsOfPoll br (stateString s)) :
    plan.owner pk.topic = .bridge ∧ pk.retain = plan.retained pk.topic ∧
      ∃ u, Utterance pk.topic pk.payload u := by
  rw [parcelsOfPoll_eq] at h
  split at h
  · cases h
  · rcases List.mem_cons.mp h with rfl | h
    · exact ⟨rfl, rfl, _, .gate _⟩
    · split at h
      · rename_i hev
        obtain rfl := List.mem_singleton.mp h
        exact ⟨rfl, rfl, _, .event hev⟩
      · cases h

theorem latest_parcelsOfPoll :
    Network.latest topicPubGate (parcelsOfPoll br (stateString s)) =
      if stateString s = br.prev then none else some (stateToGate (stateString s)) := by
  rw [parcelsOfPoll_eq]
  split
  · rfl
  · rw [Network.latest_cons]
    split
    · rfl
    · rfl

theorem SentByBridge.poll (h : SentByBridge br pks) (s : SystemState) :
    SentByBridge (br.pollGateState (stateString s)) (pks ++ parcelsOfPoll br (stateString s)) := by
  refine .inr ⟨s, br.prev_pollGateState s, ?_⟩
  rw [Network.latest_append, latest_parcelsOfPoll]
  split
  · rename_i hsame
    obtain ⟨hprev, -⟩ | ⟨s', hprev, hlatest⟩ := h
    · rw [hprev] at hsame
      exact absurd hsame (by cases s <;> decide)
    · rw [hlatest, ← hprev, hsame]
      rfl
  · rfl

end Sent

/-! ## What has been received -/

/-- The topic of a part of the page. -/
def Topic.name : Topic → String
  | .slot => topicSlot
  | .distance => topicDistance
  | .lot => topicLot
  | .gate => topicPubGate

/-- What a message that has been received tells. -/
def updateOfParcel (pk : Parcel) : Update := updateOf ⟨pk.topic, pk.payload, 0, 0⟩

/-- What messages that have been received tell. -/
def readingsOf (pks : List Parcel) : Readings := (pks.map updateOfParcel).foldl Readings.step .start

/-- The messages are such as the nodes send. -/
def Genuine (pks : List Parcel) : Prop := ∀ pk ∈ pks, ∃ u, Utterance pk.topic pk.payload u

section Received

variable {p : Platform} {u : Update} {topic payload : String} {pks : List Parcel} {pk : Parcel}
  {T : Topic}

theorem Utterance.get?_eq_none (h : Utterance topic payload u) (hne : topic ≠ T.name) :
    u.get? T = none := by
  cases h <;> cases T <;> first | rfl | exact absurd rfl hne

theorem Utterance.updateOf_eq (hp : p.Roomy) (h : Utterance topic payload u) :
    updateOf ⟨topic, payload, 0, 0⟩ = u :=
  (Utterance.tells hp (m := ⟨topic, payload, 0, 0⟩) h).updateOf_eq

theorem Utterance.updateOfParcel (hp : p.Roomy) (h : Utterance pk.topic pk.payload u) :
    updateOfParcel pk = u := h.updateOf_eq hp

theorem readingsOf_append_singleton (pks : List Parcel) (pk : Parcel) :
    readingsOf (pks ++ [pk]) = (readingsOf pks).step (Monitor.updateOfParcel pk) := by
  rw [readingsOf, List.map_append, List.foldl_append]
  rfl

/-- **The last message of a topic counts.** -/
theorem readingsOf_get (hp : p.Roomy) (h : Genuine pks) {v : Shown T}
    (hlatest : Network.latest T.name pks = some payload) (hu : Utterance T.name payload u)
    (hv : u.get? T = some v) : (readingsOf pks).get T = v := by
  induction pks using List.reverseRecOn with
  | nil => cases hlatest
  | append_singleton pks pk ih =>
    obtain ⟨u', hu'⟩ := h pk (by simp)
    rw [readingsOf_append_singleton, step_get, hu'.updateOfParcel hp]
    rw [Network.latest_append, Network.latest_singleton] at hlatest
    by_cases htopic : pk.topic = T.name
    · rw [if_pos htopic, Option.some_or, Option.some.injEq] at hlatest
      rw [htopic, hlatest] at hu'
      have huu : u' = u := (hu'.updateOf_eq hp).symm.trans (hu.updateOf_eq hp)
      rw [huu, hv, Option.getD_some]
    · rw [hu'.get?_eq_none htopic, Option.getD_none]
      rw [if_neg htopic, Option.none_or] at hlatest
      exact ih (fun pk hpk ↦ h pk (List.mem_append_left _ hpk)) hlatest

theorem readingsOf_get_of_none (hp : p.Roomy) (h : Genuine pks)
    (hlatest : Network.latest T.name pks = none) :
    (readingsOf pks).get T = Readings.start.get T := by
  induction pks using List.reverseRecOn with
  | nil => rfl
  | append_singleton pks pk ih =>
    obtain ⟨u, hu⟩ := h pk (by simp)
    rw [Network.latest_append, Option.or_eq_none_iff] at hlatest
    have htopic : pk.topic ≠ T.name := Network.latest_eq_none.mp hlatest.1 pk (by simp)
    rw [readingsOf_append_singleton, step_get, hu.updateOfParcel hp, hu.get?_eq_none htopic,
      Option.getD_none]
    exact ih (fun pk hpk ↦ h pk (List.mem_append_left _ hpk)) hlatest.2

/-- What a parcel on the topic of an event says. -/
structure OfEvent (r : EventRow) (pk : Parcel) (prev next : String) : Prop where
  happened : (transitionToEvent prev next).1 ≠ ""
  topic : pk.topic = topicPubEvent
  payload : pk.payload =
    (eventMessage (transitionToEvent prev next).1 (transitionToEvent prev next).2).payload
  row : r.topic = text pk.topic ∧ r.eventType = text (transitionToEvent prev next).1 ∧
    r.reason = text (transitionToEvent prev next).2 ∧ r.payload = text pk.payload

/-- What the collector has made of these messages. -/
structure Collected (s : Collector) (pks : List Parcel) : Prop where
  sound : s.db.Sound
  readings : (getDashboardState s.db).readings = readingsOf pks
  events : ∀ r ∈ s.db.eventLog, ∃ pk ∈ pks, ∃ prev next, OfEvent r pk prev next
  /-- no event is left out -/
  logged : ∀ pk ∈ pks, pk.topic = topicPubEvent →
    ∃ r ∈ s.db.eventLog, ∃ prev next, OfEvent r pk prev next

theorem Utterance.stores (hp : p.Roomy) (hu : Utterance pk.topic pk.payload u) {now : ℚ}
    {db db' : Database} (h : Stores p ⟨pk.topic, pk.payload, now, 0⟩ now db u db') :
    (pk.topic ≠ topicPubEvent ∧ db'.eventLog = db.eventLog) ∨
      ∃ r prev next, db'.eventLog = r :: db.eventLog ∧ OfEvent r pk prev next := by
  obtain ⟨topic, payload, retain⟩ := pk
  have hroute (htopic : topic = topicPubEvent) : u.route = .event := by
    rw [← hu.route_eq, htopic]
    rfl
  cases h with
  | slot | distance | lot | gate | nothing =>
    exact .inl ⟨fun htopic ↦ Route.noConfusion (hroute htopic), rfl⟩
  | rejected hwf => exact absurd (Utterance.wellFormed hp hu) hwf
  | event =>
    cases hu with
    | @event prev next hev =>
      exact .inr ⟨_, prev, next, rfl, hev, rfl, rfl, rfl, rfl, rfl, rfl⟩

/-- The collector takes what a node says. -/
theorem Collected.onMessage (hp : p.Roomy) {s : Collector} (h : Collected s pks)
    (hu : Utterance pk.topic pk.payload u) (now : ℚ) :
    (onMessage p now pk.topic pk.payload s).2 = none ∧
      Collected (onMessage p now pk.topic pk.payload s).1 (pks ++ [pk]) := by
  have htells : Tells p ⟨pk.topic, pk.payload, now, 0⟩ u := Utterance.tells hp hu
  obtain ⟨s', hs'⟩ := htells.benign.returns now s
  have hstores := htells.stores (handleMessage_taken hs')
  have hout : Monitor.onMessage p now pk.topic pk.payload s = (s', none) := by
    rw [Monitor.onMessage]
    dsimp only at hs'
    rw [hs']
  rw [hout]
  refine ⟨rfl, hstores.sound h.sound, ?_, fun r hr ↦ ?_, fun pk' hpk' htopic ↦ ?_⟩
  · rw [hstores.readings, h.readings, readingsOf_append_singleton, hu.updateOfParcel hp]
  · have hbefore (hr : r ∈ s.db.eventLog) :
        ∃ pk' ∈ pks ++ [pk], ∃ prev next, OfEvent r pk' prev next := by
      obtain ⟨pk', hpk', hrow⟩ := h.events r hr
      exact ⟨pk', List.mem_append_left _ hpk', hrow⟩
    obtain ⟨-, hsame⟩ | ⟨r', prev, next, hnew, hrow⟩ := hu.stores hp hstores
    · rw [hsame] at hr
      exact hbefore hr
    · rw [hnew] at hr
      rcases List.mem_cons.mp hr with rfl | hr
      · exact ⟨pk, by simp, prev, next, hrow⟩
      · exact hbefore hr
  · have hkept (r : EventRow) (hr : r ∈ s.db.eventLog) : r ∈ s'.db.eventLog := by
      obtain ⟨-, hsame⟩ | ⟨r', prev, next, hnew, -⟩ := hu.stores hp hstores
      · exact hsame ▸ hr
      · exact hnew ▸ List.mem_cons_of_mem _ hr
    rcases List.mem_append.mp hpk' with hpk' | hpk'
    · obtain ⟨r, hr, hrow⟩ := h.logged pk' hpk' htopic
      exact ⟨r, hkept r hr, hrow⟩
    · obtain rfl := List.mem_singleton.mp hpk'
      obtain ⟨hne, -⟩ | ⟨r, prev, next, hnew, hrow⟩ := hu.stores hp hstores
      · exact absurd htopic hne
      · exact ⟨r, hnew ▸ List.mem_cons_self, prev, next, hrow⟩

theorem Utterance.lot_payload (hu : Utterance topic payload u) (htopic : topic = topicLot) :
    payload = "FULL" ∨ payload = "AVAILABLE" := by
  cases hu with
  | lot st =>
    unfold ParkingStatus.lotPayload
    split
    · exact .inl rfl
    · exact .inr rfl
  | heartbeatC n | heartbeatPython n => exact absurd htopic (by cases n <;> decide)
  | slot | distance | gate | event => exact absurd htopic (by decide)

/-- What the module knows from these messages. -/
def capacityOf (pks : List Parcel) : Capacity :=
  if Network.latest topicLot pks = some "FULL" then ⟨1, 1⟩ else ⟨0, 0⟩

/-- The module takes what the daemon says. -/
theorem deliver_eq_capacityOf (hu : Utterance pk.topic pk.payload u) (htopic : pk.topic = topicLot)
    (junk junk' : ℤ → UInt8) (pks : List Parcel) (c : Capacity) :
    deliver junk junk' (utf8 pk.payload) c = capacityOf (pks ++ [pk]) := by
  rw [capacityOf, Network.latest_append, Network.latest_singleton, if_pos htopic, Option.some_or]
  have hspells (command : Command) (h : utf8 pk.payload = command.text) :
      deliver junk junk' (utf8 pk.payload) c = setCapacityFull command.level c := by
    refine deliver_of_spells (Command.Spells.visible ⟨[], ?_, fun _ h ↦ by cases h⟩) _ _ _
    rw [h, List.append_nil]
  obtain hfull | havailable := hu.lot_payload htopic
  · rw [hspells .full (by rw [hfull]; decide), hfull]
    rfl
  · rw [hspells .available (by rw [havailable]; decide), havailable]
    rfl

end Received

/-! ## At any time -/

/-- What holds of the lot at any time. -/
structure Lot.Sound (x : Lot) : Prop where
  net : x.net.Sound plan
  genuine : ∀ i, Genuine (x.net.sent i)
  rpi1 : x.rpi1.Session
  daemon : SentByDaemon x.rpi1.broker (x.net.sent .daemon)
  gate : GateReachable x.gate
  bridge : SentByBridge x.bridge (x.net.sent .bridge)
  capacity : x.capacity = capacityOf (x.net.received .bridge)
  collector : Collected x.collector (x.net.received .collector)
  up : x.ended = none

theorem broker_of_exec {x y : Rpi1} {e : Rpi1Event} (h : e.exec x = some y) (hne : e ≠ .publish) :
    y.broker = x.broker := by
  unfold Rpi1Event.exec at h
  split at h
  case h_7 => exact absurd rfl hne
  all_goals
    split at h
    all_goals first
      | (obtain rfl := Option.some.inj h; rfl)
      | cases h
      | (obtain ⟨-, hy⟩ := Option.ite_none_right_eq_some.mp h
         obtain rfl := Option.some.inj hy
         rfl)

namespace Lot.Sound

variable {p : Platform} {C : Transport} {x y : Lot}

theorem init : Lot.init.Sound where
  net := .init
  genuine _ _ h := absurd h List.not_mem_nil
  rpi1 := .init
  daemon := ⟨rfl, rfl, rfl⟩
  gate := .refl
  bridge := .inl ⟨rfl, rfl⟩
  capacity := rfl
  collector := ⟨Database.empty_sound, rfl, fun _ h ↦ absurd h List.not_mem_nil,
    fun _ h ↦ absurd h List.not_mem_nil⟩
  up := rfl

theorem received (hx : x.Sound) (k : Subscriber) : Genuine (x.net.received k) :=
  fun pk hpk ↦ hx.genuine _ pk (hx.net.received k pk hpk).2.1

/-- An event of RPI1 that publishes nothing. -/
theorem withRpi1 (hx : x.Sound) {r : Rpi1} {e : Rpi1Event} (h : e.exec x.rpi1 = some r)
    (hin : e.InSession) (hne : e ≠ .publish) : Lot.Sound { x with rpi1 := r } :=
  { hx with
    rpi1 := hx.rpi1.exec h hin
    daemon := by
      have hbroker := broker_of_exec h hne
      exact ⟨hx.daemon.slot.trans (by rw [hbroker]), hx.daemon.distance.trans (by rw [hbroker]),
        hx.daemon.lot.trans (by rw [hbroker])⟩ }

/-- The network after something has been published. -/
theorem published (hx : x.Sound) {i : Publisher} {pks : List Parcel}
    (h : ∀ pk ∈ pks, plan.owner pk.topic = i ∧ pk.retain = plan.retained pk.topic ∧
      ∃ u, Utterance pk.topic pk.payload u) :
    (x.net.publish i pks).Sound plan ∧ ∀ j, Genuine ((x.net.publish i pks).sent j) := by
  refine ⟨hx.net.publish fun pk hpk ↦ ⟨(h pk hpk).1, (h pk hpk).2.1⟩, fun j pk hpk ↦ ?_⟩
  rw [Net.sent_publish] at hpk
  split at hpk
  · rcases List.mem_append.mp hpk with hpk | hpk
    · exact hx.genuine j pk hpk
    · exact (h pk hpk).2.2
  · exact hx.genuine j pk hpk

theorem step (hp : p.Roomy) (hx : x.Sound) (h : Lot.Step p C x y) : y.Sound := by
  cases h with
  | update hcm h => exact hx.withRpi1 h hcm fun h ↦ by cases h
  | rpi1 he h =>
    simp only [List.mem_cons, List.not_mem_nil, or_false] at he
    obtain rfl | rfl | rfl | rfl := he <;> exact hx.withRpi1 h trivial fun h ↦ by cases h
  | @publish r st hst h =>
    obtain ⟨hnet, hgenuine⟩ := hx.published fun pk hpk ↦ parcelsOf_mem (hx.rpi1.taken st hst) hpk
    have hbroker : r.broker = x.rpi1.broker.publish st := by
      rw [Rpi1Event.exec, hst] at h
      obtain rfl := Option.some.inj h
      rfl
    refine { hx with
      net := hnet
      genuine := hgenuine
      rpi1 := hx.rpi1.exec h trivial
      daemon := ?_
      bridge := ?_ }
    · dsimp only
      rw [hbroker, Net.sent_publish, if_pos rfl]
      exact .publish _ _ _
    · dsimp only
      rw [Net.sent_publish, if_neg (by decide)]
      exact hx.bridge
  | gate h _ => exact { hx with gate := hx.gate.tail h }
  | @poll out hout =>
    subst hout
    obtain ⟨hnet, hgenuine⟩ := hx.published fun pk hpk ↦ parcelsOfPoll_mem hpk
    refine { hx with
      net := hnet
      genuine := hgenuine
      gate := hx.gate.tail (step_poll x.gate)
      daemon := ?_
      bridge := ?_ }
    · dsimp only
      rw [Net.sent_publish, if_neg (by decide)]
      exact hx.daemon
    · dsimp only
      rw [Net.sent_publish, if_pos rfl]
      exact hx.bridge.poll _
  | @heartbeat n payload h =>
    have hparcel (pk : Parcel) (hpk : pk ∈ [⟨n.topic, payload, false⟩]) :
        plan.owner pk.topic = .heartbeat n ∧ pk.retain = plan.retained pk.topic ∧
          ∃ u, Utterance pk.topic pk.payload u := by
      obtain rfl := List.mem_singleton.mp hpk
      refine ⟨by cases n <;> rfl, by cases n <;> rfl, .nothing, ?_⟩
      obtain rfl | rfl := h
      · exact .heartbeatC n
      · exact .heartbeatPython n
    obtain ⟨hnet, hgenuine⟩ := hx.published hparcel
    refine { hx with net := hnet, genuine := hgenuine, daemon := ?_, bridge := ?_ }
    · dsimp only
      rw [Net.sent_publish, if_neg fun h ↦ by cases h]
      exact hx.daemon
    · dsimp only
      rw [Net.sent_publish, if_neg fun h ↦ by cases h]
      exact hx.bridge
  | forward h => exact { hx with net := hx.net.forward (C.inOrder h) }
  | connect h => exact { hx with net := hx.net.connect (C.retained h) }
  | disconnect k => exact { hx with net := hx.net.disconnect }
  | @collect q rest pk now hup hq h =>
    have hhanded := C.inOrder h
    have hnet := hx.net.deliver hq hhanded
    obtain ⟨u, hu⟩ := hx.genuine _ pk (hx.net.incoming _ q hq pk hhanded.mem).2.1
    obtain ⟨hended, hcollected⟩ := hx.collector.onMessage hp hu now
    refine { hx with net := hnet, capacity := ?_, collector := ?_, up := hended }
    · dsimp only
      rw [Net.received_deliver, if_neg (by decide)]
      exact hx.capacity
    · dsimp only
      rw [Net.received_deliver, if_pos rfl]
      exact hcollected
  | @command q rest pk junk junk' hq h =>
    have hhanded := C.inOrder h
    have hnet := hx.net.deliver hq hhanded
    obtain ⟨hwants, hsent⟩ := hx.net.incoming _ q hq pk hhanded.mem
    obtain ⟨u, hu⟩ := hx.genuine _ pk hsent.1
    refine { hx with net := hnet, capacity := ?_, collector := ?_ }
    · dsimp only
      rw [Net.received_deliver, if_pos rfl]
      exact deliver_eq_capacityOf hu (of_decide_eq_true hwants) junk junk' _ _
    · dsimp only
      rw [Net.received_deliver, if_neg (by decide)]
      exact hx.collector
  | restart =>
    exact { hx with
      net := hx.net.disconnect
      collector := { hx.collector with }
      up := rfl }

theorem steps (hp : p.Roomy) (hx : x.Sound) (h : Lot.Steps p C x y) : y.Sound := by
  induction h with
  | refl => exact hx
  | tail _ hstep ih => exact ih.step hp hstep

theorem of_reachable (hp : p.Roomy) (h : x.Reachable p C) : x.Sound := init.steps hp h

end Lot.Sound

end ParkingService.Monitor
