import ParkingService.Gate.Capacity
import ParkingService.Monitor.Loading
import ParkingService.Network.Delivery
import ParkingService.System.Payloads
import ParkingService.Text.Lines

/-!
# The parking lot as a whole

The driver and the daemon of RPI1, the gate module and the bridge of RPI2, the heartbeats of both
and the collector of RPI3, with the broker between them. Each part takes the steps of its own model,
in any order, and everything else goes by way of messages: the daemon publishes the records it
takes, the bridge what it makes of its polls, and the collector and the bridge get them late, more
than once or, after they have been cut off, not at all. What the broker and the client libraries do
is left open (`Transport`).

A session begins with nothing loaded, nothing connected and an empty database. The daemon, once
started, and the bridge stay up to its end; the collector may be started again at any time.
-/

namespace ParkingService.Monitor

open Concurrency Json Network Slots Text

/-! ## Who says what to whom -/

/-- The programs that publish. -/
inductive Publisher
  | daemon
  | bridge
  | heartbeat (n : Sender)
  deriving DecidableEq

/-- The programs that subscribe. -/
inductive Subscriber
  | collector
  | bridge
  deriving DecidableEq

/-- A message under way. -/
abbrev Parcel := Packet String String

/-- Who publishes on which topic and asks for what, and who listens to what: the collector to
`parking/#` and the bridge to `TOPIC_SUB_CAPACITY`. -/
def plan : Plan Publisher Subscriber String where
  owner t :=
    if t = topicSlot ∨ t = topicDistance ∨ t = topicLot then .daemon
    else if t = topicPubGate ∨ t = topicPubEvent then .bridge
    else if t = Sender.rpi1.topic then .heartbeat .rpi1
    else .heartbeat .rpi2
  retained t := t = topicSlot ∨ t = topicDistance ∨ t = topicLot ∨ t = topicPubGate
  wants
    | .collector, t => t.toList.takeWhile (· ≠ '/') = "parking".toList
    | .bridge, t => t = topicLot

/-- The broker and the client libraries, which are not part of the repository. -/
abbrev Transport := Net.Carrier plan String

/-- They may do whatever is allowed. -/
def Transport.free : Transport := Net.Carrier.free plan String

/-- The three calls of `mosquitto_publish` for a record. -/
def parcelsOf (st : ParkingStatus) : List Parcel :=
  [⟨topicSlot, st.slotPayload, true⟩, ⟨topicDistance, st.distancePayload, true⟩,
    ⟨topicLot, st.lotPayload, true⟩]

def parcelOf (m : ParkingService.Message) : Parcel := ⟨m.topic, m.payload, m.retain⟩

/-- What one turn of the loop of `poll_gate_state` publishes. -/
def parcelsOfPoll (b : Bridge) (out : String) : List Parcel :=
  ((b.pollGateState out).published.drop b.published.length).map parcelOf

/-! ## Steps -/

/-- The gate module after a poll of its device. -/
def polledNow (c : GateConfig) : GateConfig :=
  ⟨c.toSnap.log c.state (.ext (.poll (stateString c.state.currentState))), c.thread⟩

structure Lot where
  rpi1 : Rpi1
  gate : GateConfig
  bridge : Bridge
  capacity : Capacity
  collector : Collector
  /-- what has ended the collector, if anything has -/
  ended : Option Exn
  net : Net Publisher Subscriber String String

def Lot.init : Lot := ⟨.init ⟨none, none, none⟩, .init .init, .init, ⟨0, 0⟩, .start, none, .init⟩

/-- The collector, started again on the database as it is. -/
def Collector.restart (s : Collector) : Collector := { Collector.start with db := s.db }

inductive Lot.Step (p : Platform) (C : Transport) : Lot → Lot → Prop
  /-- a sensor is read -/
  | update {x : Lot} {y : Rpi1} {i : Slot} {cm : ℤ} (hcm : CanMeasure cm)
      (h : (Rpi1Event.update i cm).exec x.rpi1 = some y) : Step p C x { x with rpi1 := y }
  | rpi1 {x : Lot} {y : Rpi1} {e : Rpi1Event} (he : e ∈ [.load, .unload, .start, .read])
      (h : e.exec x.rpi1 = some y) : Step p C x { x with rpi1 := y }
  | publish {x : Lot} {y : Rpi1} {st : ParkingStatus} (hst : x.rpi1.daemon = .publishing st)
      (h : Rpi1Event.publish.exec x.rpi1 = some y) :
      Step p C x { x with rpi1 := y, net := x.net.publish .daemon (parcelsOf st) }
  /-- the gate module, the polls apart -/
  | gate {x : Lot} {c : GateConfig} (h : gateMachine.Step x.gate c)
      (hpolled : polled c.trace = polled x.gate.trace) : Step p C x { x with gate := c }
  | poll {x : Lot} {out : String} (hout : out = stateString x.gate.state.currentState) :
      Step p C x { x with
        gate := polledNow x.gate
        bridge := x.bridge.pollGateState out
        net := x.net.publish .bridge (parcelsOfPoll x.bridge out) }
  | heartbeat {x : Lot} {n : Sender} {payload : String}
      (h : payload = n.payloadC ∨ payload = n.payloadPython) :
      Step p C x { x with net := x.net.publish (.heartbeat n) [⟨n.topic, payload, false⟩] }
  | forward {x : Lot} {i : Publisher} {pk : Parcel} {rest : List Parcel}
      (h : C.Hands (x.net.outgoing i) pk rest) :
      Step p C x { x with net := x.net.forward i pk rest plan }
  | connect {x : Lot} {k : Subscriber} {pks : List Parcel} (h : C.Gives x.net k pks) :
      Step p C x { x with net := x.net.connect k pks }
  | disconnect {x : Lot} (k : Subscriber) : Step p C x { x with net := x.net.disconnect k }
  /-- `on_message` of the collector -/
  | collect {x : Lot} {q rest : List Parcel} {pk : Parcel} (now : ℚ) (hup : x.ended = none)
      (hq : x.net.incoming .collector = some q) (h : C.Hands q pk rest) :
      Step p C x { x with
        collector := (onMessage p now pk.topic pk.payload x.collector).1
        ended := (onMessage p now pk.topic pk.payload x.collector).2
        net := x.net.deliver .collector pk rest }
  /-- `on_message` of the bridge -/
  | command {x : Lot} {q rest : List Parcel} {pk : Parcel} (junk junk' : ℤ → UInt8)
      (hq : x.net.incoming .bridge = some q) (h : C.Hands q pk rest) :
      Step p C x { x with
        capacity := deliver junk junk' (utf8 pk.payload) x.capacity
        net := x.net.deliver .bridge pk rest }
  | restart {x : Lot} :
      Step p C x { x with
        collector := x.collector.restart
        ended := none
        net := x.net.disconnect .collector }

def Lot.Steps (p : Platform) (C : Transport) : Lot → Lot → Prop :=
  Relation.ReflTransGen (Lot.Step p C)

/-- The steps of the daemon: it takes a record, and publishes it. -/
inductive Lot.DaemonStep : Lot → Lot → Prop
  | read {x : Lot} {y : Rpi1} (h : Rpi1Event.read.exec x.rpi1 = some y) :
      DaemonStep x { x with rpi1 := y }
  | publish {x : Lot} {y : Rpi1} {st : ParkingStatus} (hst : x.rpi1.daemon = .publishing st)
      (h : Rpi1Event.publish.exec x.rpi1 = some y) :
      DaemonStep x { x with rpi1 := y, net := x.net.publish .daemon (parcelsOf st) }

/-- One turn of the loop of `poll_gate_state`. -/
def Lot.polled (x : Lot) : Lot :=
  { x with
    gate := polledNow x.gate
    bridge := x.bridge.pollGateState (stateString x.gate.state.currentState)
    net := x.net.publish .bridge
      (parcelsOfPoll x.bridge (stateString x.gate.state.currentState)) }

/-- The steps of the messages: one is handed on, or a subscriber connects. -/
inductive Lot.MessageStep (p : Platform) (C : Transport) : Lot → Lot → Prop
  | forward {x : Lot} {i : Publisher} {pk : Parcel} {rest : List Parcel}
      (h : C.Hands (x.net.outgoing i) pk rest) :
      MessageStep p C x { x with net := x.net.forward i pk rest plan }
  | connect {x : Lot} {k : Subscriber} {pks : List Parcel} (h : C.Gives x.net k pks) :
      MessageStep p C x { x with net := x.net.connect k pks }
  | collect {x : Lot} {q rest : List Parcel} {pk : Parcel} (now : ℚ) (hup : x.ended = none)
      (hq : x.net.incoming .collector = some q) (h : C.Hands q pk rest) :
      MessageStep p C x { x with
        collector := (onMessage p now pk.topic pk.payload x.collector).1
        ended := (onMessage p now pk.topic pk.payload x.collector).2
        net := x.net.deliver .collector pk rest }
  | command {x : Lot} {q rest : List Parcel} {pk : Parcel} (junk junk' : ℤ → UInt8)
      (hq : x.net.incoming .bridge = some q) (h : C.Hands q pk rest) :
      MessageStep p C x { x with
        capacity := deliver junk junk' (utf8 pk.payload) x.capacity
        net := x.net.deliver .bridge pk rest }

theorem Lot.DaemonStep.step {p : Platform} {C : Transport} {x y : Lot} (h : DaemonStep x y) :
    Step p C x y := by
  cases h with
  | read h => exact .rpi1 (by simp) h
  | publish hst h => exact .publish hst h

theorem Lot.MessageStep.step {p : Platform} {C : Transport} {x y : Lot}
    (h : MessageStep p C x y) : Step p C x y := by
  cases h with
  | forward h => exact .forward h
  | connect h => exact .connect h
  | collect now hup hq h => exact .collect now hup hq h
  | command junk junk' hq h => exact .command junk junk' hq h

/-- The daemon takes what there is to take, the bridge polls once, and messages move on. -/
theorem Lot.steps_of_polled {p : Platform} {C : Transport} {x x₁ y : Lot}
    (h : Relation.ReflTransGen DaemonStep x x₁)
    (h' : Relation.ReflTransGen (MessageStep p C) x₁.polled y) : Steps p C x y := by
  have hbefore : Steps p C x x₁ := h.lift id fun _ _ ↦ DaemonStep.step
  have hpoll : Step p C x₁ x₁.polled := .poll rfl
  have hafter : Steps p C x₁.polled y := h'.lift id fun _ _ ↦ MessageStep.step
  exact Relation.ReflTransGen.trans (hbefore.tail hpoll) hafter

/-- The gate module goes on, and is not polled meanwhile. -/
theorem steps_of_gate {p : Platform} {C : Transport} {x : Lot} {c : GateConfig}
    (h : gateMachine.Steps x.gate c) (hpolled : polled c.trace = polled x.gate.trace) :
    Lot.Steps p C x { x with gate := c } := by
  induction h with
  | refl => exact .refl
  | @tail c' c h hstep ih =>
    -- what has been polled only grows
    have hbefore : polled x.gate.trace <+: polled c'.trace :=
      (Machine.Steps.trace_prefix h).filterMap polledOf
    have hafter : polled c'.trace <+: polled c.trace := hstep.trace_prefix.filterMap polledOf
    have hc' : polled c'.trace = polled x.gate.trace := by
      refine (hbefore.eq_of_length_le ?_).symm
      rw [← hpolled]
      exact hafter.length_le
    have hgate : Lot.Step p C { x with gate := c' } { x with gate := c } :=
      .gate hstep (hpolled.trans hc'.symm)
    exact (ih hc').tail hgate

/-- Reachable in a session. -/
def Lot.Reachable (p : Platform) (C : Transport) (x : Lot) : Prop := Lot.Steps p C .init x

end ParkingService.Monitor
