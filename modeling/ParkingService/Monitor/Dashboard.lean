import ParkingService.Monitor.Collector

/-!
# The dashboard

A page asks the server once for what the database holds (`get_dashboard_state` of `db.py`) and puts
it into its state (`applyState` of `dashboard.js`). From then on it listens to the messages itself
(`handleMqttMessage`). Both write the same few texts of the page; the class names, which repeat
them, are left out.

Python and JavaScript read a payload each in its own way. `null` has no members here either, but any
other value has, and they are undefined. An integer counts as the decimal of the same value; beyond
`2 ^ 53`, where a double rounds, both are kept as they are (so are those in the database, whose
`REAL` columns would round alike).
-/

namespace ParkingService.Monitor

open Json

/-! ## What the database holds -/

structure Pair (α : Type) where
  slot1 : α
  slot2 : α

def present : Value → Bool
  | .null => false
  | _ => true

def getLatestSlotState (db : Database) : Option SlotRow :=
  db.slotLog.find? fun r ↦ present r.slot1State || present r.slot2State

def getLatestSlotDistance (db : Database) : Option SlotRow :=
  db.slotLog.find? fun r ↦ present r.slot1Distance || present r.slot2Distance

def getLatestLotState (db : Database) : Option StateRow := db.lotLog.find? fun r ↦ present r.state

def getLatestGateState (db : Database) : Option StateRow := db.gateLog.find? fun r ↦ present r.state

def getRecentEvents (db : Database) (limit : ℕ) : List EventRow := db.eventLog.take limit

/-- What the server answers. -/
structure Snapshot where
  slot : Pair Value
  distance : Pair Value
  lotState : Value
  gateState : Value
  lastUpdated : Option ℤ
  events : List EventRow

def unknown : Value := text "UNKNOWN"

def getDashboardState (db : Database) : Snapshot :=
  let slotState := getLatestSlotState db
  let slotDistance := getLatestSlotDistance db
  let lot := getLatestLotState db
  let gate := getLatestGateState db
  { slot :=
      { slot1 := (slotState.map (·.slot1State)).getD unknown
        slot2 := (slotState.map (·.slot2State)).getD unknown }
    distance :=
      { slot1 := (slotDistance.map (·.slot1Distance)).getD .null
        slot2 := (slotDistance.map (·.slot2Distance)).getD .null }
    lotState := (lot.map (·.state)).getD unknown
    gateState := (gate.map (·.state)).getD unknown
    lastUpdated := ([slotState.map (·.timestamp), slotDistance.map (·.timestamp),
      lot.map (·.timestamp), gate.map (·.timestamp)].filterMap id).max?
    events := getRecentEvents db 10 }

/-! ## JavaScript -/

/-- `undefined` is `none`. -/
abbrev JsValue := Option Value

/-- `JSON.parse` -/
def jsonParse (payload : String) : Option Value :=
  (parse { constants := false, maxDigits := none, maxDepth := none } payload.toList).toOption

/-- An integer is a decimal without places. -/
def number : Value → Value
  | .int n => .decimal n 0
  | v => v

/-- `data[key]`; `null` throws. -/
def property (data : Value) (key : String) : Option JsValue :=
  match data with
  | .null => none
  | .obj ms => some ((member? ms (Str.of key)).map number)
  | _ => some none

def truthy : JsValue → Bool
  | none | some .null | some (.bool false) | some (.int 0) | some (.decimal 0 _)
  | some (.constant .nan) | some (.str []) => false
  | _ => true

/-- `v || w` -/
def orElse (v w : JsValue) : JsValue := if truthy v then v else w

def isText (s : String) : JsValue → Bool
  | some (.str t) => t = Str.of s
  | _ => false

/-! ## The page -/

/-- The text of a time, which is one of a row or one of the page. -/
inductive Stamp
  | row (timestamp : ℤ)
  | page (now : ℚ)

/-- An entry of `recentEvents`. -/
structure Event where
  timestamp : Stamp
  topic : JsValue
  eventType : JsValue
  reason : JsValue

structure DashboardState where
  slot : Pair JsValue
  distance : Pair JsValue
  lotState : JsValue
  gateState : JsValue

/-- A line of the feed. -/
structure Line where
  timestamp : Stamp
  eventType : JsValue
  /-- in brackets, if there is one -/
  reason : JsValue
  topic : JsValue

def Event.line (e : Event) : Line where
  timestamp := e.timestamp
  eventType := orElse e.eventType (text "unknown_event")
  reason := orElse e.reason none
  topic := orElse e.topic (text "")

/-- The texts of the page. -/
structure Screen where
  slotState : Pair Value
  /-- `none` is a dash, here and in what follows -/
  slotDistance : Pair (Option Value)
  availableSlots : Option ℕ
  lotState : Value
  gateState : Value
  events : List Line
  lastGateEvent : Option Value
  lastGateReason : Option Value
  lastUpdated : Option Stamp
  mqttStatus : String
  lastMqtt : Option (String × String)

structure Page where
  dashboardState : DashboardState
  recentEvents : List Event
  screen : Screen

def textOrUnknown : JsValue → Value
  | none | some .null | some (.str []) => unknown
  | some v => v

def formatDistance : JsValue → Option Value
  | none | some .null => none
  | some v => some v

/-- The page before anything has been received. -/
def Page.start : Page where
  dashboardState :=
    { slot := ⟨some .null, some .null⟩
      distance := ⟨some .null, some .null⟩
      lotState := some .null
      gateState := some .null }
  recentEvents := []
  screen :=
    { slotState := ⟨unknown, unknown⟩
      slotDistance := ⟨none, none⟩
      availableSlots := none
      lotState := unknown
      gateState := unknown
      events := []
      lastGateEvent := none
      lastGateReason := none
      lastUpdated := none
      mqttStatus := "DISCONNECTED"
      lastMqtt := none }

/-- `updateAvailableSlots`: what it writes. -/
def availableSlots (slot : Pair JsValue) : Option ℕ :=
  let states := [slot.slot1, slot.slot2]
  if (states.filter truthy).length = 0 then none
  else some (states.filter (isText "EMPTY")).length

/-- A row of the event log, as the page receives it. -/
def eventOf (r : EventRow) : Event where
  timestamp := .row r.timestamp
  topic := some r.topic
  eventType := some r.eventType
  reason := some r.reason

namespace Page

variable (g : Page)

/-- `updateSlot` of both slots. -/
def updateSlots : Page :=
  let slot := g.dashboardState.slot
  let distance := g.dashboardState.distance
  { g with screen := { g.screen with
      slotState := ⟨textOrUnknown slot.slot1, textOrUnknown slot.slot2⟩
      slotDistance := ⟨formatDistance distance.slot1, formatDistance distance.slot2⟩
      availableSlots := Monitor.availableSlots slot } }

def updateLotState (state : JsValue) : Page :=
  { g with screen := { g.screen with lotState := textOrUnknown state } }

def updateGate (state : JsValue) : Page :=
  { g with screen := { g.screen with gateState := textOrUnknown state } }

def updateEvents : Page :=
  { g with screen := { g.screen with events := g.recentEvents.map Event.line } }

def appendEvent (e : Event) : Page :=
  updateEvents { g with recentEvents := (e :: g.recentEvents).take 10 }

def updateLastGateEvent (eventType reason : JsValue) : Page :=
  { g with screen := { g.screen with
      lastGateEvent := some (textOrUnknown eventType)
      lastGateReason := orElse reason none } }

def updateLastUpdated (t : Option Stamp) : Page :=
  { g with screen := { g.screen with lastUpdated := t } }

def applyState (data : Snapshot) : Page :=
  let g : Page := { g with dashboardState :=
    { slot := ⟨some data.slot.slot1, some data.slot.slot2⟩
      distance := ⟨some data.distance.slot1, some data.distance.slot2⟩
      -- an empty answer does not replace what the page has, unlike for the slots
      lotState := orElse (some data.lotState) g.dashboardState.lotState
      gateState := orElse (some data.gateState) g.dashboardState.gateState } }
  let g := g.updateSlots
  let g := g.updateLotState g.dashboardState.lotState
  let g := g.updateGate g.dashboardState.gateState
  let g := g.updateLastUpdated (data.lastUpdated.map .row)
  let g := updateEvents { g with recentEvents := data.events.map eventOf }
  match g.recentEvents with
  | [] => g
  | e :: _ => g.updateLastGateEvent e.eventType e.reason

/-- `none` if it throws. -/
def handleMqttMessage (now : ℚ) (topic payload : String) : Option Page :=
  match route topic with
  | .slot => do
    let data ← jsonParse payload
    let slot1 ← property data "slot1"
    let slot2 ← property data "slot2"
    let g := updateSlots
      { g with dashboardState := { g.dashboardState with slot := ⟨slot1, slot2⟩ } }
    return g.updateLastUpdated (some (.page now))
  | .distance => do
    let data ← jsonParse payload
    let slot1 ← property data "slot1"
    let slot2 ← property data "slot2"
    let g := updateSlots
      { g with dashboardState := { g.dashboardState with distance := ⟨slot1, slot2⟩ } }
    return g.updateLastUpdated (some (.page now))
  | .lot =>
    let state := some (text payload)
    let g := updateLotState
      { g with dashboardState := { g.dashboardState with lotState := state } } state
    some (g.updateLastUpdated (some (.page now)))
  | .gate =>
    let state := some (text payload)
    let g := updateGate
      { g with dashboardState := { g.dashboardState with gateState := state } } state
    some (g.updateLastUpdated (some (.page now)))
  | .event => do
    let data ← jsonParse payload
    let event ← property data "event"
    let reason ← property data "reason"
    let g := g.updateLastGateEvent event reason
    let g := g.appendEvent
      { timestamp := .page now, topic := some (text topic), eventType := event, reason }
    return g.updateLastUpdated (some (.page now))
  | .heartbeat | .unknown => some g

/-- What the page does with a message: if that throws, its state is as it was. -/
def onMessage (now : ℚ) (topic payload : String) : Page :=
  let g : Page := { g with screen := { g.screen with lastMqtt := some (topic, payload) } }
  (g.handleMqttMessage now topic payload).getD
    { g with screen := { g.screen with mqttStatus := "MESSAGE ERROR" } }

/-! ## What becomes of the state -/

section State

variable {g} {now : ℚ} {topic payload : String} {data : Value} {v w : JsValue}

theorem onMessage_slot (hroute : route topic = .slot) (hparse : jsonParse payload = some data)
    (hv : property data "slot1" = some v) (hw : property data "slot2" = some w) :
    (g.onMessage now topic payload).dashboardState = { g.dashboardState with slot := ⟨v, w⟩ } ∧
      (g.onMessage now topic payload).recentEvents = g.recentEvents := by
  simp [onMessage, handleMqttMessage, hroute, hparse, hv, hw, updateSlots, updateLastUpdated]

theorem onMessage_distance (hroute : route topic = .distance)
    (hparse : jsonParse payload = some data)
    (hv : property data "slot1" = some v) (hw : property data "slot2" = some w) :
    (g.onMessage now topic payload).dashboardState = { g.dashboardState with distance := ⟨v, w⟩ } ∧
      (g.onMessage now topic payload).recentEvents = g.recentEvents := by
  simp [onMessage, handleMqttMessage, hroute, hparse, hv, hw, updateSlots, updateLastUpdated]

theorem onMessage_lot (hroute : route topic = .lot) :
    (g.onMessage now topic payload).dashboardState =
        { g.dashboardState with lotState := some (text payload) } ∧
      (g.onMessage now topic payload).recentEvents = g.recentEvents := by
  simp [onMessage, handleMqttMessage, hroute, updateLotState, updateLastUpdated]

theorem onMessage_gate (hroute : route topic = .gate) :
    (g.onMessage now topic payload).dashboardState =
        { g.dashboardState with gateState := some (text payload) } ∧
      (g.onMessage now topic payload).recentEvents = g.recentEvents := by
  simp [onMessage, handleMqttMessage, hroute, updateGate, updateLastUpdated]

theorem onMessage_event (hroute : route topic = .event) (hparse : jsonParse payload = some data)
    (hv : property data "event" = some v) (hw : property data "reason" = some w) :
    (g.onMessage now topic payload).dashboardState = g.dashboardState ∧
      (g.onMessage now topic payload).recentEvents =
        (⟨.page now, some (text topic), v, w⟩ :: g.recentEvents).take 10 := by
  simp [onMessage, handleMqttMessage, hroute, hparse, hv, hw, updateLastGateEvent, appendEvent,
    updateEvents, updateLastUpdated]

theorem onMessage_of_throw
    (hroute : route topic = .slot ∨ route topic = .distance ∨ route topic = .event)
    (hparse : jsonParse payload = none) :
    (g.onMessage now topic payload).dashboardState = g.dashboardState ∧
      (g.onMessage now topic payload).recentEvents = g.recentEvents := by
  rcases hroute with hroute | hroute | hroute <;>
    simp [onMessage, handleMqttMessage, hroute, hparse]

theorem onMessage_other (hroute : route topic = .heartbeat ∨ route topic = .unknown) :
    (g.onMessage now topic payload).dashboardState = g.dashboardState ∧
      (g.onMessage now topic payload).recentEvents = g.recentEvents := by
  rcases hroute with hroute | hroute <;> simp [onMessage, handleMqttMessage, hroute]

end State

end Page

/-! ## The screen shows the state -/

/-- Slots, distances, lot and gate, as a reader of the page sees them. -/
structure Readings where
  slot : Pair Value
  distance : Pair (Option Value)
  lotState : Value
  gateState : Value

def Screen.readings (s : Screen) : Readings :=
  ⟨s.slotState, s.slotDistance, s.lotState, s.gateState⟩

def DashboardState.readings (d : DashboardState) : Readings where
  slot := ⟨textOrUnknown d.slot.slot1, textOrUnknown d.slot.slot2⟩
  distance := ⟨formatDistance d.distance.slot1, formatDistance d.distance.slot2⟩
  lotState := textOrUnknown d.lotState
  gateState := textOrUnknown d.gateState

/-- The screen shows the state of the page. -/
structure Page.Rendered (g : Page) : Prop where
  readings : g.screen.readings = g.dashboardState.readings
  availableSlots : g.screen.availableSlots = availableSlots g.dashboardState.slot
  events : g.screen.events = g.recentEvents.map Event.line

namespace Page

variable {g : Page}

theorem applyState_rendered (g : Page) (data : Snapshot) : (g.applyState data).Rendered := by
  unfold applyState
  dsimp only
  split <;> exact ⟨rfl, rfl, rfl⟩

theorem Rendered.updateLastUpdated (h : g.Rendered) (t : Option Stamp) :
    (g.updateLastUpdated t).Rendered := ⟨h.readings, h.availableSlots, h.events⟩

theorem Rendered.updateSlots {d : DashboardState} (h : g.Rendered)
    (hlot : d.lotState = g.dashboardState.lotState)
    (hgate : d.gateState = g.dashboardState.gateState) :
    (Page.updateSlots { g with dashboardState := d }).Rendered where
  readings := by
    have := h.readings
    simp_all [Page.updateSlots, Screen.readings, DashboardState.readings]
  availableSlots := rfl
  events := h.events

theorem Rendered.handleMqttMessage (h : g.Rendered) {now : ℚ} {topic payload : String} {g' : Page}
    (h' : g.handleMqttMessage now topic payload = some g') : g'.Rendered := by
  have hreadings := h.readings
  unfold Page.handleMqttMessage at h'
  cases hroute : route topic <;> rw [hroute] at h' <;> dsimp only at h'
  case heartbeat | unknown =>
    cases h'
    exact h
  case slot | distance =>
    simp only [Option.bind_eq_bind, Option.bind_eq_some_iff, Option.pure_def] at h'
    -- a payload that throws never comes to the screen
    obtain ⟨data, -, slot1, -, slot2, -, h'⟩ := h'
    cases h'
    apply Rendered.updateLastUpdated
    apply h.updateSlots <;> rfl
  case lot | gate =>
    cases h'
    refine ⟨?_, h.availableSlots, h.events⟩
    simp_all [Page.updateLotState, Page.updateGate, Page.updateLastUpdated, Screen.readings,
      DashboardState.readings]
  case event =>
    simp only [Option.bind_eq_bind, Option.bind_eq_some_iff, Option.pure_def] at h'
    obtain ⟨data, -, event, -, reason, -, h'⟩ := h'
    cases h'
    exact ⟨h.readings, h.availableSlots, rfl⟩

theorem Rendered.onMessage (h : g.Rendered) (now : ℚ) (topic payload : String) :
    (g.onMessage now topic payload).Rendered := by
  unfold Page.onMessage
  dsimp only
  cases hm : Page.handleMqttMessage _ now topic payload with
  | some g' =>
    refine Rendered.handleMqttMessage ?_ hm
    exact ⟨h.readings, h.availableSlots, h.events⟩
  | none => exact ⟨h.readings, h.availableSlots, h.events⟩

end Page

end ParkingService.Monitor
