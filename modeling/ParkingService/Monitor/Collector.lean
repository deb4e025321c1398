import Mathlib.Data.Rat.Init
import ParkingService.Json.Parser

/-!
# The collector of RPI3

`mqtt_handler.py` takes every message under `parking/` and stores it in one of four tables of a
SQLite database (`db.py`, `schema.sql`). Text that is no JSON is stored too, as an event that says
so. Any other exception ends the collector, since `on_message` raises it again.

Only text that is no JSON is provided for. JSON need not be an object, and then it has no `get`;
what an object says need not be something SQLite takes for a parameter; and Python itself refuses to
read an integer with too many digits or values nested too deeply, with other exceptions than the one
that is caught. So the collector takes a message exactly when it is `Benign` (`handled_iff_benign`).
What it then stores is `rowOf` of the message.
-/

namespace ParkingService.Monitor

open Json

/-! ## Python and SQLite -/

/-- What is raised. -/
inductive Exn
  | jsonDecodeError
  /-- an integer has too many digits -/
  | valueError
  | recursionError
  /-- it has no `get` -/
  | attributeError
  /-- it is no parameter for SQLite -/
  | bindError
  deriving DecidableEq

/-- The type of a column. -/
inductive Affinity
  | text
  | real

/-- What Python and SQLite leave open. -/
structure Platform where
  /-- `sys.get_int_max_str_digits()` -/
  maxDigits : Option ℕ
  /-- the calls that are left for nested values -/
  maxDepth : ℕ
  /-- what a column makes of a value of another type -/
  cast : Affinity → Value → Value

def Platform.dialect (p : Platform) : Dialect where
  constants := true
  maxDigits := p.maxDigits
  maxDepth := some p.maxDepth

/-- Which exception it is that `json.loads` raises; the reader never runs out of its fuel
(`loads_recursionError`). -/
def Exn.of : Err → Exn
  | .grammar => .jsonDecodeError
  | .digits => .valueError
  | .depth | .fuel => .recursionError

/-- `json.loads` -/
def Platform.loads (p : Platform) (payload : String) : Except Exn Value :=
  match parse p.dialect payload.toList with
  | .ok data => .ok data
  | .error e => .error (.of e)

/-- Nested values are what a `RecursionError` is about, and not the fuel of the reader. -/
theorem loads_recursionError {p : Platform} {payload : String}
    (h : p.loads payload = .error .recursionError) :
    parse p.dialect payload.toList = .error .depth := by
  unfold Platform.loads at h
  split at h
  · cases h
  · rename_i e he
    cases e with
    | depth => exact he
    | fuel => exact absurd he (parse_ne_fuel _ _)
    | grammar | digits => cases h

def text (s : String) : Value := .str (Str.of s)

/-- `data.get(key, default)` -/
def get (data : Value) (key : String) (default : Value) : Except Exn Value :=
  match data with
  | .obj ms => .ok ((member? ms (Str.of key)).getD default)
  | _ => .error .attributeError

def isSurrogate (u : ℕ) : Bool := 0xD800 ≤ u && u < 0xE000

/-- SQLite takes it for a parameter. -/
def storable : Value → Bool
  | .null | .bool _ | .decimal .. | .constant _ => true
  | .int n => -0x8000000000000000 ≤ n && n < 0x8000000000000000
  | .str s => s.all fun u ↦ !isSurrogate u
  | .arr _ | .obj _ => false

/-- What a column keeps of a parameter; a number of a column of reals is a double. -/
def Platform.store (p : Platform) : Affinity → Value → Value
  | _, .null | _, .constant .nan => .null
  | .text, .str s => .str s
  | .real, .bool b => .decimal b.toNat 0
  | .real, .int n => .decimal n 0
  | .real, .decimal m e => .decimal m e
  | a, v => p.cast a v

/-! ## The database -/

structure SlotRow where
  timestamp : ℤ
  slot1State : Value
  slot2State : Value
  slot1Distance : Value
  slot2Distance : Value

/-- A row of `lot_log` or of `gate_log`. -/
structure StateRow where
  timestamp : ℤ
  state : Value

structure EventRow where
  timestamp : ℤ
  topic : Value
  eventType : Value
  reason : Value
  payload : Value

/-- A row, and which table it is for. -/
inductive Row
  | slot (r : SlotRow)
  | lot (r : StateRow)
  | gate (r : StateRow)
  | event (r : EventRow)

/-- The tables, by falling `id`. -/
structure Database where
  slotLog : List SlotRow
  lotLog : List StateRow
  gateLog : List StateRow
  eventLog : List EventRow

def Database.empty : Database := ⟨[], [], [], []⟩

def Database.insert (db : Database) : Row → Database
  | .slot r => { db with slotLog := r :: db.slotLog }
  | .lot r => { db with lotLog := r :: db.lotLog }
  | .gate r => { db with gateLog := r :: db.gateLog }
  | .event r => { db with eventLog := r :: db.eventLog }

/-- `CURRENT_TIMESTAMP`, in seconds. -/
def currentTimestamp (now : ℚ) : ℤ := now.floor

/-- `conn.execute` of an insertion. -/
def execute (db : Database) (params : List Value) (row : Row) : Except Exn Database :=
  if params.all storable then .ok (db.insert row) else .error .bindError

section Insert

variable (p : Platform) (now : ℚ) (db : Database)

def insertSlotLog (slot1State slot2State slot1Distance slot2Distance : Value) :
    Except Exn Database :=
  execute db [slot1State, slot2State, slot1Distance, slot2Distance] <| .slot
    { timestamp := currentTimestamp now
      slot1State := p.store .text slot1State
      slot2State := p.store .text slot2State
      slot1Distance := p.store .real slot1Distance
      slot2Distance := p.store .real slot2Distance }

def insertLotLog (lotState : Value) : Except Exn Database :=
  execute db [lotState] (.lot ⟨currentTimestamp now, p.store .text lotState⟩)

def insertGateLog (gateState : Value) : Except Exn Database :=
  execute db [gateState] (.gate ⟨currentTimestamp now, p.store .text gateState⟩)

def insertEventLog (topic eventType reason payload : Value) : Except Exn Database :=
  execute db [topic, eventType, reason, payload] <| .event
    { timestamp := currentTimestamp now
      topic := p.store .text topic
      eventType := p.store .text eventType
      reason := p.store .text reason
      payload := p.store .text payload }

end Insert

/-! ## The handlers -/

/-- A status of the handler: a text, and a value of a message that is put after it. -/
structure Notice where
  text : String
  value : Option Value

structure Collector where
  db : Database
  nodeLastSeen : String → Option ℚ
  nodeLastPayload : String → String
  nodeReportedStatus : String → Value
  lastHandlerStatus : Notice
  lastHandlerUpdate : Option ℚ

/-- The collector of an empty database. -/
def Collector.start : Collector where
  db := .empty
  nodeLastSeen _ := none
  nodeLastPayload _ := "-"
  nodeReportedStatus _ := Monitor.text "unknown"
  lastHandlerStatus := ⟨"starting", none⟩
  lastHandlerUpdate := none

def Collector.updateKernelStatus (s : Collector) (now : ℚ) (message : Notice) : Collector :=
  { s with lastHandlerStatus := message, lastHandlerUpdate := some now }

/-- Where a message goes. -/
inductive Route
  | heartbeat
  | slot
  | distance
  | lot
  | gate
  | event
  | unknown
  deriving DecidableEq

def route (topic : String) : Route :=
  if topic = "parking/rpi1/heartbeat" ∨ topic = "parking/rpi2/heartbeat" then .heartbeat
  else if topic = "parking/rpi1/slot" then .slot
  else if topic = "parking/rpi1/distance" then .distance
  else if topic = "parking/rpi1/lot" then .lot
  else if topic = "parking/rpi2/gate" then .gate
  else if topic = "parking/rpi2/event" then .event
  else .unknown

/-- `topic.split("/")[1]` -/
def nodeOf (topic : String) : String := .ofList ((topic.toList.splitOn '/').getD 1 [])

section Handlers

variable (p : Platform) (now : ℚ) (topic payload : String) (s : Collector)

/-- `json.loads`, with a handler for text that is no JSON. -/
def tryLoads {α : Type} (handle : Value → Except Exn α) (reject : Except Exn α) : Except Exn α :=
  match p.loads payload with
  | .ok data => handle data
  | .error .jsonDecodeError => reject
  | .error e => .error e

def handleHeartbeatMessage : Except Exn Collector := do
  let node := nodeOf topic
  let reportedStatus ← tryLoads p payload (get · "status" (text "online")) (.ok (text "unknown"))
  return { s with
    nodeLastSeen := fun n ↦ if n = node then some now else s.nodeLastSeen n
    nodeLastPayload := fun n ↦ if n = node then payload else s.nodeLastPayload n
    nodeReportedStatus := fun n ↦ if n = node then reportedStatus else s.nodeReportedStatus n }

/-- What becomes of text that is no JSON. -/
def rejectPayload (eventType : String) : Except Exn Collector := do
  let s := s.updateKernelStatus now ⟨"ERROR " ++ eventType ++ " " ++ topic, none⟩
  let db ← insertEventLog p now s.db (text topic) (text eventType) (text "json_decode_error")
    (text payload)
  return { s with db }

/-- Two values, one of each slot, and whether they could be read. -/
def handleSlots (insert : Value → Value → Except Exn Database) (eventType : String) :
    Except Exn (Collector × Bool) :=
  tryLoads p payload
    (fun data ↦ do
      let slot1 ← get data "slot1" .null
      let slot2 ← get data "slot2" .null
      let db ← insert slot1 slot2
      return ({ s with db }, true))
    (do return (← rejectPayload p now topic payload s eventType, false))

def handleSlotMessage : Except Exn (Collector × Bool) :=
  handleSlots p now topic payload s (fun v w ↦ insertSlotLog p now s.db v w .null .null)
    "invalid_slot_payload"

def handleDistanceMessage : Except Exn (Collector × Bool) :=
  handleSlots p now topic payload s (fun v w ↦ insertSlotLog p now s.db .null .null v w)
    "invalid_distance_payload"

def handleEventMessage : Except Exn (Collector × Bool) :=
  tryLoads p payload
    (fun data ↦ do
      let event ← get data "event" .null
      let reason ← get data "reason" .null
      let db ← insertEventLog p now s.db (text topic) event reason (text payload)
      -- the status has another default than the row
      let shown ← get data "event" (text "-")
      return ({ s with db }.updateKernelStatus now ⟨"MSG " ++ topic ++ " ", some shown⟩, true))
    (do return (← rejectPayload p now topic payload s "invalid_event_payload", false))

def handleMessage : Except Exn Collector :=
  match route topic with
  | .heartbeat => handleHeartbeatMessage p now topic payload s
  | .slot => do
    let (s, ok) ← handleSlotMessage p now topic payload s
    return if ok then s.updateKernelStatus now ⟨"MSG " ++ topic, none⟩ else s
  | .distance => do
    let (s, ok) ← handleDistanceMessage p now topic payload s
    return if ok then s.updateKernelStatus now ⟨"MSG " ++ topic, none⟩ else s
  | .lot => do
    let db ← insertLotLog p now s.db (text payload)
    return { s with db }.updateKernelStatus now ⟨"MSG " ++ topic ++ " " ++ payload, none⟩
  | .gate => do
    let db ← insertGateLog p now s.db (text payload)
    return { s with db }.updateKernelStatus now ⟨"MSG " ++ topic ++ " " ++ payload, none⟩
  | .event => do return (← handleEventMessage p now topic payload s).1
  | .unknown => do
    let s := s.updateKernelStatus now ⟨"ERROR unknown_topic " ++ topic, none⟩
    let db ←
      insertEventLog p now s.db (text topic) (text "unknown_topic") (text "unsupported_topic")
        (text payload)
    return { s with db }

/-- The collector after a message, and what it is ended by, if it is. -/
def onMessage : Collector × Option Exn :=
  match handleMessage p now topic payload s with
  | .ok s => (s, none)
  | .error e => (s.updateKernelStatus now ⟨"ERROR handler_exception " ++ topic, none⟩, some e)

end Handlers

/-! ## What one message does to the database -/

theorem bind_eq_ok {α β : Type} {x : Except Exn α} {f : α → Except Exn β} {b : β} :
    (x >>= f) = .ok b ↔ ∃ a, x = .ok a ∧ f a = .ok b := by
  cases x with
  | ok a =>
    refine ⟨fun h ↦ ⟨a, rfl, h⟩, ?_⟩
    rintro ⟨a', ha, h⟩
    cases ha
    exact h
  | error e => exact ⟨fun h ↦ (by cases h), fun ⟨_, ha, _⟩ ↦ (by cases ha)⟩

theorem pure_eq_ok {α : Type} {a b : α} : (pure a : Except Exn α) = .ok b ↔ a = b :=
  ⟨Except.ok.inj, congrArg _⟩

theorem storable_text (s : String) : storable (text s) = true := by
  refine List.all_eq_true.mpr fun u hu ↦ ?_
  obtain ⟨c, -, rfl⟩ := List.mem_map.mp hu
  -- a character is never a surrogate
  have hvalid := c.valid
  unfold UInt32.isValidChar Nat.isValidChar at hvalid
  change c.toNat < 0xD800 ∨ _ at hvalid
  unfold isSurrogate
  simp only [Bool.not_and, Bool.or_eq_true, Bool.not_eq_true', decide_eq_false_iff_not]
  change _ ∨ 0xDFFF < c.toNat ∧ _ at hvalid
  omega

section Spec

variable {p : Platform} {now : ℚ} {topic payload : String} {s s' : Collector}

theorem get_eq_ok {data v default : Value} {key : String} :
    get data key default = .ok v ↔
      ∃ ms, data = .obj ms ∧ v = (member? ms (Str.of key)).getD default := by
  cases data with
  | obj ms =>
    refine ⟨fun h ↦ ⟨ms, rfl, (Except.ok.inj h).symm⟩, ?_⟩
    rintro ⟨ms', hms, rfl⟩
    cases hms
    rfl
  | _ => exact ⟨fun h ↦ (by cases h), fun ⟨_, hms, _⟩ ↦ (by cases hms)⟩

theorem execute_eq_ok {db db' : Database} {params : List Value} {row : Row} :
    execute db params row = .ok db' ↔ (∀ v ∈ params, storable v) ∧ db' = db.insert row := by
  unfold execute
  split
  · rename_i h
    exact ⟨fun h' ↦ ⟨List.all_eq_true.mp h, (Except.ok.inj h').symm⟩, fun ⟨_, h'⟩ ↦ h' ▸ rfl⟩
  · rename_i h
    exact ⟨fun h' ↦ (by cases h'), fun ⟨h', _⟩ ↦ absurd (List.all_eq_true.mpr h') h⟩

theorem tryLoads_eq_ok {α : Type} {handle : Value → Except Exn α} {reject : Except Exn α} {a : α} :
    tryLoads p payload handle reject = .ok a ↔
      p.loads payload = .error .jsonDecodeError ∧ reject = .ok a ∨
        ∃ data, p.loads payload = .ok data ∧ handle data = .ok a := by
  unfold tryLoads
  split
  · rename_i data h
    simp [h]
  · rename_i h
    simp [h]
  · rename_i e hne h
    simp [h]
    exact fun he ↦ absurd he hne

/-- `data.get(key)` of an object. -/
def field (ms : List (Str × Value)) (key : String) : Value := (member? ms (Str.of key)).getD .null

/-- The event of a message that could not be interpreted. -/
def rejection (now : ℚ) (topic eventType reason payload : String) : EventRow where
  timestamp := currentTimestamp now
  topic := text topic
  eventType := text eventType
  reason := text reason
  payload := text payload

theorem insertEventLog_text (p : Platform) (now : ℚ) (db : Database) (topic eventType reason
    payload : String) :
    insertEventLog p now db (text topic) (text eventType) (text reason) (text payload) =
      .ok (db.insert (.event (rejection now topic eventType reason payload))) := by
  refine execute_eq_ok.mpr ⟨fun v hv ↦ ?_, rfl⟩
  simp only [List.mem_cons, List.not_mem_nil, or_false] at hv
  rcases hv with rfl | rfl | rfl | rfl <;> exact storable_text _

theorem rejectPayload_eq_ok {eventType : String} :
    rejectPayload p now topic payload s eventType = .ok s' ↔
      s' = { s.updateKernelStatus now ⟨"ERROR " ++ eventType ++ " " ++ topic, none⟩ with
        db :=
          s.db.insert (.event (rejection now topic eventType "json_decode_error" payload)) } := by
  unfold rejectPayload
  simp only [bind_eq_ok, pure_eq_ok, insertEventLog_text]
  constructor
  · rintro ⟨db, hdb, rfl⟩
    cases hdb
    rfl
  · rintro rfl
    exact ⟨_, rfl, rfl⟩

theorem rejectPayload_returns (p : Platform) (now : ℚ) (topic payload : String) (s : Collector)
    (eventType : String) : ∃ s', rejectPayload p now topic payload s eventType = .ok s' :=
  ⟨_, rejectPayload_eq_ok.mpr rfl⟩

theorem handleSlots_eq_ok {insert : Value → Value → Except Exn Database} {eventType : String}
    {ok : Bool} :
    handleSlots p now topic payload s insert eventType = .ok (s', ok) ↔
      p.loads payload = .error .jsonDecodeError ∧
        rejectPayload p now topic payload s eventType = .ok s' ∧ ok = false ∨
      ∃ ms db, p.loads payload = .ok (.obj ms) ∧
        insert (field ms "slot1") (field ms "slot2") = .ok db ∧ s' = { s with db } ∧ ok = true := by
  unfold handleSlots
  simp only [tryLoads_eq_ok, bind_eq_ok, pure_eq_ok, get_eq_ok, Prod.mk.injEq]
  refine or_congr ?_ ?_
  · refine and_congr_right fun _ ↦ ⟨?_, ?_⟩
    · rintro ⟨s₁, h, rfl, rfl⟩
      exact ⟨h, rfl⟩
    · rintro ⟨h, rfl⟩
      exact ⟨s', h, rfl, rfl⟩
  · constructor
    · rintro ⟨_, h, _, ⟨ms, rfl, rfl⟩, _, ⟨ms', hms, rfl⟩, db, hdb, rfl, rfl⟩
      cases hms
      exact ⟨ms, db, h, hdb, rfl, rfl⟩
    · rintro ⟨ms, db, h, hdb, rfl, rfl⟩
      exact ⟨_, h, _, ⟨ms, rfl, rfl⟩, _, ⟨ms, rfl, rfl⟩, db, hdb, rfl, rfl⟩

theorem handleEventMessage_eq_ok {ok : Bool} :
    handleEventMessage p now topic payload s = .ok (s', ok) ↔
      p.loads payload = .error .jsonDecodeError ∧
        rejectPayload p now topic payload s "invalid_event_payload" = .ok s' ∧ ok = false ∨
      ∃ ms db shown, p.loads payload = .ok (.obj ms) ∧
        insertEventLog p now s.db (text topic) (field ms "event") (field ms "reason")
          (text payload) = .ok db ∧
        shown = (member? ms (Str.of "event")).getD (text "-") ∧
        s' = { s with db }.updateKernelStatus now ⟨"MSG " ++ topic ++ " ", some shown⟩ ∧
        ok = true := by
  unfold handleEventMessage
  simp only [tryLoads_eq_ok, bind_eq_ok, pure_eq_ok, get_eq_ok, Prod.mk.injEq]
  refine or_congr ?_ ?_
  · refine and_congr_right fun _ ↦ ⟨?_, ?_⟩
    · rintro ⟨s₁, h, rfl, rfl⟩
      exact ⟨h, rfl⟩
    · rintro ⟨h, rfl⟩
      exact ⟨s', h, rfl, rfl⟩
  · constructor
    · rintro ⟨_, h, _, ⟨ms, rfl, rfl⟩, _, ⟨ms', hms, rfl⟩, db, hdb, _, ⟨ms'', hms', rfl⟩, rfl, rfl⟩
      cases hms
      cases hms'
      exact ⟨ms, db, _, h, hdb, rfl, rfl, rfl⟩
    · rintro ⟨ms, db, _, h, hdb, rfl, rfl, rfl⟩
      exact ⟨_, h, _, ⟨ms, rfl, rfl⟩, _, ⟨ms, rfl, rfl⟩, db, hdb, _, ⟨ms, rfl, rfl⟩, rfl, rfl⟩

end Spec

/-! ## What a message does to the database -/

def slotRow (p : Platform) (now : ℚ) (slot1 slot2 : Value) : SlotRow where
  timestamp := currentTimestamp now
  slot1State := p.store .text slot1
  slot2State := p.store .text slot2
  slot1Distance := .null
  slot2Distance := .null

def distanceRow (p : Platform) (now : ℚ) (slot1 slot2 : Value) : SlotRow where
  timestamp := currentTimestamp now
  slot1State := .null
  slot2State := .null
  slot1Distance := p.store .real slot1
  slot2Distance := p.store .real slot2

def eventRow (p : Platform) (now : ℚ) (topic payload : String) (event reason : Value) :
    EventRow where
  timestamp := currentTimestamp now
  topic := text topic
  eventType := p.store .text event
  reason := p.store .text reason
  payload := text payload

/-- The type of the event that says that a message could not be interpreted. -/
def rejectionType : Route → String
  | .slot => "invalid_slot_payload"
  | .distance => "invalid_distance_payload"
  | .event => "invalid_event_payload"
  | _ => "unknown_topic"

def rejectionReason : Route → String
  | .slot | .distance | .event => "json_decode_error"
  | _ => "unsupported_topic"

def rejectedRow (now : ℚ) (topic payload : String) : Row :=
  .event <|
    rejection now topic (rejectionType (route topic)) (rejectionReason (route topic)) payload

/-- The row for an object, and another one for what is none. -/
def objectRow (p : Platform) (payload : String) (row : List (Str × Value) → Row) (other : Row) :
    Row :=
  match p.loads payload with
  | .ok (.obj ms) => row ms
  | _ => other

/-- The row for a message. -/
def rowOf (p : Platform) (now : ℚ) (topic payload : String) : Option Row :=
  match route topic with
  | .heartbeat => none
  | .slot => objectRow p payload
      (fun ms ↦ .slot (slotRow p now (field ms "slot1") (field ms "slot2")))
      (rejectedRow now topic payload)
  | .distance => objectRow p payload
      (fun ms ↦ .slot (distanceRow p now (field ms "slot1") (field ms "slot2")))
      (rejectedRow now topic payload)
  | .lot => some (.lot ⟨currentTimestamp now, text payload⟩)
  | .gate => some (.gate ⟨currentTimestamp now, text payload⟩)
  | .event => objectRow p payload
      (fun ms ↦ .event (eventRow p now topic payload (field ms "event") (field ms "reason")))
      (rejectedRow now topic payload)
  | .unknown => some (rejectedRow now topic payload)

/-- The members of a payload that go into the database; none where the payload need not be JSON. -/
def bound : Route → Option (List String)
  | .heartbeat => some []
  | .slot | .distance => some ["slot1", "slot2"]
  | .event => some ["event", "reason"]
  | .lot | .gate | .unknown => none

/-- The payload is no JSON, or an object of which what goes into the database can be stored. -/
def Benign (p : Platform) (topic payload : String) : Prop :=
  ∀ keys, bound (route topic) = some keys →
    p.loads payload = .error .jsonDecodeError ∨
      ∃ ms, p.loads payload = .ok (.obj ms) ∧ ∀ key ∈ keys, storable (field ms key)

/-- What is known when the handler has returned. -/
structure Taken (p : Platform) (now : ℚ) (topic payload : String) (db db' : Database) : Prop where
  benign : Benign p topic payload
  stored : db' = (rowOf p now topic payload).elim db db.insert

section Taken

variable {p : Platform} {now : ℚ} {topic payload : String} {s s' : Collector}

theorem benign_of_object {ms : List (Str × Value)} {keys : List String}
    (hbound : bound (route topic) = some keys) (hloads : p.loads payload = .ok (.obj ms))
    (hstore : ∀ key ∈ keys, storable (field ms key)) : Benign p topic payload := by
  intro keys' hkeys'
  obtain rfl := Option.some.inj (hbound.symm.trans hkeys')
  exact .inr ⟨ms, hloads, hstore⟩

theorem benign_of_bound (hbound : bound (route topic) = none) : Benign p topic payload := by
  intro keys hkeys
  rw [hbound] at hkeys
  cases hkeys

theorem taken_of_reject {eventType : String}
    (hroute : route topic = .slot ∨ route topic = .distance ∨ route topic = .event)
    (htype : rejectionType (route topic) = eventType)
    (hloads : p.loads payload = .error .jsonDecodeError)
    (h : rejectPayload p now topic payload s eventType = .ok s') :
    Taken p now topic payload s.db s'.db := by
  refine ⟨fun _ _ ↦ .inl hloads, ?_⟩
  rw [rejectPayload_eq_ok.mp h, ← htype]
  rcases hroute with hroute | hroute | hroute <;>
    simp [rowOf, objectRow, rejectedRow, rejectionReason, hroute, hloads]

theorem taken_of_slots {insert : Value → Value → Except Exn Database} {eventType : String}
    (hroute : route topic = .slot ∨ route topic = .distance)
    (htype : rejectionType (route topic) = eventType)
    (hinsert : ∀ ms db, p.loads payload = .ok (.obj ms) →
      insert (field ms "slot1") (field ms "slot2") = .ok db → Taken p now topic payload s.db db)
    (h : (do
      let (s, ok) ← handleSlots p now topic payload s insert eventType
      return if ok then s.updateKernelStatus now ⟨"MSG " ++ topic, none⟩ else s) = .ok s') :
    Taken p now topic payload s.db s'.db := by
  obtain ⟨⟨s₁, ok⟩, hslots, h⟩ := bind_eq_ok.mp h
  obtain rfl := pure_eq_ok.mp h
  rcases handleSlots_eq_ok.mp hslots with
    ⟨hloads, hreject, rfl⟩ | ⟨ms, db, hloads, hdb, rfl, rfl⟩
  · exact taken_of_reject (hroute.imp_right .inl) htype hloads hreject
  · exact hinsert ms db hloads hdb

/-- **What a message does.** -/
theorem handleMessage_taken (h : handleMessage p now topic payload s = .ok s') :
    Taken p now topic payload s.db s'.db := by
  unfold handleMessage at h
  cases hroute : route topic <;> rw [hroute] at h <;> dsimp only at h
  case heartbeat =>
    unfold handleHeartbeatMessage at h
    simp only [bind_eq_ok, pure_eq_ok, tryLoads_eq_ok, get_eq_ok] at h
    obtain ⟨_, hloads, rfl⟩ := h
    -- the database is not touched, but an array for an object would raise
    refine ⟨?_, by simp [rowOf, hroute]⟩
    rcases hloads with ⟨hloads, -⟩ | ⟨_, hloads, ms, rfl, -⟩
    · exact fun _ _ ↦ .inl hloads
    · exact benign_of_object (by rw [hroute]; rfl) hloads (by simp)
  case slot =>
    refine taken_of_slots (.inl hroute) (by rw [hroute]; rfl) (fun ms db hloads hdb ↦ ?_) h
    obtain ⟨hstore, rfl⟩ := execute_eq_ok.mp hdb
    refine ⟨benign_of_object (by rw [hroute]; rfl) hloads (by simp_all), ?_⟩
    simp [rowOf, objectRow, hroute, hloads]
    rfl
  case distance =>
    refine taken_of_slots (.inr hroute) (by rw [hroute]; rfl) (fun ms db hloads hdb ↦ ?_) h
    obtain ⟨hstore, rfl⟩ := execute_eq_ok.mp hdb
    refine ⟨benign_of_object (by rw [hroute]; rfl) hloads (by simp_all), ?_⟩
    simp [rowOf, objectRow, hroute, hloads]
    rfl
  case lot | gate =>
    obtain ⟨db, hinsert, h⟩ := bind_eq_ok.mp h
    obtain rfl := pure_eq_ok.mp h
    obtain ⟨-, rfl⟩ := execute_eq_ok.mp hinsert
    refine ⟨benign_of_bound (by rw [hroute]; rfl), ?_⟩
    simp [rowOf, hroute]
    rfl
  case event =>
    obtain ⟨⟨s₁, ok⟩, hevent, h⟩ := bind_eq_ok.mp h
    obtain rfl := pure_eq_ok.mp h
    rcases handleEventMessage_eq_ok.mp hevent with
      ⟨hloads, hreject, -⟩ | ⟨ms, db, _, hloads, hinsert, -, rfl, -⟩
    · exact taken_of_reject (.inr (.inr hroute)) (by rw [hroute]; rfl) hloads hreject
    · obtain ⟨hstore, rfl⟩ := execute_eq_ok.mp hinsert
      refine ⟨benign_of_object (by rw [hroute]; rfl) hloads (by simp_all), ?_⟩
      simp [rowOf, objectRow, hroute, hloads]
      rfl
  case unknown =>
    simp only [insertEventLog_text] at h
    obtain rfl := pure_eq_ok.mp h
    refine ⟨benign_of_bound (by rw [hroute]; rfl), ?_⟩
    simp [rowOf, rejectedRow, rejectionType, rejectionReason, hroute]
    rfl

theorem slots_return {insert : Value → Value → Except Exn Database} {eventType : String}
    (h : p.loads payload = .error .jsonDecodeError ∨
      ∃ ms db, p.loads payload = .ok (.obj ms) ∧
        insert (field ms "slot1") (field ms "slot2") = .ok db) :
    ∃ s', (do
      let (s, ok) ← handleSlots p now topic payload s insert eventType
      return if ok then s.updateKernelStatus now ⟨"MSG " ++ topic, none⟩ else s) = .ok s' := by
  rcases h with h | ⟨ms, db, hms, hdb⟩
  · obtain ⟨s₁, hs₁⟩ := rejectPayload_returns p now topic payload s eventType
    exact ⟨s₁, bind_eq_ok.mpr ⟨(s₁, false), handleSlots_eq_ok.mpr (.inl ⟨h, hs₁, rfl⟩), rfl⟩⟩
  · have hslots : handleSlots p now topic payload s insert eventType = .ok ({ s with db }, true) :=
      handleSlots_eq_ok.mpr (.inr ⟨ms, db, hms, hdb, rfl, rfl⟩)
    exact ⟨_, bind_eq_ok.mpr ⟨_, hslots, rfl⟩⟩

theorem Benign.returns (h : Benign p topic payload) (now : ℚ) (s : Collector) :
    ∃ s', handleMessage p now topic payload s = .ok s' := by
  unfold handleMessage
  cases hroute : route topic <;> dsimp only
  case heartbeat =>
    unfold handleHeartbeatMessage
    simp only [bind_eq_ok, pure_eq_ok, tryLoads_eq_ok, get_eq_ok]
    rcases h [] (by rw [hroute]; rfl) with hloads | ⟨ms, hloads, -⟩
    · exact ⟨_, _, .inl ⟨hloads, rfl⟩, rfl⟩
    · exact ⟨_, _, .inr ⟨_, hloads, ms, rfl, rfl⟩, rfl⟩
  case slot =>
    refine slots_return ((h _ (by rw [hroute]; rfl)).imp_right ?_)
    rintro ⟨ms, hms, hstore⟩
    exact ⟨ms, _, hms, execute_eq_ok.mpr ⟨by simp_all [storable], rfl⟩⟩
  case distance =>
    refine slots_return ((h _ (by rw [hroute]; rfl)).imp_right ?_)
    rintro ⟨ms, hms, hstore⟩
    exact ⟨ms, _, hms, execute_eq_ok.mpr ⟨by simp_all [storable], rfl⟩⟩
  case lot | gate =>
    have hstore : ∀ v ∈ [text payload], storable v := by simp [storable_text]
    exact ⟨_, bind_eq_ok.mpr ⟨_, execute_eq_ok.mpr ⟨hstore, rfl⟩, rfl⟩⟩
  case event =>
    rcases h _ (by rw [hroute]; rfl) with hloads | ⟨ms, hms, hstore⟩
    · obtain ⟨s₁, hs₁⟩ := rejectPayload_returns p now topic payload s "invalid_event_payload"
      have := handleEventMessage_eq_ok.mpr (.inl ⟨hloads, hs₁, rfl⟩)
      exact ⟨s₁, bind_eq_ok.mpr ⟨(s₁, false), this, rfl⟩⟩
    · have hstores : ∀ v ∈ [text topic, field ms "event", field ms "reason", text payload],
          storable v := by
        simp_all [storable_text]
      obtain ⟨db, hdb⟩ : ∃ db, insertEventLog p now s.db (text topic) (field ms "event")
          (field ms "reason") (text payload) = .ok db := ⟨_, execute_eq_ok.mpr ⟨hstores, rfl⟩⟩
      obtain ⟨s₁, hs₁⟩ : ∃ s₁, handleEventMessage p now topic payload s = .ok (s₁, true) :=
        ⟨_, handleEventMessage_eq_ok.mpr (.inr ⟨ms, db, _, hms, hdb, rfl, rfl, rfl⟩)⟩
      exact ⟨s₁, bind_eq_ok.mpr ⟨_, hs₁, rfl⟩⟩
  case unknown =>
    simp only [insertEventLog_text]
    exact ⟨_, rfl⟩

end Taken

/-! ## Which messages are taken -/

/-- The payload is one that the topic's handler can interpret. -/
def Interpretable (p : Platform) (topic payload : String) : Prop :=
  match route topic with
  | .slot | .distance | .event => ∃ ms, p.loads payload = .ok (.obj ms)
  | .lot | .gate => True
  | .heartbeat | .unknown => False

/-- The handler returns and has stored one row, or none of a heartbeat; and the row of a message
that it cannot interpret is an event that says so. -/
def Handled (p : Platform) (topic payload : String) : Prop :=
  ∀ now s, ∃ s', handleMessage p now topic payload s = .ok s' ∧
    if route topic = .heartbeat then s'.db = s.db
    else ∃ row, s'.db = s.db.insert row ∧
      (¬ Interpretable p topic payload → row = rejectedRow now topic payload)

theorem objectRow_of_not {p : Platform} {payload : String} {row : List (Str × Value) → Row}
    {other : Row} (h : ¬ ∃ ms, p.loads payload = .ok (.obj ms)) :
    objectRow p payload row other = other := by
  unfold objectRow
  split
  · rename_i ms hms
    exact absurd ⟨ms, hms⟩ h
  · rfl

theorem rowOf_eq_none {p : Platform} {now : ℚ} {topic payload : String} :
    rowOf p now topic payload = none ↔ route topic = .heartbeat := by
  unfold rowOf
  split <;> simp_all

theorem rowOf_of_not_interpretable {p : Platform} {now : ℚ} {topic payload : String}
    (hheartbeat : route topic ≠ .heartbeat) (h : ¬ Interpretable p topic payload) :
    rowOf p now topic payload = some (rejectedRow now topic payload) := by
  unfold Interpretable at h
  unfold rowOf
  split <;> simp_all [objectRow_of_not]

/-- **Which messages cannot stop the collector.** -/
theorem handled_iff_benign (p : Platform) (topic payload : String) :
    Handled p topic payload ↔ Benign p topic payload := by
  constructor
  · intro h
    obtain ⟨s', hs', -⟩ := h 0 .start
    exact (handleMessage_taken hs').benign
  · intro h now s
    obtain ⟨s', hs'⟩ := h.returns now s
    refine ⟨s', hs', ?_⟩
    have hdb := (handleMessage_taken hs').stored
    split
    · rename_i hroute
      simpa [rowOf, hroute] using hdb
    · rename_i hroute
      cases hrow : rowOf p now topic payload with
      | none => exact absurd (rowOf_eq_none.mp hrow) hroute
      | some row =>
        rw [hrow] at hdb
        refine ⟨row, hdb, fun hnot ↦ Option.some.inj ?_⟩
        exact hrow.symm.trans (rowOf_of_not_interpretable hroute hnot)

/-- The word `null` on the topic of the slots is valid JSON, and it stops the collector. -/
theorem null_stops_collector :
    ¬ Handled { maxDigits := some 4300, maxDepth := 990, cast := fun _ v ↦ v }
      "parking/rpi1/slot" "null" := by
  intro h
  obtain ⟨s', hs', -⟩ := h 0 .start
  cases hs'

end ParkingService.Monitor
