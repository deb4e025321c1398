import Mathlib.Data.List.Forall2
import ParkingService.Monitor.Dashboard

/-!
# Loading the page at any time

A page may be loaded after any number of messages: those before come with the snapshot of the
database, and those after are its own. What it shows is the same in the end, since the collector and
the page compute the same fold over the messages. `Update` is what a message tells and
`Readings.step` what comes of it, and both `rowOf` with the queries of `db.py` and
`handleMqttMessage` follow it.

That takes messages that both can read (`Tells`). Python takes `NaN` for a number and JavaScript
does not; SQLite refuses integers of more than 64 bits and lone surrogates, with an exception that
ends the collector, while the page shows them.
-/

namespace ParkingService.Monitor

open Json

/-! ## Messages -/

/-- A message, and when it reaches the collector and when the page. -/
structure Message where
  topic : String
  payload : String
  collected : ℚ
  shown : ℚ

/-- The collector takes messages, until one ends it. -/
def collect (p : Platform) (s : Collector) : List Message → Collector
  | [] => s
  | m :: ms =>
    match onMessage p m.collected m.topic m.payload s with
    | (s, none) => collect p s ms
    | (s, some _) => s

/-- The page takes messages. -/
def watch (g : Page) (ms : List Message) : Page :=
  ms.foldl (fun g m ↦ g.onMessage m.shown m.topic m.payload) g

/-- The page after all messages, when it was loaded after so many. -/
def pageAt (p : Platform) (ms : List Message) (k : ℕ) : Page :=
  let data := getDashboardState (collect p .start (ms.take k)).db
  watch (Page.start.applyState data) (ms.drop k)

/-! ## What messages tell -/

/-- What a message tells. -/
inductive Update
  | slot (slot1 slot2 : Value)
  | distance (slot1 slot2 : Value)
  | lot (state : Value)
  | gate (state : Value)
  | event (topic eventType reason : Value)
  | nothing

/-- Nothing is known. -/
def Readings.start : Readings where
  slot := ⟨unknown, unknown⟩
  distance := ⟨none, none⟩
  lotState := unknown
  gateState := unknown

def Readings.step (b : Readings) : Update → Readings
  | .slot v w => { b with slot := ⟨v, w⟩ }
  | .distance v w => { b with distance := ⟨some v, some w⟩ }
  | .lot v => { b with lotState := v }
  | .gate v => { b with gateState := v }
  | .event .. | .nothing => b

/-- An entry of the feed: topic, type and reason. -/
abbrev Entry := JsValue × JsValue × JsValue

def Event.entry (e : Event) : Entry := (e.topic, e.eventType, e.reason)

def feedStep (f : List Entry) : Update → List Entry
  | .event topic eventType reason => ((some topic, some eventType, some reason) :: f).take 10
  | _ => f

/-- Both readers take the payload for this object. -/
structure Reads (p : Platform) (payload : String) (ms : List (Str × Value)) : Prop where
  loads : p.loads payload = .ok (.obj ms)
  jsonParse : (jsonParse payload).isSome

/-- The member is a text that is not empty and that SQLite takes. -/
structure Names (ms : List (Str × Value)) (key : String) (s : Str) : Prop where
  member : member? ms (Str.of key) = some (.str s)
  nonempty : s ≠ []
  storable : storable (.str s)

/-- The member is an integer that SQLite takes. -/
structure Counts (ms : List (Str × Value)) (key : String) (n : ℤ) : Prop where
  member : member? ms (Str.of key) = some (.int n)
  storable : storable (.int n)

/-- The member is there, and SQLite takes it. -/
structure Holds (ms : List (Str × Value)) (key : String) (v : Value) : Prop where
  member : member? ms (Str.of key) = some v
  present : present v
  storable : storable v

/-- The message is as documented or, where JSON is expected, none for both readers; and so much it
tells. -/
inductive Tells (p : Platform) (m : Message) : Update → Prop
  | slot {ms : List (Str × Value)} {s t : Str} (hroute : route m.topic = .slot)
      (hreads : Reads p m.payload ms) (hs : Names ms "slot1" s) (ht : Names ms "slot2" t) :
      Tells p m (.slot (.str s) (.str t))
  | distance {ms : List (Str × Value)} {k n : ℤ} (hroute : route m.topic = .distance)
      (hreads : Reads p m.payload ms) (hk : Counts ms "slot1" k) (hn : Counts ms "slot2" n) :
      Tells p m (.distance (.decimal k 0) (.decimal n 0))
  | lot (hroute : route m.topic = .lot) (hne : m.payload ≠ "") : Tells p m (.lot (text m.payload))
  | gate (hroute : route m.topic = .gate) (hne : m.payload ≠ "") :
    Tells p m (.gate (text m.payload))
  | event {ms : List (Str × Value)} {v w : Value} (hroute : route m.topic = .event)
      (hreads : Reads p m.payload ms) (hv : Holds ms "event" v) (hw : Holds ms "reason" w) :
      Tells p m (.event (text m.topic) v w)
  | rejected
      (hroute : route m.topic = .slot ∨ route m.topic = .distance ∨ route m.topic = .event)
      (hloads : p.loads m.payload = .error .jsonDecodeError) (hparse : jsonParse m.payload = none) :
      Tells p m .nothing
  | heartbeat (hroute : route m.topic = .heartbeat)
      (hloads : p.loads m.payload = .error .jsonDecodeError ∨
        ∃ ms, p.loads m.payload = .ok (.obj ms)) :
      Tells p m .nothing
  | unknown (hroute : route m.topic = .unknown) : Tells p m .nothing

/-- The message is on a documented topic and is what that topic is for. -/
structure WellFormed (p : Platform) (m : Message) : Prop where
  tells : ∃ u, Tells p m u
  documented : route m.topic ≠ .unknown
  json : route m.topic = .slot ∨ route m.topic = .distance ∨ route m.topic = .event →
    ∃ ms, p.loads m.payload = .ok (.obj ms)
  texts : ∀ ms, route m.topic = .event → p.loads m.payload = .ok (.obj ms) →
    (∃ s, field ms "event" = .str s) ∧ ∃ s, field ms "reason" = .str s

/-! ## The page follows -/

theorem Reads.parse {p : Platform} {payload : String} {ms : List (Str × Value)}
    (h : Reads p payload ms) : Monitor.jsonParse payload = some (.obj ms) := by
  obtain ⟨v, hv⟩ := Option.isSome_iff_exists.mp h.jsonParse
  have hloads := h.loads
  unfold Platform.loads at hloads
  split at hloads
  · rename_i data hdata
    obtain rfl := Except.ok.inj hloads
    unfold Monitor.jsonParse at hv ⊢
    cases hp :
      Json.parse { constants := false, maxDigits := none, maxDepth := none } payload.toList with
    | ok w => rw [parse_agree hdata hp]; rfl
    | error e =>
      rw [hp] at hv
      cases hv
  · cases hloads

variable {p : Platform} {m : Message} {u : Update}

theorem property_of_member {ms : List (Str × Value)} {key : String} {v : Value}
    (h : member? ms (Str.of key) = some v) : property (.obj ms) key = some (some (number v)) := by
  simp [property, h]

theorem textOrUnknown_str {s : Str} (hs : s ≠ []) : textOrUnknown (some (.str s)) = .str s := by
  cases s with
  | nil => exact absurd rfl hs
  | cons c s => rfl

theorem textOrUnknown_text {s : String} (hs : s ≠ "") : textOrUnknown (some (text s)) = text s := by
  refine textOrUnknown_str fun h ↦ hs ?_
  simpa [Str.of] using h

theorem Holds.str {ms : List (Str × Value)} {key : String} {v : Value} (h : Holds ms key v)
    (hs : ∃ s, field ms key = .str s) : ∃ s, v = .str s := by
  obtain ⟨s, hs⟩ := hs
  unfold field at hs
  rw [h.member] at hs
  exact ⟨s, hs⟩

theorem WellFormed.event_texts (h : WellFormed p m) {ms : List (Str × Value)} {v w : Value}
    (hroute : route m.topic = .event) (hreads : Reads p m.payload ms) (hv : Holds ms "event" v)
    (hw : Holds ms "reason" w) : (∃ s, v = .str s) ∧ ∃ t, w = .str t := by
  obtain ⟨hs, ht⟩ := h.texts _ hroute hreads.loads
  exact ⟨hv.str hs, hw.str ht⟩

/-- **The page follows.** -/
theorem Tells.onMessage (h : Tells p m u) (g : Page) :
    (g.onMessage m.shown m.topic m.payload).dashboardState.readings =
        g.dashboardState.readings.step u ∧
      (WellFormed p m → (g.onMessage m.shown m.topic m.payload).recentEvents.map Event.entry =
        feedStep (g.recentEvents.map Event.entry) u) := by
  cases h with
  | slot hroute hreads hs ht =>
    obtain ⟨hstate, hevents⟩ := Page.onMessage_slot (g := g) hroute hreads.parse
      (property_of_member hs.member) (property_of_member ht.member)
    rw [hstate, hevents]
    refine ⟨?_, fun _ ↦ rfl⟩
    simp [DashboardState.readings, Readings.step, number, textOrUnknown_str hs.nonempty,
      textOrUnknown_str ht.nonempty]
  | distance hroute hreads hk hn =>
    obtain ⟨hstate, hevents⟩ := Page.onMessage_distance (g := g) hroute
      hreads.parse (property_of_member hk.member) (property_of_member hn.member)
    rw [hstate, hevents]
    exact ⟨rfl, fun _ ↦ rfl⟩
  | lot hroute hne =>
    obtain ⟨hstate, hevents⟩ := Page.onMessage_lot hroute
    rw [hstate, hevents]
    refine ⟨?_, fun _ ↦ rfl⟩
    simp [DashboardState.readings, Readings.step, textOrUnknown_text hne]
  | gate hroute hne =>
    obtain ⟨hstate, hevents⟩ := Page.onMessage_gate hroute
    rw [hstate, hevents]
    refine ⟨?_, fun _ ↦ rfl⟩
    simp [DashboardState.readings, Readings.step, textOrUnknown_text hne]
  | event hroute hreads hv hw =>
    obtain ⟨hstate, hevents⟩ := Page.onMessage_event hroute hreads.parse
      (property_of_member hv.member) (property_of_member hw.member)
    rw [hstate, hevents]
    refine ⟨rfl, fun hwf ↦ ?_⟩
    obtain ⟨⟨s, rfl⟩, t, rfl⟩ := hwf.event_texts hroute hreads hv hw
    rw [List.map_take]
    rfl
  | rejected hroute hloads hparse =>
    obtain ⟨hstate, hevents⟩ := Page.onMessage_of_throw hroute hparse
    rw [hstate, hevents]
    exact ⟨rfl, fun _ ↦ rfl⟩
  | heartbeat hroute =>
    obtain ⟨hstate, hevents⟩ := Page.onMessage_other (.inl hroute)
    rw [hstate, hevents]
    exact ⟨rfl, fun _ ↦ rfl⟩
  | unknown hroute =>
    obtain ⟨hstate, hevents⟩ := Page.onMessage_other (.inr hroute)
    rw [hstate, hevents]
    exact ⟨rfl, fun _ ↦ rfl⟩

/-! ## The database follows -/

/-- What a page shows of a snapshot. -/
def Snapshot.readings (data : Snapshot) : Readings where
  slot := ⟨textOrUnknown (some data.slot.slot1), textOrUnknown (some data.slot.slot2)⟩
  distance := ⟨formatDistance (some data.distance.slot1), formatDistance (some data.distance.slot2)⟩
  lotState := textOrUnknown (some data.lotState)
  gateState := textOrUnknown (some data.gateState)

/-- The states of lot and gate are texts that are not empty. -/
structure Database.Sound (db : Database) : Prop where
  lot : ∀ r ∈ db.lotLog, truthy (some r.state)
  gate : ∀ r ∈ db.gateLog, truthy (some r.state)

theorem Database.empty_sound : Database.empty.Sound :=
  ⟨fun _ hr ↦ absurd hr List.not_mem_nil, fun _ hr ↦ absurd hr List.not_mem_nil⟩

theorem truthy_latest {rs : List StateRow} (h : ∀ r ∈ rs, truthy (some r.state)) :
    truthy (some (((rs.find? fun r ↦ present r.state).map (·.state)).getD unknown)) := by
  cases hr : rs.find? fun r ↦ present r.state with
  | none => rfl
  | some r => exact h r (List.mem_of_find?_eq_some hr)

theorem applyState_readings {db : Database} (h : db.Sound) (g : Page) :
    (g.applyState (getDashboardState db)).dashboardState.readings =
      (getDashboardState db).readings := by
  have hlot : truthy (some (getDashboardState db).lotState) := truthy_latest h.lot
  have hgate : truthy (some (getDashboardState db).gateState) := truthy_latest h.gate
  unfold Page.applyState
  dsimp only
  split <;>
    simp [Page.updateLastGateEvent, Page.updateEvents, Page.updateLastUpdated, Page.updateGate,
      Page.updateLotState, Page.updateSlots, DashboardState.readings, Snapshot.readings, orElse,
      hlot, hgate]

theorem applyState_recentEvents (data : Snapshot) (g : Page) :
    (g.applyState data).recentEvents = data.events.map eventOf := by
  unfold Page.applyState
  dsimp only
  split <;> rfl

theorem truthy_text {s : String} (hs : s ≠ "") : truthy (some (text s)) := by
  unfold text truthy
  split <;> simp_all [Str.of]

theorem present_of_truthy {v : Value} (h : truthy (some v)) : present v := by
  cases v <;> first | rfl | cases h

theorem field_of_member {ms : List (Str × Value)} {key : String} {v : Value}
    (h : member? ms (Str.of key) = some v) : field ms key = v := by
  rw [field, h]
  rfl

section Insert

variable (db : Database)

theorem readings_slot (now : ℚ) {s t : Str} (hs : s ≠ []) (ht : t ≠ []) :
    (getDashboardState (db.insert (.slot (slotRow p now (.str s) (.str t))))).readings =
      (getDashboardState db).readings.step (.slot (.str s) (.str t)) := by
  simp [getDashboardState, getLatestSlotState, getLatestSlotDistance, getLatestLotState,
    getLatestGateState, Database.insert, slotRow, Platform.store, present, Snapshot.readings,
    Readings.step, textOrUnknown_str hs, textOrUnknown_str ht]

theorem readings_distance (now : ℚ) (k n : ℤ) :
    (getDashboardState (db.insert (.slot (distanceRow p now (.int k) (.int n))))).readings =
      (getDashboardState db).readings.step (.distance (.decimal k 0) (.decimal n 0)) := by
  simp [getDashboardState, getLatestSlotState, getLatestSlotDistance, getLatestLotState,
    getLatestGateState, Database.insert, distanceRow, Platform.store, present, Snapshot.readings,
    Readings.step, formatDistance]

theorem readings_lot (t : ℤ) {s : String} (hs : s ≠ "") :
    (getDashboardState (db.insert (.lot ⟨t, text s⟩))).readings =
      (getDashboardState db).readings.step (.lot (text s)) := by
  simp [getDashboardState, getLatestSlotState, getLatestSlotDistance, getLatestLotState,
    getLatestGateState, Database.insert, Snapshot.readings, Readings.step,
    present_of_truthy (truthy_text hs), textOrUnknown_text hs]

theorem readings_gate (t : ℤ) {s : String} (hs : s ≠ "") :
    (getDashboardState (db.insert (.gate ⟨t, text s⟩))).readings =
      (getDashboardState db).readings.step (.gate (text s)) := by
  simp [getDashboardState, getLatestSlotState, getLatestSlotDistance, getLatestLotState,
    getLatestGateState, Database.insert, Snapshot.readings, Readings.step,
    present_of_truthy (truthy_text hs), textOrUnknown_text hs]

end Insert

/-- What a message adds to the database, by what it tells. -/
inductive Stores (p : Platform) (m : Message) (now : ℚ) (db : Database) : Update → Database → Prop
  | slot {s t : Str} (hs : s ≠ []) (ht : t ≠ []) :
    Stores p m now db (.slot (.str s) (.str t))
      (db.insert (.slot (slotRow p now (.str s) (.str t))))
  | distance (k n : ℤ) :
    Stores p m now db (.distance (.decimal k 0) (.decimal n 0))
      (db.insert (.slot (distanceRow p now (.int k) (.int n))))
  | lot (hne : m.payload ≠ "") :
    Stores p m now db (.lot (text m.payload))
      (db.insert (.lot ⟨currentTimestamp now, text m.payload⟩))
  | gate (hne : m.payload ≠ "") :
    Stores p m now db (.gate (text m.payload))
      (db.insert (.gate ⟨currentTimestamp now, text m.payload⟩))
  | event {v w : Value} (htexts : WellFormed p m → (∃ s, v = .str s) ∧ ∃ t, w = .str t) :
    Stores p m now db (.event (text m.topic) v w)
      (db.insert (.event (eventRow p now m.topic m.payload v w)))
  | rejected (hwf : ¬WellFormed p m) :
    Stores p m now db .nothing (db.insert (rejectedRow now m.topic m.payload))
  | nothing : Stores p m now db .nothing db

theorem Tells.stores (h : Tells p m u) {now : ℚ} {db db' : Database}
    (ht : Taken p now m.topic m.payload db db') : Stores p m now db u db' := by
  obtain ⟨-, rfl⟩ := ht
  cases h with
  | slot hroute hreads hs ht =>
    simp only [rowOf, objectRow, hroute, hreads.loads, field_of_member hs.member,
      field_of_member ht.member]
    exact .slot hs.nonempty ht.nonempty
  | distance hroute hreads hk hn =>
    simp only [rowOf, objectRow, hroute, hreads.loads, field_of_member hk.member,
      field_of_member hn.member]
    exact .distance _ _
  | lot hroute hne =>
    simp only [rowOf, hroute]
    exact .lot hne
  | gate hroute hne =>
    simp only [rowOf, hroute]
    exact .gate hne
  | event hroute hreads hv hw =>
    simp only [rowOf, objectRow, hroute, hreads.loads, field_of_member hv.member,
      field_of_member hw.member]
    exact .event fun hwf ↦ hwf.event_texts hroute hreads hv hw
  | rejected hroute hloads =>
    -- on these topics a well-formed message is an object
    have hwf : ¬WellFormed p m := fun hwf ↦ by
      obtain ⟨ms, hms⟩ := hwf.json hroute
      rw [hloads] at hms
      cases hms
    rcases hroute with hroute | hroute | hroute <;>
      simp only [rowOf, objectRow, hroute, hloads] <;> exact .rejected hwf
  | heartbeat hroute =>
    simp only [rowOf, hroute]
    exact .nothing
  | unknown hroute =>
    simp only [rowOf, hroute]
    exact .rejected fun hwf ↦ hwf.documented hroute

section Stores

variable {now : ℚ} {db db' : Database}

/-- **The database follows.** -/
theorem Stores.readings (h : Stores p m now db u db') :
    (getDashboardState db').readings = (getDashboardState db).readings.step u := by
  cases h with
  | slot hs ht => exact readings_slot db now hs ht
  | distance k n => exact readings_distance db now k n
  | lot hne => exact readings_lot db _ hne
  | gate hne => exact readings_gate db _ hne
  | event | rejected | nothing => rfl

theorem Stores.sound (h : Stores p m now db u db') (hdb : db.Sound) : db'.Sound := by
  cases h with
  | slot | distance | event | rejected => exact ⟨hdb.lot, hdb.gate⟩
  | lot hne => exact ⟨List.forall_mem_cons.mpr ⟨truthy_text hne, hdb.lot⟩, hdb.gate⟩
  | gate hne => exact ⟨hdb.lot, List.forall_mem_cons.mpr ⟨truthy_text hne, hdb.gate⟩⟩
  | nothing => exact hdb

end Stores

/-- The feed of a page that is loaded now. -/
def Snapshot.feed (data : Snapshot) : List Entry :=
  data.events.map fun r ↦ (some r.topic, some r.eventType, some r.reason)

theorem feed_insert (db : Database) (r : EventRow) :
    (getDashboardState (db.insert (.event r))).feed =
      feedStep (getDashboardState db).feed (.event r.topic r.eventType r.reason) := by
  simp [getDashboardState, getRecentEvents, Database.insert, Snapshot.feed, feedStep, List.map_take,
    List.take_take]

theorem Stores.feed {now : ℚ} {db db' : Database} (h : Stores p m now db u db')
    (hwf : WellFormed p m) :
    (getDashboardState db').feed = feedStep (getDashboardState db).feed u := by
  cases h with
  | slot | distance | lot | gate | nothing => rfl
  | event htexts =>
    obtain ⟨⟨s, rfl⟩, t, rfl⟩ := htexts hwf
    exact feed_insert _ _
  | rejected hno => exact absurd hwf hno

/-! ## Whole runs -/

theorem storable_pair {ms : List (Str × Value)} {a b : String} {v w : Value}
    (hv : member? ms (Str.of a) = some v) (hw : member? ms (Str.of b) = some w)
    (hv' : storable v) (hw' : storable w) : ∀ key ∈ [a, b], storable (field ms key) := by
  intro key hkey
  rcases List.mem_pair.mp hkey with rfl | rfl
  · rwa [field_of_member hv]
  · rwa [field_of_member hw]

theorem Tells.benign (h : Tells p m u) : Benign p m.topic m.payload := by
  cases h with
  | slot hroute hreads hs ht =>
    exact benign_of_object (by rw [hroute]; rfl) hreads.loads
      (storable_pair hs.member ht.member hs.storable ht.storable)
  | distance hroute hreads hk hn =>
    exact benign_of_object (by rw [hroute]; rfl) hreads.loads
      (storable_pair hk.member hn.member hk.storable hn.storable)
  | event hroute hreads hv hw =>
    exact benign_of_object (by rw [hroute]; rfl) hreads.loads
      (storable_pair hv.member hw.member hv.storable hw.storable)
  | lot hroute | gate hroute | unknown hroute => exact benign_of_bound (by rw [hroute]; rfl)
  | rejected hroute hloads => exact fun _ _ ↦ .inl hloads
  | heartbeat hroute hloads =>
    rcases hloads with hloads | ⟨ms, hloads⟩
    · exact fun _ _ ↦ .inl hloads
    · exact benign_of_object (by rw [hroute]; rfl) hloads fun _ hkey ↦ absurd hkey List.not_mem_nil

theorem Tells.collect (h : Tells p m u) (s : Collector) (ms : List Message) :
    ∃ s', Taken p m.collected m.topic m.payload s.db s'.db ∧
      collect p s (m :: ms) = collect p s' ms := by
  obtain ⟨s', hs'⟩ := h.benign.returns m.collected s
  refine ⟨s', handleMessage_taken hs', ?_⟩
  simp [Monitor.collect, Monitor.onMessage, hs']

section Simulation

variable {β : Type} {R : Message → Update → Prop} {step : β → Update → β} {ms : List Message}
  {us : List Update}

/-- What every message that is taken does to the database carries over to a run. -/
theorem collect_simulates {I : Database → β → Prop} (htells : ∀ {m u}, R m u → Tells p m u)
    (hstep : ∀ {m u now db db' b}, R m u → Stores p m now db u db' → I db b → I db' (step b u))
    (h : List.Forall₂ R ms us) {s : Collector} {b : β} (hs : I s.db b) :
    I (collect p s ms).db (us.foldl step b) := by
  induction h generalizing s b with
  | nil => exact hs
  | cons hm _ ih =>
    obtain ⟨s', htaken, hs'⟩ := (htells hm).collect s _
    rw [hs', List.foldl_cons]
    exact ih (hstep hm ((htells hm).stores htaken) hs)

/-- What every message does to the page carries over to a run. -/
theorem watch_simulates {I : Page → β → Prop}
    (hstep : ∀ {m u g b}, R m u → I g b →
      I (g.onMessage m.shown m.topic m.payload) (step b u))
    (h : List.Forall₂ R ms us) {g : Page} {b : β} (hg : I g b) :
    I (watch g ms) (us.foldl step b) := by
  induction h generalizing g b with
  | nil => exact hg
  | cons hm _ ih =>
    rw [List.foldl_cons]
    exact ih (hstep hm hg)

end Simulation

theorem collect_readings {ms : List Message} {us : List Update} (h : List.Forall₂ (Tells p) ms us)
    {s : Collector} (hs : s.db.Sound) :
    (getDashboardState (collect p s ms).db).readings =
        us.foldl Readings.step (getDashboardState s.db).readings ∧
      (collect p s ms).db.Sound := by
  refine collect_simulates (I := fun db b ↦ (getDashboardState db).readings = b ∧ db.Sound) id ?_ h
    ⟨rfl, hs⟩
  rintro m u now db db' b - hstores ⟨rfl, hdb⟩
  exact ⟨hstores.readings, hstores.sound hdb⟩

theorem watch_readings {ms : List Message} {us : List Update} (h : List.Forall₂ (Tells p) ms us)
    (g : Page) :
    (watch g ms).dashboardState.readings = us.foldl Readings.step g.dashboardState.readings := by
  refine watch_simulates (I := fun g b ↦ g.dashboardState.readings = b) ?_ h rfl
  rintro m u g b htells rfl
  exact (htells.onMessage g).1

theorem collect_feed {ms : List Message} {us : List Update} (h : List.Forall₂ (Tells p) ms us)
    (hwf : ∀ m ∈ ms, WellFormed p m) (s : Collector) :
    (getDashboardState (collect p s ms).db).feed =
      us.foldl feedStep (getDashboardState s.db).feed := by
  refine collect_simulates (I := fun db f ↦ (getDashboardState db).feed = f) And.right ?_
    ((List.forall₂_and_left _ _).mpr ⟨hwf, h⟩) rfl
  rintro m u now db db' f ⟨hm, -⟩ hstores rfl
  exact hstores.feed hm

theorem watch_feed {ms : List Message} {us : List Update} (h : List.Forall₂ (Tells p) ms us)
    (hwf : ∀ m ∈ ms, WellFormed p m) (g : Page) :
    (watch g ms).recentEvents.map Event.entry =
      us.foldl feedStep (g.recentEvents.map Event.entry) := by
  refine watch_simulates (I := fun g f ↦ g.recentEvents.map Event.entry = f) ?_
    ((List.forall₂_and_left _ _).mpr ⟨hwf, h⟩) rfl
  rintro m u g f ⟨hm, htells⟩ rfl
  exact (htells.onMessage g).2 hm

theorem watch_rendered {g : Page} (h : g.Rendered) (ms : List Message) : (watch g ms).Rendered := by
  induction ms generalizing g with
  | nil => exact h
  | cons m ms ih => exact ih (h.onMessage _ _ _)

theorem exists_tells {ms : List Message} (h : ∀ m ∈ ms, ∃ u, Tells p m u) :
    ∃ us, List.Forall₂ (Tells p) ms us := by
  induction ms with
  | nil => exact ⟨[], .nil⟩
  | cons m ms ih =>
    obtain ⟨u, hu⟩ := h m List.mem_cons_self
    obtain ⟨us, hus⟩ := ih fun m hm ↦ h m (List.mem_cons_of_mem _ hm)
    exact ⟨u :: us, .cons hu hus⟩

theorem pageAt_rendered (p : Platform) (ms : List Message) (k : ℕ) : (pageAt p ms k).Rendered :=
  watch_rendered (Page.applyState_rendered _ _) _

/-- **Whenever it was loaded**, the page shows the fold of what the messages tell. -/
theorem pageAt_readings {ms : List Message} {us : List Update} (h : List.Forall₂ (Tells p) ms us)
    (k : ℕ) : (pageAt p ms k).screen.readings = us.foldl Readings.step .start := by
  obtain ⟨hcollect, hsound⟩ :=
    collect_readings (List.forall₂_take k h) (s := .start) Database.empty_sound
  -- the snapshot is the fold over the first `k` updates, and the stream goes on from there
  rw [(pageAt_rendered p ms k).readings, pageAt, watch_readings (List.forall₂_drop k h),
    applyState_readings hsound, hcollect, ← List.foldl_append, List.take_append_drop]
  rfl

/-- The feed as a reader of the page sees it. -/
def Screen.feed (s : Screen) : List Entry := s.events.map fun l ↦ (l.topic, l.eventType, l.reason)

/-- How an entry is shown. -/
def Entry.shown (e : Entry) : Entry :=
  (orElse e.1 (text ""), orElse e.2.1 (text "unknown_event"), orElse e.2.2 none)

theorem Page.Rendered.feed {g : Page} (h : g.Rendered) :
    g.screen.feed = (g.recentEvents.map Event.entry).map Entry.shown := by
  rw [Screen.feed, h.events, List.map_map, List.map_map]
  rfl

theorem pageAt_feed {ms : List Message} {us : List Update} (h : List.Forall₂ (Tells p) ms us)
    (hwf : ∀ m ∈ ms, WellFormed p m) (k : ℕ) :
    (pageAt p ms k).screen.feed = (us.foldl feedStep []).map Entry.shown := by
  have hcollect := collect_feed (List.forall₂_take k h)
    (fun m hm ↦ hwf m (List.mem_of_mem_take hm)) .start
  have hstart : (Page.start.applyState
      (getDashboardState (collect p .start (ms.take k)).db)).recentEvents.map Event.entry =
      (us.take k).foldl feedStep [] := by
    rw [applyState_recentEvents, List.map_map]
    exact hcollect
  rw [(pageAt_rendered p ms k).feed, pageAt,
    watch_feed (List.forall₂_drop k h) (fun m hm ↦ hwf m (List.mem_of_mem_drop hm)), hstart,
    ← List.foldl_append, List.take_append_drop]

/-- **Snapshot and stream agree.** The page shows the same whenever it was loaded; and the same
feed, if all messages are well-formed. -/
theorem snapshot_agrees_with_stream (p : Platform) (ms : List Message)
    (h : ∀ m ∈ ms, ∃ u, Tells p m u) (j k : ℕ) :
    (pageAt p ms j).screen.readings = (pageAt p ms k).screen.readings ∧
      ((∀ m ∈ ms, WellFormed p m) → (pageAt p ms j).screen.feed = (pageAt p ms k).screen.feed) := by
  obtain ⟨us, hus⟩ := exists_tells h
  refine ⟨?_, fun hwf ↦ ?_⟩
  · rw [pageAt_readings hus, pageAt_readings hus]
  · rw [pageAt_feed hus hwf, pageAt_feed hus hwf]

/-- A distance and an event, before and after the page is loaded. -/
theorem snapshot_agrees_with_stream_twice :
    let p : Platform := { maxDigits := some 4300, maxDepth := 990, cast := fun _ v ↦ v }
    let ms : List Message :=
      [{ topic := "parking/rpi1/distance"
         payload := "\x7b\"slot1\": 8, \"slot2\": 31\x7d", collected := 0, shown := 0 },
       { topic := "parking/rpi2/event"
         payload := "\x7b\"event\": \"ENTRY_OPEN\", \"reason\": \"vehicle_detected\"\x7d"
         collected := 1, shown := 1 }]
    (pageAt p ms 0).screen.readings = (pageAt p ms 2).screen.readings ∧
      (pageAt p ms 0).screen.feed = (pageAt p ms 2).screen.feed := by
  have hreads : Reads { maxDigits := some 4300, maxDepth := 990, cast := fun _ v ↦ v }
      "\x7b\"slot1\": 8, \"slot2\": 31\x7d"
      [(Str.of "slot1", .int 8), (Str.of "slot2", .int 31)] := ⟨rfl, rfl⟩
  have hreads' : Reads { maxDigits := some 4300, maxDepth := 990, cast := fun _ v ↦ v }
      "\x7b\"event\": \"ENTRY_OPEN\", \"reason\": \"vehicle_detected\"\x7d"
      [(Str.of "event", text "ENTRY_OPEN"), (Str.of "reason", text "vehicle_detected")] :=
    ⟨rfl, rfl⟩
  intro p ms
  have htells : ∀ m ∈ ms, ∃ u, Tells p m u := by
    intro m hm
    rcases List.mem_pair.mp hm with rfl | rfl
    · exact ⟨_, .distance rfl hreads ⟨rfl, rfl⟩ ⟨rfl, rfl⟩⟩
    · exact ⟨_, .event rfl hreads' ⟨rfl, rfl, rfl⟩ ⟨rfl, rfl, rfl⟩⟩
  obtain ⟨hreadings, hfeed⟩ := snapshot_agrees_with_stream p ms htells 0 2
  refine ⟨hreadings, hfeed fun m hm ↦ ?_⟩
  rcases List.mem_pair.mp hm with rfl | rfl
  · exact ⟨htells _ hm, by decide, fun _ ↦ ⟨_, hreads.loads⟩,
      fun _ hroute ↦ absurd hroute (by decide)⟩
  · refine ⟨htells _ hm, by decide, fun _ ↦ ⟨_, hreads'.loads⟩, fun fields _ hloads ↦ ?_⟩
    cases hloads.symm.trans hreads'.loads
    exact ⟨⟨_, rfl⟩, _, rfl⟩

/-- SQLite refuses a distance of `2 ^ 63`, which ends the collector, and the page shows it. -/
theorem large_distance_shown_live_only :
    let p : Platform := { maxDigits := some 4300, maxDepth := 990, cast := fun _ v ↦ v }
    let ms : List Message :=
      [{ topic := "parking/rpi1/distance"
         payload := "\x7b\"slot1\": 9223372036854775808, \"slot2\": 31\x7d"
         collected := 0, shown := 0 }]
    (pageAt p ms 0).screen.readings ≠ (pageAt p ms 1).screen.readings := by
  intro p ms h
  have h' : (pageAt p ms 0).screen.slotDistance.slot1.isSome =
      (pageAt p ms 1).screen.slotDistance.slot1.isSome :=
    congrArg (fun b : Readings ↦ b.distance.slot1.isSome) h
  exact absurd h' (by decide)

end ParkingService.Monitor
