import ParkingService.Gate.Bridge
import ParkingService.Json.Printer
import ParkingService.Monitor.Agreement
import ParkingService.Slot.Record

/-!
# What the nodes say

The messages that the programs of RPI1 and RPI2 publish, with the topic of each of them and what it
tells. The C programs put their JSON together with `snprintf`, the Python programs with
`json.dumps`; either way it is some value written in some layout, so that reading it back is a
matter of `Json.parse_print`.

So whatever a node publishes, the collector and the page understand it, and as the same
(`Utterance.tells`). It takes no more than that Python reads integers of four digits and values that
are not nested at all.
-/

namespace ParkingService.Monitor

open Json Slots

/-! ## The messages -/

def topicSlot : String := "parking/rpi1/slot"

def topicDistance : String := "parking/rpi1/distance"

def topicLot : String := "parking/rpi1/lot"

/-- The nodes that send heartbeats. -/
inductive Sender
  | rpi1
  | rpi2
  deriving DecidableEq

def Sender.name : Sender → String
  | .rpi1 => "rpi1"
  | .rpi2 => "rpi2"

def Sender.topic : Sender → String
  | .rpi1 => "parking/rpi1/heartbeat"
  | .rpi2 => "parking/rpi2/heartbeat"

/-- The string constant of `rpi1_heartbeat.c` and `rpi2_heartbeat.c`. -/
def Sender.payloadC (n : Sender) : String :=
  "\x7b\"node\":\"" ++ n.name ++ "\",\"status\":\"online\"\x7d"

/-- `PAYLOAD` of `rpi1_heartbeat.py` and `rpi2_heartbeat.py`. -/
def Sender.value (n : Sender) : Value :=
  .obj [(Str.of "node", text n.name), (Str.of "status", text "online")]

/-- `json.dumps` -/
def dumps (data : Value) : String := .ofList (print .spaced 0 data)

def Sender.payloadPython (n : Sender) : String := dumps n.value

/-- A message of a node, and what it tells. -/
inductive Utterance : String → String → Update → Prop
  | slot (st : ParkingStatus) :
    Utterance topicSlot st.slotPayload (.slot (text (slotWord st.s1)) (text (slotWord st.s2)))
  | distance {st : ParkingStatus} (h : st.Storable) :
    Utterance topicDistance st.distancePayload (.distance (.decimal st.d1 0) (.decimal st.d2 0))
  | lot (st : ParkingStatus) : Utterance topicLot st.lotPayload (.lot (text st.lotPayload))
  | gate (cur : String) :
    Utterance topicPubGate (stateToGate cur) (.gate (text (stateToGate cur)))
  | event {prev next : String} (h : (transitionToEvent prev next).1 ≠ "") :
    Utterance topicPubEvent
      (eventMessage (transitionToEvent prev next).1 (transitionToEvent prev next).2).payload
      (.event (text topicPubEvent) (text (transitionToEvent prev next).1)
        (text (transitionToEvent prev next).2))
  | heartbeatC (n : Sender) : Utterance n.topic n.payloadC .nothing
  | heartbeatPython (n : Sender) : Utterance n.topic n.payloadPython .nothing

/-- What is supposed of Python: the limit of digits is at least 640, and one value may be nested in
another. -/
structure Platform.Roomy (p : Platform) : Prop where
  digits : ∀ k ∈ p.maxDigits, 640 ≤ k
  depth : 0 < p.maxDepth

/-! ## They are JSON -/

theorem slotPayload_eq (st : ParkingStatus) : st.slotPayload.toList =
    print .compact 0 (.obj [(Str.of "slot1", text (slotWord st.s1)),
      (Str.of "slot2", text (slotWord st.s2))]) := by
  unfold ParkingStatus.slotPayload slotWord
  split <;> split <;> decide

theorem distancePayload_eq (st : ParkingStatus) : st.distancePayload.toList =
    print .compact 0 (.obj [(Str.of "slot1", .int st.d1), (Str.of "slot2", .int st.d2),
      (Str.of "unit", text "cm")]) := by
  have h₁ : "\x7b\"slot1\":".toList = '\x7b' :: (quote (Str.of "slot1") ++ [':']) := by decide
  have h₂ : ",\"slot2\":".toList = ',' :: (quote (Str.of "slot2") ++ [':']) := by decide
  have h₃ : ",\"unit\":\"cm\"\x7d".toList =
      ',' :: (quote (Str.of "unit") ++ ':' :: (quote (Str.of "cm") ++ ['\x7d'])) := by decide
  simp only [ParkingStatus.distancePayload, String.toList_append, h₁, h₂, h₃, print, printMembers,
    text, Layout.compact, Text.decimal, List.cons_append, List.append_assoc, List.nil_append]

theorem eventPayload_eq {ev reason : String}
    (h : (ev, reason) = ("ENTRY_OPEN", "vehicle_detected")
      ∨ (ev, reason) = ("EXIT_OPEN", "switch_pressed")) :
    (eventMessage ev reason).payload.toList =
      print .compact 0 (.obj [(Str.of "event", text ev), (Str.of "reason", text reason)]) := by
  rcases h with h | h <;> obtain ⟨rfl, rfl⟩ := Prod.mk.inj h <;> decide

theorem payloadC_eq (n : Sender) : n.payloadC.toList = print .compact 0 n.value := by
  cases n <;> decide

theorem payloadPython_eq (n : Sender) : n.payloadPython.toList = print .spaced 0 n.value :=
  String.toList_ofList

theorem transitionToEvent_cases {prev next : String} (h : (transitionToEvent prev next).1 ≠ "") :
    transitionToEvent prev next = ("ENTRY_OPEN", "vehicle_detected")
      ∨ transitionToEvent prev next = ("EXIT_OPEN", "switch_pressed") := by
  unfold transitionToEvent at h ⊢
  split
  · exact .inl rfl
  · split
    · exact .inr rfl
    · rename_i h₁ h₂
      rw [if_neg h₁, if_neg h₂] at h
      exact absurd rfl h

/-! ## Both readers understand them -/

/-- Texts, and integers of at most four digits. -/
def Short : Value → Prop
  | .str s => s.Stable
  | .int n => n.natAbs < 10000
  | _ => False

theorem short_text (s : String) : Short (text s) := Str.stable_of s

section Readers

variable {D : Dialect} {p : Platform} {ms : List (Str × Value)}

theorem fits_of_short {v : Value} (hdigits : ∀ k ∈ D.maxDigits, 640 ≤ k) (h : Short v) :
    Fits D 1 v := by
  cases v with
  | str s => exact h
  | int n =>
    have hlength : (Nat.toDigits 10 n.natAbs).length ≤ 4 :=
      (Nat.length_toDigits_le_iff (by decide) (by decide)).mpr h
    rw [Fits, Dialect.Admits, Dialect.refuses]
    cases hk : D.maxDigits with
    | none => rfl
    | some k =>
      have hle := hdigits k hk
      rw [Option.any_some, decide_eq_false_iff_not]
      omega
  | _ => exact h.elim

theorem fits_obj (hdepth : D.tooDeep 0 = false) (hdigits : ∀ k ∈ D.maxDigits, 640 ≤ k)
    (hms : ∀ m ∈ ms, m.1.Stable ∧ Short m.2) : Fits D 0 (.obj ms) :=
  ⟨hdepth, fitMembers_iff.mpr fun m hm ↦ ⟨(hms m hm).1, fits_of_short hdigits (hms m hm).2⟩⟩

/-- Whoever wrote it, in whatever layout. -/
theorem reads_of_print (hp : p.Roomy) {payload : String} (L : Layout)
    (h : payload.toList = print L 0 (.obj ms)) (hms : ∀ m ∈ ms, m.1.Stable ∧ Short m.2) :
    Reads p payload ms := by
  have hdepth : p.dialect.tooDeep 0 = false := by
    simpa [Dialect.tooDeep, Platform.dialect] using Nat.ne_of_gt hp.depth
  refine ⟨?_, ?_⟩
  · rw [Platform.loads, h, parse_print L (fits_obj hdepth hp.digits hms)]
  · rw [jsonParse, h, parse_print L (fits_obj rfl (fun k hk ↦ by cases hk) hms)]
    rfl

theorem stable_members {a b : String} {v w : Value} (hv : Short v) (hw : Short w) :
    ∀ m ∈ [(Str.of a, v), (Str.of b, w)], m.1.Stable ∧ Short m.2 := by
  intro m hm
  rcases List.mem_pair.mp hm with rfl | rfl
  · exact ⟨Str.stable_of a, hv⟩
  · exact ⟨Str.stable_of b, hw⟩

theorem reads_slot (hp : p.Roomy) (st : ParkingStatus) : Reads p st.slotPayload
    [(Str.of "slot1", text (slotWord st.s1)), (Str.of "slot2", text (slotWord st.s2))] :=
  reads_of_print hp .compact (slotPayload_eq st) (stable_members (short_text _) (short_text _))

theorem reads_distance (hp : p.Roomy) {st : ParkingStatus} (h : st.Storable) :
    Reads p st.distancePayload [(Str.of "slot1", .int st.d1), (Str.of "slot2", .int st.d2),
      (Str.of "unit", text "cm")] := by
  refine reads_of_print hp .compact (distancePayload_eq st) fun m hm ↦ ?_
  have h₁ := (h (.distance 0)).bounds
  have h₂ := (h (.distance 1)).bounds
  simp only [List.mem_cons, List.not_mem_nil, or_false] at hm
  obtain rfl | rfl | rfl := hm
  · exact ⟨Str.stable_of _, show st.d1.natAbs < 10000 from by
      have : 0 ≤ st.d1 ∧ st.d1 < 1000 := h₁
      omega⟩
  · exact ⟨Str.stable_of _, show st.d2.natAbs < 10000 from by
      have : 0 ≤ st.d2 ∧ st.d2 < 1000 := h₂
      omega⟩
  · exact ⟨Str.stable_of _, short_text _⟩

theorem reads_event (hp : p.Roomy) {prev next : String}
    (h : (transitionToEvent prev next).1 ≠ "") :
    Reads p (eventMessage (transitionToEvent prev next).1 (transitionToEvent prev next).2).payload
      [(Str.of "event", text (transitionToEvent prev next).1),
        (Str.of "reason", text (transitionToEvent prev next).2)] :=
  reads_of_print hp .compact (eventPayload_eq (transitionToEvent_cases h))
    (stable_members (short_text _) (short_text _))

theorem reads_heartbeat (hp : p.Roomy) (n : Sender) {payload : String}
    (h : payload = n.payloadC ∨ payload = n.payloadPython) :
    Reads p payload [(Str.of "node", text n.name), (Str.of "status", text "online")] := by
  rcases h with rfl | rfl
  · exact reads_of_print hp .compact (payloadC_eq n) (stable_members (short_text _) (short_text _))
  · exact reads_of_print hp .spaced (payloadPython_eq n)
      (stable_members (short_text _) (short_text _))

end Readers

theorem names_slot (s : String) (hs : s ≠ "") {ms : List (Str × Value)} {key : String}
    (h : member? ms (Str.of key) = some (text s)) : Names ms key (Str.of s) := by
  refine ⟨h, fun hnil ↦ hs ?_, storable_text s⟩
  simpa [Str.of] using hnil

theorem slotWord_ne (occupied : ℤ) : slotWord occupied ≠ "" := by
  unfold slotWord
  split <;> decide

theorem lotPayload_ne (st : ParkingStatus) : st.lotPayload ≠ "" := by
  unfold ParkingStatus.lotPayload
  split <;> decide

theorem stateToGate_ne (cur : String) : stateToGate cur ≠ "" := by
  unfold stateToGate
  split <;> decide

theorem route_sender (n : Sender) : route n.topic = .heartbeat := by
  cases n <;> rfl

/-- **Whatever a node says is understood**, by the collector and by the page, and as the same. -/
theorem Utterance.tells {p : Platform} (hp : p.Roomy) {m : Message} {u : Update}
    (h : Utterance m.topic m.payload u) : Tells p m u := by
  obtain ⟨topic, payload, collected, shown⟩ := m
  cases h with
  | slot st =>
    exact .slot rfl (reads_slot hp st) (names_slot _ (slotWord_ne _) rfl)
      (names_slot _ (slotWord_ne _) rfl)
  | @distance st h =>
    have hstorable (f : StatusField) (hf : f.CanHold (st.get f)) : storable (.int (st.get f)) := by
      have := hf.bounds
      simp only [storable, Bool.and_eq_true, decide_eq_true_eq]
      omega
    exact .distance rfl (reads_distance hp h) ⟨rfl, hstorable _ (h (.distance 0))⟩
      ⟨rfl, hstorable _ (h (.distance 1))⟩
  | lot st =>
    exact .lot rfl (lotPayload_ne st)
  | gate cur =>
    exact .gate rfl (stateToGate_ne cur)
  | event h =>
    exact .event rfl (reads_event hp h) ⟨rfl, rfl, storable_text _⟩ ⟨rfl, rfl, storable_text _⟩
  | heartbeatC n =>
    exact .heartbeat (route_sender n) (.inr ⟨_, (reads_heartbeat hp n (.inl rfl)).loads⟩)
  | heartbeatPython n =>
    exact .heartbeat (route_sender n) (.inr ⟨_, (reads_heartbeat hp n (.inr rfl)).loads⟩)

/-- Where a message goes that tells so much. -/
def Update.route : Update → Route
  | .slot .. => .slot
  | .distance .. => .distance
  | .lot _ => .lot
  | .gate _ => .gate
  | .event .. => .event
  | .nothing => .heartbeat

theorem Utterance.route_eq {topic payload : String} {u : Update} (h : Utterance topic payload u) :
    Monitor.route topic = u.route := by
  cases h with
  | heartbeatC n | heartbeatPython n => exact route_sender n
  | slot | distance | lot | gate | event => rfl

/-- Nothing that a node says is taken for a message that cannot be interpreted. -/
theorem Utterance.wellFormed {p : Platform} (hp : p.Roomy) {m : Message} {u : Update}
    (h : Utterance m.topic m.payload u) : WellFormed p m := by
  refine ⟨⟨u, h.tells hp⟩, ?_, ?_, ?_⟩
  · rw [h.route_eq]
    cases u <;> exact Route.noConfusion
  · rw [h.route_eq]
    intro hroute
    obtain ⟨topic, payload, collected, shown⟩ := m
    cases h with
    | slot st => exact ⟨_, (reads_slot hp st).loads⟩
    | distance h => exact ⟨_, (reads_distance hp h).loads⟩
    | event h => exact ⟨_, (reads_event hp h).loads⟩
    | lot | gate | heartbeatC | heartbeatPython => simp [Update.route] at hroute
  · rw [h.route_eq]
    intro ms hroute hloads
    obtain ⟨topic, payload, collected, shown⟩ := m
    cases h with
    | event h =>
      have hms := (reads_event hp h).loads.symm.trans hloads
      obtain rfl := Value.obj.inj (Except.ok.inj hms)
      exact ⟨⟨_, rfl⟩, _, rfl⟩
    | slot | distance | lot | gate | heartbeatC | heartbeatPython => cases hroute

/-! ## From the driver to the page -/

/-- The values that the daemon has read. -/
def readStatus (values : ℤ × ℤ × ℤ × ℤ) : ParkingStatus where
  occupied i := if i.val = 0 then values.1 else values.2.1
  distanceCm i := if i.val = 0 then values.2.2.1 else values.2.2.2

/-- The body of the loop in `main` of `rpi1_parking_mqtt.c`, for what `read` has put into `buf`. -/
def daemonTurn (junk : ℤ → UInt8) (received : List UInt8) (t : ℚ) : List Message :=
  match parseRecord (daemonBuf junk received) with
  | some values =>
    [⟨topicSlot, (readStatus values).slotPayload, t, t⟩,
      ⟨topicDistance, (readStatus values).distancePayload, t, t⟩,
      ⟨topicLot, (readStatus values).lotPayload, t, t⟩]
  | none => []

/-- What is shown when a record has been told. -/
def Readings.record (b : Readings) (st : ParkingStatus) : Readings :=
  { b with
    slot := ⟨text (slotWord st.s1), text (slotWord st.s2)⟩
    distance := ⟨some (.decimal st.d1 0), some (.decimal st.d2 0)⟩
    lotState := text st.lotPayload }

theorem readStatus_args (st : ParkingStatus) : readStatus (st.s1, st.s2, st.d1, st.d2) = st := by
  ext i
  · match i with
    | 0 | 1 => rfl
  · match i with
    | 0 | 1 => rfl

theorem daemonTurn_tells {p : Platform} (hp : p.Roomy) {st : ParkingStatus} (hst : st.Storable)
    (junk : ℤ → UInt8) (t : ℚ) :
    List.Forall₂ (Tells p) (daemonTurn junk st.bytes t)
      [.slot (text (slotWord st.s1)) (text (slotWord st.s2)),
        .distance (.decimal st.d1 0) (.decimal st.d2 0), .lot (text st.lotPayload)] := by
  have hlossless : Lossless junk junk st := hst.lossless
  rw [daemonTurn, hlossless.parsed]
  dsimp only
  rw [readStatus_args]
  refine .cons ?_ (.cons ?_ (.cons ?_ .nil))
  · exact Utterance.tells (m := ⟨topicSlot, st.slotPayload, t, t⟩) hp (.slot st)
  · exact Utterance.tells (m := ⟨topicDistance, st.distancePayload, t, t⟩) hp (.distance hst)
  · exact Utterance.tells (m := ⟨topicLot, st.lotPayload, t, t⟩) hp (.lot st)

/-- **A record arrives as it is.** Whatever record a call of the daemon delivers in a run of the
driver, the daemon is sent the bytes of it, and what it publishes of them is stored by the collector
and kept by the page as just these values, whatever they held before; and a page that shows what it
keeps has them on its screen. -/
theorem record_arrives {p : Platform} (hp : p.Roomy) {c c' : WatchedConfig} {call : ReadCall}
    (hc : WatchedReachable c) (h : ReadFrom c call c') {st : ParkingStatus}
    (hst : ⟨.leave (.len st), ()⟩ ∈ callAnswers c call c') (junk junk' : ℤ → UInt8) (t : ℚ) :
    ∃ received, sendRecord junk (bufSize - 1) st = some received ∧
      (∀ s : Collector, s.db.Sound →
        (getDashboardState (collect p s (daemonTurn junk' received t)).db).readings =
          (getDashboardState s.db).readings.record st) ∧
      ∀ g : Page, (watch g (daemonTurn junk' received t)).dashboardState.readings =
          g.dashboardState.readings.record st ∧
        (g.Rendered → (watch g (daemonTurn junk' received t)).screen.readings =
          g.screen.readings.record st) := by
  have hstorable : st.Storable := by
    rw [h.course.eq_of_len hst]
    exact storable_fieldsRead hc h
  have hlossless : Lossless junk junk' st := hstorable.lossless
  have htells := daemonTurn_tells hp hstorable junk' t
  refine ⟨st.bytes, hlossless.sent, fun s hs ↦ ?_, fun g ↦ ?_⟩
  · rw [(collect_readings htells hs).1]
    rfl
  · have hkept : (watch g (daemonTurn junk' st.bytes t)).dashboardState.readings =
        g.dashboardState.readings.record st := by
      rw [watch_readings htells g]
      rfl
    refine ⟨hkept, fun hg ↦ ?_⟩
    rw [(watch_rendered hg _).readings, hkept, hg.readings]

/-- The page shows what the record says, when it has been loaded before. -/
theorem record_arrives_once : ∃ st received,
    sendRecord (fun _ ↦ 0) (bufSize - 1) st = some received ∧
      (watch (Page.start.applyState (getDashboardState Collector.start.db))
        (daemonTurn (fun _ ↦ 0) received 0)).screen.readings = Readings.start.record st := by
  obtain ⟨c, call, c', st, hc, hread, -, -, hst⟩ := exists_record
  have hp : Platform.Roomy { maxDigits := none, maxDepth := 1, cast := fun _ v ↦ v } :=
    ⟨fun k hk ↦ (by cases hk), by decide⟩
  obtain ⟨received, hsent, -, hshown⟩ :=
    record_arrives hp hc hread hst (fun _ ↦ 0) (fun _ ↦ 0) 0
  have hloaded := Page.applyState_rendered .start (getDashboardState Collector.start.db)
  refine ⟨st, received, hsent, ((hshown _).2 hloaded).trans ?_⟩
  have hempty : Collector.start.db.Sound := Database.empty_sound
  rw [hloaded.readings, applyState_readings hempty]
  rfl

end ParkingService.Monitor
