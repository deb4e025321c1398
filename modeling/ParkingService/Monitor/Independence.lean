import ParkingService.Monitor.KernelStatus

/-!
# One node's payload and the other node's status

Two threads report: the one that handles messages, after each of them, and another one again and
again. Each builds a text and then hands it to the device, without a lock for both, so that an older
text may come after a newer one. A history is any order of these actions, and `lastShown` is where
in it the text on the device was built.

A history may go on after an exception has left `on_message`, but nothing is received any more.

`ownStatus` is the state of `rpi2` by its own heartbeats and the clock when that text was built. A
payload of `rpi1` gets in the way of it in two ways. It stands in the text before the lines of
`rpi2` (`seen_iff`); and one that `json.loads` takes for something else than an object ends the
collector, so that no more heartbeats are heard. If none of them does that, what is seen of `rpi2`
is independent of the payloads of `rpi1` exactly if the text that is shown survives the payload that
was in it (`status_independent_iff`).
-/

namespace ParkingService.Monitor

open Json
open Text (Buffer Survives utf8)

/-! ## The handler -/

inductive Thread
  | main
  | reporter
  deriving DecidableEq

/-- What a thread does next, or what reaches the main one. -/
inductive Action
  | receive (now : ℚ) (topic payload : String)
  | connect (now : ℚ) (rc : ℤ)
  | build (t : Thread) (now : ℚ)
  | write (t : Thread)

structure Handler where
  collector : Collector
  /-- an exception has left `on_message` -/
  ended : Bool
  /-- the text that a thread has built last -/
  message : Thread → Option String
  statusBuf : Buffer

def Handler.start : Handler where
  collector := .start
  ended := false
  message _ := none
  statusBuf := Monitor.statusBuf

/-- `on_connect` -/
def onConnect (now : ℚ) (rc : ℤ) (c : Collector) : Collector :=
  c.updateKernelStatus now <|
    if rc = 0 then ⟨"MQTT_OK", none⟩ else ⟨"MQTT_ERROR connect_rc_" ++ toString rc, none⟩

section Run

variable (p : Platform) (timeout : ℤ) (str : Value → String)

def Handler.step (s : Handler) : Action → Handler
  | .receive now topic payload =>
    if s.ended then s
    else
      let (c, e) := onMessage p now topic payload s.collector
      { s with collector := c, ended := e.isSome }
  | .connect now rc =>
    if s.ended then s else { s with collector := onConnect now rc s.collector }
  | .build t now =>
    let message := buildKernelStatus timeout str now s.collector
    { s with message := fun t' ↦ if t' = t then some message else s.message t' }
  | .write t =>
    match s.message t with
    | some message => { s with statusBuf := writeKernelStatus s.statusBuf message }
    | none => s

/-- The handler after some actions, of which the last one comes first. -/
def run : List Action → Handler
  | [] => .start
  | a :: h => (run h).step p timeout str a

/-- The status of `rpi2` as it is seen in `/proc/rpi3_status`. -/
def seen (h : List Action) : Option (List UInt8) := seenStatus (run p timeout str h).statusBuf

end Run

/-! ## What is to be seen -/

/-- Before what, and when, the thread has built its last text. -/
def lastBuilt (t : Thread) : List Action → Option (List Action × ℚ)
  | [] => none
  | .build t' now :: h => if t = t' then some (h, now) else lastBuilt t h
  | _ :: h => lastBuilt t h

/-- The same of the text that is shown. -/
def lastShown : List Action → Option (List Action × ℚ)
  | [] => none
  | .write t :: h => (lastBuilt t h).or (lastShown h)
  | _ :: h => lastShown h

/-- The handler does not return from the message. -/
def raises (p : Platform) (topic payload : String) : Bool :=
  (onMessage p 0 topic payload .start).2.isSome

/-- The status that a heartbeat reports. -/
def statusOf (p : Platform) (payload : String) : Value :=
  match p.loads payload with
  | .ok (.obj ms) => (member? ms (Str.of "status")).getD (text "online")
  | _ => text "unknown"

/-- What is known of `rpi2`, and whether somebody still listens. -/
structure Heard where
  lastSeen : Option ℚ
  reportedStatus : Value
  listening : Bool

/-- A message is received. Heartbeats of `rpi1` do not matter. -/
def Heard.receive (p : Platform) (now : ℚ) (topic payload : String) (o : Heard) : Heard :=
  if o.listening = false ∨ topic = "parking/rpi1/heartbeat" then o
  else if raises p topic payload then { o with listening := false }
  else if topic = "parking/rpi2/heartbeat" then
    { o with lastSeen := some now, reportedStatus := statusOf p payload }
  else o

/-- What is to be known of `rpi2` after some actions. -/
def heard (p : Platform) : List Action → Heard
  | [] => ⟨none, text "unknown", true⟩
  | .receive now topic payload :: h => (heard p h).receive p now topic payload
  | _ :: h => heard p h

/-- The state that the heartbeats of `rpi2` and the clock determine, when the text that is shown was
built. -/
def ownStatus (p : Platform) (timeout : ℤ) (h : List Action) : NodeState :=
  match lastShown h with
  | none => .unknown
  | some (h₀, now) => nodeState timeout now (heard p h₀).lastSeen (heard p h₀).reportedStatus

/-- The action without the payload of a heartbeat of `rpi1`. -/
def Action.hide : Action → Action
  | .receive now topic payload =>
    .receive now topic (if topic = "parking/rpi1/heartbeat" then "" else payload)
  | a => a

/-- A heartbeat of `rpi1` does not end the collector. -/
def Action.Tolerated (p : Platform) : Action → Prop
  | .receive _ topic payload => topic = "parking/rpi1/heartbeat" → Benign p topic payload
  | _ => True

/-- The line of `rpi2` in the text that is shown survives the payload of `rpi1` in that text. -/
def Intact (p : Platform) (timeout : ℤ) (str : Value → String) (h : List Action) : Prop :=
  ∀ h₀ now, lastShown h = some (h₀, now) →
    Survives statusKey (utf8 (ownStatus p timeout h).text)
      (utf8 ((run p timeout str h₀).collector.nodeLastPayload "rpi1"))
      (statusRoom timeout now (run p timeout str h₀).collector)

variable {p : Platform} {timeout : ℤ} {str : Value → String} {h : List Action}

/-! ## Payloads that are hidden -/

theorem Action.hide_build (t : Thread) (now : ℚ) : (build t now).hide = build t now := rfl

theorem Action.hide_write (t : Thread) : (write t).hide = write t := rfl

theorem heard_hide (p : Platform) (h : List Action) :
    heard p (h.map Action.hide) = heard p h := by
  induction h with
  | nil => rfl
  | cons a h ih =>
    cases a with
    | receive now topic payload =>
      rw [List.map_cons, Action.hide, heard, heard, ih]
      by_cases htopic : topic = "parking/rpi1/heartbeat" <;> simp [Heard.receive, htopic]
    | connect | build | write => exact ih

theorem lastBuilt_hide (t : Thread) (h : List Action) :
    lastBuilt t (h.map Action.hide) = (lastBuilt t h).map (Prod.map (List.map Action.hide) id) := by
  induction h with
  | nil => rfl
  | cons a h ih =>
    cases a with
    | build t' now =>
      rw [List.map_cons, Action.hide_build, lastBuilt, lastBuilt]
      split
      · rfl
      · exact ih
    | receive | connect | write => exact ih

theorem lastShown_hide (h : List Action) :
    lastShown (h.map Action.hide) = (lastShown h).map (Prod.map (List.map Action.hide) id) := by
  induction h with
  | nil => rfl
  | cons a h ih =>
    cases a with
    | write t =>
      rw [List.map_cons, Action.hide_write, lastShown, lastShown, lastBuilt_hide, ih, Option.map_or]
    | receive | connect | build => exact ih

theorem ownStatus_hide (p : Platform) (timeout : ℤ) (h : List Action) :
    ownStatus p timeout (h.map Action.hide) = ownStatus p timeout h := by
  rw [ownStatus, ownStatus, lastShown_hide]
  cases lastShown h with
  | none => rfl
  | some b =>
    simp only [Option.map_some, Prod.map, heard_hide]
    rfl

/-! ## The heartbeats of one node -/

/-- The fields of the nodes. -/
structure SameNodes (c c' : Collector) : Prop where
  lastSeen : c'.nodeLastSeen = c.nodeLastSeen
  reportedStatus : c'.nodeReportedStatus = c.nodeReportedStatus

section Message

variable {now : ℚ} {topic payload : String} {c c' : Collector}

theorem sameNodes_slots {insert : Value → Value → Except Exn Database} {eventType : String}
    (hmessage : (do
      let (s, ok) ← handleSlots p now topic payload c insert eventType
      return if ok then s.updateKernelStatus now ⟨"MSG " ++ topic, none⟩ else s) = .ok c') :
    SameNodes c c' := by
  obtain ⟨⟨c₁, ok⟩, hslots, hc'⟩ := bind_eq_ok.mp hmessage
  obtain rfl := pure_eq_ok.mp hc'
  rcases handleSlots_eq_ok.mp hslots with ⟨-, hreject, rfl⟩ | ⟨ms, db, -, -, rfl, rfl⟩
  · rw [rejectPayload_eq_ok.mp hreject]
    exact ⟨rfl, rfl⟩
  · exact ⟨rfl, rfl⟩

/-- Only heartbeats say something about a node. -/
theorem handleMessage_sameNodes (hroute : route topic ≠ .heartbeat)
    (hmessage : handleMessage p now topic payload c = .ok c') : SameNodes c c' := by
  unfold handleMessage at hmessage
  cases hcase : route topic <;> rw [hcase] at hmessage <;> dsimp only at hmessage
  case heartbeat => exact absurd hcase hroute
  case slot | distance => exact sameNodes_slots hmessage
  case lot | gate =>
    obtain ⟨db, -, hc'⟩ := bind_eq_ok.mp hmessage
    obtain rfl := pure_eq_ok.mp hc'
    exact ⟨rfl, rfl⟩
  case event =>
    obtain ⟨⟨c₁, ok⟩, hevent, hc'⟩ := bind_eq_ok.mp hmessage
    obtain rfl := pure_eq_ok.mp hc'
    rcases handleEventMessage_eq_ok.mp hevent with ⟨-, hreject, -⟩ | ⟨ms, db, _, -, -, -, rfl, -⟩
    · rw [rejectPayload_eq_ok.mp hreject]
      exact ⟨rfl, rfl⟩
    · exact ⟨rfl, rfl⟩
  case unknown =>
    obtain ⟨db, -, hc'⟩ := bind_eq_ok.mp hmessage
    obtain rfl := pure_eq_ok.mp hc'
    exact ⟨rfl, rfl⟩

theorem onMessage_sameNodes (hroute : route topic ≠ .heartbeat) :
    SameNodes c (onMessage p now topic payload c).1 := by
  unfold onMessage
  cases hmessage : handleMessage p now topic payload c with
  | ok c' => exact handleMessage_sameNodes hroute hmessage
  | error e => exact ⟨rfl, rfl⟩

theorem onMessage_isSome_iff :
    (onMessage p now topic payload c).2.isSome ↔ ¬Benign p topic payload := by
  unfold onMessage
  cases hmessage : handleMessage p now topic payload c with
  | ok c' =>
    exact iff_of_false Bool.false_ne_true (not_not.mpr (handleMessage_taken hmessage).benign)
  | error e =>
    refine iff_of_true rfl fun hbenign ↦ ?_
    obtain ⟨c', hc'⟩ := hbenign.returns now c
    rw [hmessage] at hc'
    cases hc'

theorem onMessage_isSome (p : Platform) (now : ℚ) (topic payload : String) (c : Collector) :
    (onMessage p now topic payload c).2.isSome = raises p topic payload :=
  Bool.eq_iff_iff.mpr (onMessage_isSome_iff.trans onMessage_isSome_iff.symm)

/-- The collector after a heartbeat that it takes. -/
def Collector.heartbeat (p : Platform) (now : ℚ) (node payload : String) (c : Collector) :
    Collector :=
  { c with
    nodeLastSeen := fun n ↦ if n = node then some now else c.nodeLastSeen n
    nodeLastPayload := fun n ↦ if n = node then payload else c.nodeLastPayload n
    nodeReportedStatus := fun n ↦ if n = node then statusOf p payload else c.nodeReportedStatus n }

theorem Collector.heartbeat_self (p : Platform) (now : ℚ) (node payload : String) (c : Collector) :
    (c.heartbeat p now node payload).nodeLastSeen node = some now ∧
      (c.heartbeat p now node payload).nodeReportedStatus node = statusOf p payload ∧
      (c.heartbeat p now node payload).nodeLastPayload node = payload :=
  ⟨if_pos rfl, if_pos rfl, if_pos rfl⟩

theorem Collector.heartbeat_of_ne (p : Platform) (now : ℚ) (payload : String) (c : Collector)
    {n node : String} (hne : n ≠ node) :
    (c.heartbeat p now node payload).nodeLastSeen n = c.nodeLastSeen n ∧
      (c.heartbeat p now node payload).nodeReportedStatus n = c.nodeReportedStatus n :=
  ⟨if_neg hne, if_neg hne⟩

theorem handleHeartbeatMessage_eq_ok (h : handleHeartbeatMessage p now topic payload c = .ok c') :
    c' = c.heartbeat p now (nodeOf topic) payload := by
  unfold handleHeartbeatMessage at h
  simp only [bind_eq_ok, pure_eq_ok, tryLoads_eq_ok, get_eq_ok] at h
  obtain ⟨v, hloads, rfl⟩ := h
  have hv : v = statusOf p payload := by
    unfold statusOf
    rcases hloads with ⟨hloads, hv⟩ | ⟨_, hloads, ms, rfl, hv⟩
    · rw [hloads]
      exact (Except.ok.inj hv).symm
    · rw [hloads]
      exact hv
  rw [hv]
  rfl

theorem onMessage_heartbeat {node : String} (hroute : route topic = .heartbeat)
    (hnode : nodeOf topic = node) (hraises : raises p topic payload = false) :
    (onMessage p now topic payload c).1 = c.heartbeat p now node payload := by
  rw [← onMessage_isSome p now topic payload c] at hraises
  subst hnode
  unfold onMessage at hraises ⊢
  cases hmessage : handleMessage p now topic payload c with
  | ok c' =>
    unfold handleMessage at hmessage
    rw [hroute] at hmessage
    exact handleHeartbeatMessage_eq_ok hmessage
  | error e =>
    rw [hmessage] at hraises
    cases hraises

theorem onMessage_of_raises (hraises : raises p topic payload) :
    SameNodes c (onMessage p now topic payload c).1 := by
  rw [← onMessage_isSome p now topic payload c] at hraises
  unfold onMessage at hraises ⊢
  cases hmessage : handleMessage p now topic payload c with
  | ok c' =>
    rw [hmessage] at hraises
    cases hraises
  | error e => exact ⟨rfl, rfl⟩

theorem route_ne_heartbeat (hrpi1 : topic ≠ "parking/rpi1/heartbeat")
    (hrpi2 : topic ≠ "parking/rpi2/heartbeat") : route topic ≠ .heartbeat := by
  unfold route
  rw [if_neg (not_or.mpr ⟨hrpi1, hrpi2⟩)]
  split_ifs <;> decide

end Message

/-- The collector knows of `rpi2` what it is to know. -/
structure Agrees (s : Handler) (o : Heard) : Prop where
  lastSeen : s.collector.nodeLastSeen "rpi2" = o.lastSeen
  reportedStatus : s.collector.nodeReportedStatus "rpi2" = o.reportedStatus
  ended : s.ended = !o.listening

theorem Agrees.receive {s : Handler} {o : Heard} (h : Agrees s o) {now : ℚ} {topic payload : String}
    (ha : (Action.receive now topic payload).Tolerated p) :
    Agrees (s.step p timeout str (.receive now topic payload)) (o.receive p now topic payload) := by
  have hended := h.ended
  rw [Handler.step, Heard.receive]
  cases hlistening : o.listening with
  | false =>
    rw [hlistening] at hended
    rw [hended, if_pos Bool.not_false, if_pos (.inl rfl)]
    exact h
  | true =>
    rw [hlistening] at hended
    rw [hended, if_neg (by decide)]
    dsimp only
    rw [onMessage_isSome]
    by_cases hrpi1 : topic = "parking/rpi1/heartbeat"
    · -- the fields of `rpi2` are not touched
      have hraises : raises p topic payload = false :=
        eq_false_of_ne_true fun htrue ↦ onMessage_isSome_iff.mp htrue (ha hrpi1)
      rw [if_pos (.inr hrpi1), hraises]
      subst hrpi1
      have hnode : nodeOf "parking/rpi1/heartbeat" = "rpi1" := by decide
      obtain ⟨hlastSeen, hreported⟩ :=
        s.collector.heartbeat_of_ne p now payload (by decide : "rpi2" ≠ "rpi1")
      rw [onMessage_heartbeat (by decide) hnode hraises]
      exact ⟨hlastSeen.trans h.lastSeen, hreported.trans h.reportedStatus, by rw [hlistening]; rfl⟩
    rw [if_neg (by simp [hrpi1])]
    cases hraises : raises p topic payload with
    | true =>
      have hsame : SameNodes s.collector (onMessage p now topic payload s.collector).1 :=
        onMessage_of_raises hraises
      rw [if_pos rfl]
      exact ⟨(congrFun hsame.lastSeen _).trans h.lastSeen,
        (congrFun hsame.reportedStatus _).trans h.reportedStatus, rfl⟩
    | false =>
      rw [if_neg Bool.false_ne_true]
      by_cases hrpi2 : topic = "parking/rpi2/heartbeat"
      · subst hrpi2
        have hnode : nodeOf "parking/rpi2/heartbeat" = "rpi2" := by decide
        obtain ⟨hlastSeen, hreported, -⟩ := s.collector.heartbeat_self p now "rpi2" payload
        rw [if_pos rfl, onMessage_heartbeat (by decide) hnode hraises]
        exact ⟨hlastSeen, hreported, rfl⟩
      · have hsame : SameNodes s.collector (onMessage p now topic payload s.collector).1 :=
          onMessage_sameNodes (route_ne_heartbeat hrpi1 hrpi2)
        rw [if_neg hrpi2]
        exact ⟨(congrFun hsame.lastSeen _).trans h.lastSeen,
          (congrFun hsame.reportedStatus _).trans h.reportedStatus, by rw [hlistening]; rfl⟩

theorem heard_agrees (h : List Action) (htolerated : ∀ a ∈ h, a.Tolerated p) :
    Agrees (run p timeout str h) (heard p h) := by
  induction h with
  | nil => exact ⟨rfl, rfl, rfl⟩
  | cons a h ih =>
    have hrest := ih fun a' ha' ↦ htolerated a' (List.mem_cons_of_mem a ha')
    cases a with
    | build t now => exact ⟨hrest.lastSeen, hrest.reportedStatus, hrest.ended⟩
    | write t =>
      rw [run, Handler.step]
      split <;> exact ⟨hrest.lastSeen, hrest.reportedStatus, hrest.ended⟩
    | connect now rc =>
      rw [run, Handler.step]
      split
      · exact hrest
      · exact ⟨hrest.lastSeen, hrest.reportedStatus, hrest.ended⟩
    | receive now topic payload => exact hrest.receive (htolerated _ List.mem_cons_self)

/-! ## Which text is shown -/

theorem step_receive_frame (s : Handler) (now : ℚ) (topic payload : String) :
    (s.step p timeout str (.receive now topic payload)).message = s.message ∧
      (s.step p timeout str (.receive now topic payload)).statusBuf = s.statusBuf := by
  rw [Handler.step]
  split <;> exact ⟨rfl, rfl⟩

theorem step_connect_frame (s : Handler) (now : ℚ) (rc : ℤ) :
    (s.step p timeout str (.connect now rc)).message = s.message ∧
      (s.step p timeout str (.connect now rc)).statusBuf = s.statusBuf := by
  rw [Handler.step]
  split <;> exact ⟨rfl, rfl⟩

theorem step_write_message (s : Handler) (t : Thread) :
    (s.step p timeout str (.write t)).message = s.message := by
  rw [Handler.step]
  split <;> rfl

theorem run_message (t : Thread) (h : List Action) :
    (run p timeout str h).message t =
      (lastBuilt t h).map fun b ↦
        buildKernelStatus timeout str b.2 (run p timeout str b.1).collector := by
  induction h with
  | nil => rfl
  | cons a h ih =>
    cases a with
    | build t' now =>
      rw [run, Handler.step, lastBuilt]
      dsimp only
      split
      · rfl
      · exact ih
    | write t' => exact (congrFun (step_write_message _ t') t).trans ih
    | receive now topic payload =>
      exact (congrFun (step_receive_frame _ now topic payload).1 t).trans ih
    | connect now rc => exact (congrFun (step_connect_frame _ now rc).1 t).trans ih

/-- The status of a text that has been built then. -/
def builtStatus (p : Platform) (timeout : ℤ) (str : Value → String) (b : List Action × ℚ) :
    Option (List UInt8) :=
  let message := buildKernelStatus timeout str b.2 (run p timeout str b.1).collector
  seenStatus (writeKernelStatus statusBuf message)

theorem seenStatus_writeKernelStatus (b b' : Buffer) (message : String) :
    seenStatus (writeKernelStatus b message) = seenStatus (writeKernelStatus b' message) := by
  rw [seenStatus, seenStatus, rpi3StatusProcShow_writeKernelStatus,
    rpi3StatusProcShow_writeKernelStatus]

/-- The text on the device is the one that was built then, whatever was there before. -/
theorem seen_eq (h : List Action) :
    seen p timeout str h =
      ((lastShown h).map (builtStatus p timeout str)).getD (seenStatus statusBuf) := by
  induction h with
  | nil =>
    rw [seen, run, lastShown, Option.map_none, Option.getD_none, Handler.start]
  | cons a h ih =>
    cases a with
    | build => exact ih
    | receive now topic payload =>
      rw [seen, run, (step_receive_frame _ now topic payload).2, ← seen, ih]
      rfl
    | connect now rc =>
      rw [seen, run, (step_connect_frame _ now rc).2, ← seen, ih]
      rfl
    | write t =>
      rw [seen, run, Handler.step, lastShown, run_message]
      cases lastBuilt t h with
      | none => exact ih
      | some b =>
        rw [Option.some_or, Option.map_some, Option.map_some, Option.getD_some, builtStatus]
        dsimp only
        rw [seenStatus_writeKernelStatus _ statusBuf]

/-! ## Independence -/

theorem seenStatus_statusBuf : seenStatus statusBuf = some (utf8 NodeState.unknown.text) := by
  have hshow : rpi3StatusProcShow statusBuf = Text.cString initialStatus :=
    rpi3StatusProcShow_deviceAfter []
  rw [seenStatus, hshow]
  decide

theorem lastBuilt_suffix {t : Thread} {b : List Action × ℚ} (hb : lastBuilt t h = some b) :
    b.1 <:+ h := by
  induction h with
  | nil => cases hb
  | cons a h ih =>
    cases a with
    | build t' now =>
      rw [lastBuilt] at hb
      split at hb
      · cases hb
        exact List.suffix_cons _ h
      · exact (ih hb).trans (List.suffix_cons _ h)
    | receive | connect | write => exact (ih hb).trans (List.suffix_cons _ h)

theorem lastShown_suffix {b : List Action × ℚ} (hb : lastShown h = some b) : b.1 <:+ h := by
  induction h with
  | nil => cases hb
  | cons a h ih =>
    apply List.IsSuffix.trans _ (List.suffix_cons a h)
    cases a with
    | write t =>
      rw [lastShown, Option.or_eq_some_iff] at hb
      rcases hb with hb | ⟨-, hb⟩
      · exact lastBuilt_suffix hb
      · exact ih hb
    | receive | connect | build => exact ih hb

/-- The state that the collector has reported is the one that it is to report. -/
theorem ownStatus_eq (htolerated : ∀ a ∈ h, a.Tolerated p) {h₀ : List Action} {now : ℚ}
    (hshown : lastShown h = some (h₀, now)) :
    ownStatus p timeout h = (run p timeout str h₀).collector.nodeState timeout now "rpi2" := by
  have hheard : Agrees (run p timeout str h₀) (heard p h₀) :=
    heard_agrees h₀ fun a ha ↦ htolerated a ((lastShown_suffix hshown).mem ha)
  rw [ownStatus, hshown, Collector.nodeState, hheard.lastSeen, hheard.reportedStatus]

/-- **When the state of `rpi2` is seen** in a run that no heartbeat of `rpi1` ends. -/
theorem seen_eq_iff_intact (htolerated : ∀ a ∈ h, a.Tolerated p) :
    seen p timeout str h = some (utf8 (ownStatus p timeout h).text) ↔ Intact p timeout str h := by
  rw [seen_eq]
  cases hshown : lastShown h with
  | none =>
    rw [Option.map_none, Option.getD_none, ownStatus, hshown]
    exact iff_of_true seenStatus_statusBuf fun _ _ hsome ↦ by
      rw [hshown] at hsome
      cases hsome
  | some b =>
    obtain ⟨h₀, now⟩ := b
    rw [Option.map_some, Option.getD_some, builtStatus, ownStatus_eq htolerated hshown, seen_iff,
      ← ownStatus_eq htolerated hshown]
    dsimp only
    constructor
    · intro hsurvives h₁ now₁ hsome
      rw [hshown] at hsome
      cases hsome
      exact hsurvives
    · intro hintact
      exact hintact h₀ now hshown

/-- **When a node's payload does not matter** for what is seen of the other node. -/
theorem status_independent_iff (p : Platform) (timeout : ℤ) (str : Value → String)
    {h h' : List Action} (hsame : h.map Action.hide = h'.map Action.hide)
    (htolerated : ∀ a ∈ h, a.Tolerated p) (htolerated' : ∀ a ∈ h', a.Tolerated p) :
    (seen p timeout str h = seen p timeout str h' ∧
        seen p timeout str h = some (utf8 (ownStatus p timeout h).text)) ↔
      Intact p timeout str h ∧ Intact p timeout str h' := by
  have hown : ownStatus p timeout h = ownStatus p timeout h' := by
    rw [← ownStatus_hide, hsame, ownStatus_hide]
  rw [← seen_eq_iff_intact htolerated, ← seen_eq_iff_intact htolerated', ← hown]
  constructor
  · rintro ⟨heq, hseen⟩
    exact ⟨hseen, heq.symm.trans hseen⟩
  · rintro ⟨hseen, hseen'⟩
    exact ⟨hseen.trans hseen'.symm, hseen⟩

theorem tolerated_heartbeat {payload : String}
    (hbenign : Benign p "parking/rpi1/heartbeat" payload) :
    ∀ a ∈ [.write .main, .build .main 0, .receive 0 "parking/rpi1/heartbeat" payload],
      Action.Tolerated p a := by
  simp [Action.Tolerated, hbenign]

/-- A heartbeat of `rpi1` that is reported at once. -/
theorem intact_heartbeat_iff {payload : String}
    (hbenign : Benign p "parking/rpi1/heartbeat" payload) :
    Intact p timeout str
        [.write .main, .build .main 0, .receive 0 "parking/rpi1/heartbeat" payload] ↔
      Survives statusKey (utf8 NodeState.unknown.text) (utf8 payload)
        (statusRoom timeout 0 (Collector.start.heartbeat p 0 "rpi1" payload)) := by
  have hraises : raises p "parking/rpi1/heartbeat" payload = false :=
    eq_false_of_ne_true fun htrue ↦ onMessage_isSome_iff.mp htrue hbenign
  have hcollector : (run p timeout str
      [.receive 0 "parking/rpi1/heartbeat" payload]).collector =
      Collector.start.heartbeat p 0 "rpi1" payload := by
    have hnode : nodeOf "parking/rpi1/heartbeat" = "rpi1" := by decide
    rw [← onMessage_heartbeat (by decide) hnode hraises]
    rfl
  have hpayload := (Collector.start.heartbeat_self p 0 "rpi1" payload).2.2
  have hown : ownStatus p timeout
      [.write .main, .build .main 0, .receive 0 "parking/rpi1/heartbeat" payload] = .unknown := by
    simp [ownStatus, lastShown, lastBuilt, heard, Heard.receive, nodeState]
  have hshown : lastShown
      [.write .main, .build .main 0, .receive 0 "parking/rpi1/heartbeat" payload] =
      some ([.receive 0 "parking/rpi1/heartbeat" payload], 0) := rfl
  constructor
  · intro hintact
    have hsurvives := hintact _ _ hshown
    rw [hown, hcollector, hpayload] at hsurvives
    exact hsurvives
  · intro hsurvives h₀ now hsome
    rw [hshown] at hsome
    cases hsome
    rw [hown, hcollector, hpayload]
    exact hsurvives

/-- A payload that is JSON and one that is not. -/
theorem status_independent_online :
    let p : Platform := { maxDigits := some 4300, maxDepth := 990, cast := fun _ v ↦ v }
    let h : String → List Action := fun payload ↦
      [.write .main, .build .main 0, .receive 0 "parking/rpi1/heartbeat" payload]
    let a := h "\x7b\"status\": \"online\"\x7d"
    let b := h "x"
    seen p 5 (fun _ ↦ "") a = seen p 5 (fun _ ↦ "") b ∧
      seen p 5 (fun _ ↦ "") a = some (utf8 (ownStatus p 5 a).text) := by
  have hobject : Benign { maxDigits := some 4300, maxDepth := 990, cast := fun _ v ↦ v }
      "parking/rpi1/heartbeat" "\x7b\"status\": \"online\"\x7d" :=
    benign_of_object (rfl : bound _ = some []) rfl fun _ hkey ↦ absurd hkey List.not_mem_nil
  have hword : Benign { maxDigits := some 4300, maxDepth := 990, cast := fun _ v ↦ v }
      "parking/rpi1/heartbeat" "x" := fun _ _ ↦ .inl rfl
  intro p h a b
  have hsame : a.map Action.hide = b.map Action.hide := rfl
  refine (status_independent_iff p 5 _ hsame (tolerated_heartbeat hobject)
    (tolerated_heartbeat hword)).mpr ⟨?_, ?_⟩
  · exact (intact_heartbeat_iff hobject).mpr (by decide +kernel)
  · exact (intact_heartbeat_iff hword).mpr (by decide +kernel)

/-- A payload with a line that looks like one of `rpi2`. -/
theorem forged_status :
    let p : Platform := { maxDigits := some 4300, maxDepth := 990, cast := fun _ v ↦ v }
    let h : String → List Action := fun payload ↦
      [.write .main, .build .main 0, .receive 0 "parking/rpi1/heartbeat" payload]
    let a := h "x\nrpi2: online"
    let b := h "x"
    a.map Action.hide = b.map Action.hide ∧
      seen p 5 (fun _ ↦ "") a ≠ seen p 5 (fun _ ↦ "") b := by
  have hforged : Benign { maxDigits := some 4300, maxDepth := 990, cast := fun _ v ↦ v }
      "parking/rpi1/heartbeat" "x\nrpi2: online" := fun _ _ ↦ .inl rfl
  have hword : Benign { maxDigits := some 4300, maxDepth := 990, cast := fun _ v ↦ v }
      "parking/rpi1/heartbeat" "x" := fun _ _ ↦ .inl rfl
  intro p h a b
  have hsame : a.map Action.hide = b.map Action.hide := rfl
  have hown : ownStatus p 5 a = ownStatus p 5 b := by
    rw [← ownStatus_hide, hsame, ownStatus_hide]
  refine ⟨hsame, fun heq ↦ ?_⟩
  have hseen : seen p 5 (fun _ ↦ "") b = some (utf8 (ownStatus p 5 b).text) :=
    (seen_eq_iff_intact (tolerated_heartbeat hword)).mpr
      ((intact_heartbeat_iff hword).mpr (by decide +kernel))
  have hintact := (seen_eq_iff_intact (tolerated_heartbeat hforged)).mp
    ((heq.trans hseen).trans (by rw [hown]))
  exact absurd ((intact_heartbeat_iff hforged).mp hintact) (by decide +kernel)

end ParkingService.Monitor
