import ParkingService.Monitor.Collector
import ParkingService.Monitor.StatusDevice

/-!
# The report of the collector

`build_kernel_status` reports one line after the other about both nodes, and with each of them the
payload of its last heartbeat, as it came. The payload of `rpi1` stands before the lines of `rpi2`,
and the device keeps 2047 bytes and shows them up to the first NUL. So what is shown of `rpi2`
depends on that payload: it may have a line that looks like one of `rpi2`, a NUL, or more bytes than
the device keeps. `seen_iff` says exactly when the state of `rpi2` is the one that is read.
-/

namespace ParkingService.Monitor

open Json
open Text (Buffer Plain Preamble Survives cString utf8 valueOf)

/-! ## What is reported -/

inductive NodeState
  | unknown
  | online
  | offline
  deriving DecidableEq

def NodeState.text : NodeState → String
  | .unknown => "unknown"
  | .online => "online"
  | .offline => "offline"

/-- `int` of a number that is no integer. -/
def truncate (x : ℚ) : ℤ := x.num.tdiv x.den

def isOffline : Value → Bool
  | .str s => s = Str.of "offline"
  | _ => false

/-- The state of a node by its last heartbeat. -/
def nodeState (timeout : ℤ) (now : ℚ) (lastSeen : Option ℚ) (reportedStatus : Value) : NodeState :=
  match lastSeen with
  | none => .unknown
  | some t =>
    if isOffline reportedStatus then .offline
    else if truncate (now - t) ≤ timeout then .online
    else .offline

/-- How many seconds ago that was. -/
def ageOf (now : ℚ) : Option ℚ → String
  | none => "-"
  | some t => toString (truncate (now - t))

section Report

-- `str` is what Python makes of a value that is put into a text
variable (timeout : ℤ) (str : Value → String) (now : ℚ) (c : Collector)

def Collector.nodeState (node : String) : NodeState :=
  Monitor.nodeState timeout now (c.nodeLastSeen node) (c.nodeReportedStatus node)

def nodeLines (node : String) : List String :=
  [node ++ ": " ++ (c.nodeState timeout now node).text,
   node ++ "_last_seen_sec: " ++ ageOf now (c.nodeLastSeen node),
   node ++ "_last_payload: " ++ c.nodeLastPayload node]

def buildKernelStatus : String :=
  "\n".intercalate <|
    ["RPI3 Node Monitor", "heartbeat_timeout_sec: " ++ toString timeout] ++
    ["rpi1", "rpi2"].flatMap (nodeLines timeout now c) ++
    ["mqtt_handler: " ++ c.lastHandlerStatus.text ++ (c.lastHandlerStatus.value.map str).getD "",
     "mqtt_handler_last_update_sec: " ++ ageOf now c.lastHandlerUpdate]

/-- The whole text is handed to the device in one call. -/
def writeKernelStatus (b : Buffer) (message : String) : Buffer :=
  let buf := utf8 (message ++ "\n")
  (rpi3StatusWrite b ⟨buf, buf.length⟩).1

/-! ## How it is read -/

def statusKey : List UInt8 := utf8 "rpi2: "

/-- What is read as the state of `rpi2`. -/
def seenStatus (b : Buffer) : Option (List UInt8) := valueOf statusKey (rpi3StatusProcShow b)

/-- What comes before the payload of `rpi1`. -/
def statusHead : List UInt8 :=
  utf8 "RPI3 Node Monitor" ++ 10 ::
  (utf8 "heartbeat_timeout_sec: " ++ utf8 (toString timeout) ++ 10 ::
  (utf8 "rpi1: " ++ utf8 (c.nodeState timeout now "rpi1").text ++ 10 ::
  (utf8 "rpi1_last_seen_sec: " ++ utf8 (ageOf now (c.nodeLastSeen "rpi1")) ++ 10 ::
  utf8 "rpi1_last_payload: ")))

/-- The number of bytes that are left for it and for the state of `rpi2`. -/
def statusRoom : ℕ := statusBufSize - 1 - (statusHead timeout now c).length

end Report

variable {timeout : ℤ} {str : Value → String} {now : ℚ} {c : Collector}

theorem rpi3StatusProcShow_writeKernelStatus (b : Buffer) (message : String) :
    rpi3StatusProcShow (writeKernelStatus b message) =
      cString ((utf8 (message ++ "\n")).take (statusBufSize - 1)) := by
  rw [writeKernelStatus, rpi3StatusProcShow_write]
  refine congrArg cString (copied_of_not_faults (Nat.not_lt.mpr ?_))
  exact Nat.min_le_left _ _

theorem NodeState.plain_text (st : NodeState) : Plain (utf8 st.text) := by
  cases st <;> decide

theorem plain_ageOf (now : ℚ) (t : Option ℚ) : Plain (utf8 (ageOf now t)) := by
  cases t with
  | none => exact (by decide : Plain (utf8 "-"))
  | some t => exact Text.plain_toString _

/-- Where the payload of `rpi1` and the state of `rpi2` stand in the text. -/
theorem utf8_buildKernelStatus (timeout : ℤ) (str : Value → String) (now : ℚ) (c : Collector) :
    ∃ rest, utf8 (buildKernelStatus timeout str now c ++ "\n") =
      statusHead timeout now c ++ (utf8 (c.nodeLastPayload "rpi1") ++ 10 ::
        (statusKey ++ utf8 (c.nodeState timeout now "rpi2").text ++ 10 :: rest)) := by
  have hnewline : utf8 "\n" = [10] := by decide
  have htitle : utf8 "RPI3 Node Monitor\n" = utf8 "RPI3 Node Monitor" ++ [10] := by decide
  let tail :=
    ["rpi2_last_seen_sec: " ++ ageOf now (c.nodeLastSeen "rpi2"),
     "rpi2_last_payload: " ++ c.nodeLastPayload "rpi2",
     "mqtt_handler: " ++ c.lastHandlerStatus.text ++ (c.lastHandlerStatus.value.map str).getD "",
     "mqtt_handler_last_update_sec: " ++ ageOf now c.lastHandlerUpdate]
  refine ⟨utf8 ("\n".intercalate tail ++ "\n"), ?_⟩
  simp [buildKernelStatus, nodeLines, String.intercalate_cons_cons, hnewline, htitle, statusHead,
    statusKey, tail]

/-! ## What comes before the payload -/

theorem preamble_cons_value {label value s : List UInt8} (hs : Preamble statusKey s)
    (hvalue : Plain value)
    (hlabel : Plain label ∧ ¬statusKey <+: label ∧ statusKey.length ≤ label.length) :
    Preamble statusKey (label ++ value ++ 10 :: s) :=
  hs.cons (hlabel.1.append hvalue).2 (Text.not_prefix_append hlabel.2.1 hlabel.2.2 value)

theorem preamble_statusHead (timeout : ℤ) (now : ℚ) (c : Collector) :
    Preamble statusKey (statusHead timeout now c) := by
  unfold statusHead
  apply Preamble.cons _ (by decide) (by decide)
  refine preamble_cons_value ?_ (Text.plain_toString timeout) (by decide)
  refine preamble_cons_value ?_ (NodeState.plain_text _) (by decide)
  refine preamble_cons_value ?_ (plain_ageOf now _) (by decide)
  exact Text.preamble_line (by decide) (by decide) (by decide)

theorem zero_notMem_statusHead (timeout : ℤ) (now : ℚ) (c : Collector) :
    0 ∉ statusHead timeout now c := by
  have htimeout : 0 ∉ utf8 timeout.repr := (Text.plain_toString timeout).1
  have hstate := (c.nodeState timeout now "rpi1").plain_text.1
  have hage := (plain_ageOf now (c.nodeLastSeen "rpi1")).1
  have hlabels : 0 ∉ utf8 "RPI3 Node Monitor" ∧ 0 ∉ utf8 "heartbeat_timeout_sec: " ∧
      0 ∉ utf8 "rpi1: " ∧ 0 ∉ utf8 "rpi1_last_seen_sec: " ∧ 0 ∉ utf8 "rpi1_last_payload: " := by
    decide
  simp [statusHead, htimeout, hstate, hage, hlabels]

/-! ## What is seen -/

/-- **When the state of `rpi2` is seen.** -/
theorem seen_iff (timeout : ℤ) (str : Value → String) (now : ℚ) (c : Collector) (b : Buffer) :
    seenStatus (writeKernelStatus b (buildKernelStatus timeout str now c)) =
        some (utf8 (c.nodeState timeout now "rpi2").text) ↔
      Survives statusKey (utf8 (c.nodeState timeout now "rpi2").text)
        (utf8 (c.nodeLastPayload "rpi1")) (statusRoom timeout now c) := by
  obtain ⟨rest, hrest⟩ := utf8_buildKernelStatus timeout str now c
  have hhead := preamble_statusHead timeout now c
  have hzero : 0 ∉ (statusHead timeout now c).take (statusBufSize - 1) := fun hmem ↦
    zero_notMem_statusHead timeout now c (List.mem_of_mem_take hmem)
  rw [seenStatus, rpi3StatusProcShow_writeKernelStatus, hrest, List.take_append,
    Text.cString_append_of_notMem hzero, ← statusRoom]
  rcases Nat.lt_or_ge (statusBufSize - 1) (statusHead timeout now c).length with hlt | hge
  · -- not even what comes before the payload is kept
    have hroom : statusRoom timeout now c = 0 := Nat.sub_eq_zero_of_le hlt.le
    rw [hroom, List.take_zero, cString, List.takeWhile_nil, List.append_nil,
      hhead.silent _ (List.take_prefix _ _)]
    exact iff_of_false (fun h ↦ by cases h) Text.not_survives_zero
  · rw [List.take_of_length_le hge, hhead.valueOf_append]
    exact Text.survives_iff (by decide) (NodeState.plain_text _)

end ParkingService.Monitor
