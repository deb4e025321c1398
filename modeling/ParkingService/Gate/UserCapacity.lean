import ParkingService.Concurrency.Trace
import ParkingService.Gate.Capacity

/-!
# Capacity messages at the two gate nodes

The user-space program takes the messages of `TOPIC_SUB_CAPACITY` itself: `on_message` of
`mqtt_client.c` copies a payload with `strncpy` into an array of NULs, one byte shorter than the
array, and `on_capacity` of `main.c` compares it with the two commands. So no payload overruns the
array, and none is cut where it could matter.

It does not strip blanks, which the module does. A command with blanks behind it is one for the
module and none for the program, and `full_leds_agree_iff` says that over any sequence of messages
nothing else can part the two full LEDs. This is about messages that the bridge's own array holds: a
longer text is written past its end, and what becomes of the module's LED then is not known.
-/

namespace ParkingService.UserNode

open Concurrency Text

/-! ## The program -/

/-- `MAX_PAYLOAD` of `mqtt_client.c` -/
def maxPayload : ℕ := 256

/-- `TOPIC_SUB_CAPACITY` -/
def topicSubCapacity : String := "parking/rpi1/lot"

/-- `payload` when `on_message` has filled it. -/
def clientPayload (payload : List UInt8) : Buffer :=
  let zeros := Buffer.fresh fun _ ↦ 0
  if payload ≠ [] then
    zeros.strncpy payload
      (if payload.length < maxPayload - 1 then payload.length else maxPayload - 1)
  else zeros

/-- What becomes of the full LED. -/
def onCapacity (status : Buffer) (fullLed : ℤ) : ℤ :=
  if status.equals Command.full.text then 1
  else if status.equals Command.available.text then 0
  else fullLed

/-- `on_message` of `mqtt_client.c`, with `on_capacity` as the callback. -/
def onMessage (topic : String) (payload : List UInt8) (fullLed : ℤ) : ℤ :=
  if topic = topicSubCapacity then onCapacity (clientPayload payload) fullLed else fullLed

/-! ## What it recognises -/

theorem onCapacity_eq (status : Buffer) (fullLed : ℤ) :
    onCapacity status fullLed = ((commandIn status).map Command.level).getD fullLed := by
  unfold onCapacity commandIn
  split
  · rfl
  · split <;> rfl

/-- Whatever the payload is, the array is not overrun. -/
theorem clientPayload_within (payload : List UInt8) :
    (clientPayload payload).Within maxPayload := by
  unfold clientPayload
  dsimp only
  split
  · refine Buffer.within_strncpy Buffer.within_fresh ?_
    unfold maxPayload
    split <;> omega
  · exact Buffer.within_fresh

/-- It is terminated, and has lost at most what comes after 255 bytes. -/
theorem clientPayload_holds (payload : List UInt8) :
    (clientPayload payload).Holds ((cString payload).take 255 ++ [0]) := by
  unfold clientPayload
  dsimp only
  split
  · have hle := (cString_isPrefixOf payload).length_le
    have hholds := Buffer.holds_strncpy (b := .fresh fun _ ↦ 0) (s := payload)
      (n := if payload.length < maxPayload - 1 then payload.length else maxPayload - 1) rfl
    split_ifs at hholds ⊢ with hshort
    · unfold maxPayload at hshort
      rwa [List.take_of_length_le hle,
        ← List.take_of_length_le (i := 255) (l := cString payload) (by omega)] at hholds
    · exact hholds
  · have hempty : payload = [] := not_not.mp ‹_›
    rw [hempty]
    exact rfl

/-- The program takes a payload for a command if, up to its first NUL, it is one. -/
theorem commandIn_clientPayload {payload : List UInt8} {command : Command} :
    commandIn (clientPayload payload) = some command ↔ cString payload = command.text := by
  have hzero : 0 ∉ (cString payload).take 255 :=
    fun h ↦ zero_notMem_cString payload (List.mem_of_mem_take h)
  rw [commandIn_eq_some (clientPayload_holds payload), cString_eq_self.mpr hzero]
  have htext : command.text.length < 255 := by cases command <;> decide
  constructor
  · intro h
    have hlength := congrArg List.length h
    rw [List.length_take] at hlength
    rwa [List.take_of_length_le (by omega)] at h
  · intro h
    rw [h, List.take_of_length_le htext.le]

/-! ## Both nodes -/

/-- The module takes this payload for the command, and the program does not. -/
def OnlyModule (command : Command) (payload : List UInt8) : Prop :=
  command.Spells (visible payload) ∧ cString payload ≠ command.text

/-- A message that reaches both nodes, and what the arrays of the module's node held before. -/
structure Arrival where
  payload : List UInt8
  junk : ℤ → UInt8
  junk' : ℤ → UInt8

/-- What the module has made of these messages. -/
def moduleAfter (c : Capacity) (ms : List Arrival) : Capacity :=
  ms.foldl (fun c m ↦ deliver m.junk m.junk' m.payload c) c

/-- What the program has made of these messages. -/
def programAfter (fullLed : ℤ) (ms : List Arrival) : ℤ :=
  ms.foldl (fun led m ↦ onMessage topicSubCapacity m.payload led) fullLed

variable {payload : List UInt8} {command : Command} {m : Arrival} {ms : List Arrival}
  {c : Capacity} {led : ℤ}

theorem fullLed_setCapacityFull (command : Command) (c : Capacity) :
    (setCapacityFull command.level c).fullLed = command.level := by
  cases command <;> rfl

theorem spells_unique {command' : Command} {s : List UInt8} (h : command.Spells s)
    (h' : command'.Spells s) : command = command' :=
  Command.text_injective ((Command.spells_iff.mp h).symm.trans (Command.spells_iff.mp h'))

/-- What the program takes for a command, the module takes for the same. -/
theorem spells_visible (h : cString payload = command.text) : command.Spells (visible payload) := by
  refine ⟨[], ?_, fun x hx ↦ absurd hx List.not_mem_nil⟩
  have htext : command.text.length ≤ 254 := by cases command <;> decide
  rw [visible, h, List.take_of_length_le htext, List.append_nil]

theorem onMessage_of_command (h : cString payload = command.text) (led : ℤ) :
    onMessage topicSubCapacity payload led = command.level := by
  rw [onMessage, if_pos rfl, onCapacity_eq, commandIn_clientPayload.mpr h]
  rfl

theorem onMessage_of_none (h : ∀ command : Command, cString payload ≠ command.text) (led : ℤ) :
    onMessage topicSubCapacity payload led = led := by
  have hnone : commandIn (clientPayload payload) = none := by
    refine Option.eq_none_iff_forall_not_mem.mpr fun command hcommand ↦ h command ?_
    exact commandIn_clientPayload.mp hcommand
  rw [onMessage, if_pos rfl, onCapacity_eq, hnone]
  rfl

/-- One message parts two LEDs that agree just if it is a command for the module only, and not the
one that they show. -/
theorem agree_step (h : c.fullLed = led) :
    (deliver m.junk m.junk' m.payload c).fullLed = onMessage topicSubCapacity m.payload led
      ↔ ∀ command, OnlyModule command m.payload → led = command.level := by
  by_cases hspells : ∃ command : Command, command.Spells (visible m.payload)
  · obtain ⟨command, hcommand⟩ := hspells
    rw [deliver_of_spells hcommand, fullLed_setCapacityFull]
    by_cases htext : cString m.payload = command.text
    · rw [onMessage_of_command htext]
      refine iff_of_true rfl fun command' honly ↦ ?_
      exact absurd (spells_unique hcommand honly.1 ▸ htext) honly.2
    · have hnone : ∀ command' : Command, cString m.payload ≠ command'.text := fun command' h' ↦
        htext (spells_unique hcommand (spells_visible h') ▸ h')
      rw [onMessage_of_none hnone]
      constructor
      · intro heq command' honly
        rw [← spells_unique hcommand honly.1, heq]
      · intro hall
        exact (hall command ⟨hcommand, htext⟩).symm
  · have hnone : ∀ command : Command, cString m.payload ≠ command.text :=
      fun command h ↦ hspells ⟨command, spells_visible h⟩
    rw [deliver_of_not_spells (fun command hc ↦ hspells ⟨command, hc⟩), onMessage_of_none hnone, h]
    exact iff_of_true rfl fun command honly ↦ absurd ⟨command, honly.1⟩ hspells

theorem moduleAfter_append (c : Capacity) (ms : List Arrival) (m : Arrival) :
    moduleAfter c (ms ++ [m]) = deliver m.junk m.junk' m.payload (moduleAfter c ms) :=
  List.foldl_append

theorem programAfter_append (led : ℤ) (ms : List Arrival) (m : Arrival) :
    programAfter led (ms ++ [m]) = onMessage topicSubCapacity m.payload (programAfter led ms) :=
  List.foldl_append

/-- **When the two full LEDs agree.** Over any messages whose text, up to the first NUL, is shorter
than the bridge's array, and whatever the arrays held before: no array is overrun, and the LEDs of
the two nodes, equal at first, are equal after every message just if every message that only the
module takes for a command is the command that both show already. -/
theorem full_leds_agree_iff (c : Capacity) (ms : List Arrival)
    (hfits : ∀ m ∈ ms, (cString m.payload).length < payloadSize) :
    (∀ m ∈ ms, (ParkingService.onMessage m.junk m.payload).Within payloadSize
        ∧ (clientPayload m.payload).Within maxPayload)
      ∧ ((∀ pre, pre <+: ms → (moduleAfter c pre).fullLed = programAfter c.fullLed pre)
        ↔ Always (fun pre m ↦ ∀ command, OnlyModule command m.payload →
            programAfter c.fullLed pre = command.level) ms) := by
  refine ⟨fun m hm ↦ ⟨(onMessage_within _).mpr (hfits m hm), clientPayload_within _⟩, ?_⟩
  clear hfits
  induction ms using List.reverseRecOn with
  | nil =>
    refine iff_of_true (fun pre hpre ↦ ?_) always_nil
    rw [List.prefix_nil.mp hpre]
    rfl
  | append_singleton ms m ih =>
    rw [always_append_singleton, ← ih]
    constructor
    · intro h
      refine ⟨fun pre hpre ↦ h pre (hpre.trans (List.prefix_append _ _)), ?_⟩
      have hbefore := h ms (List.prefix_append _ _)
      have hafter := h (ms ++ [m]) List.prefix_rfl
      rw [moduleAfter_append, programAfter_append] at hafter
      exact (agree_step hbefore).mp hafter
    · rintro ⟨hbefore, hm⟩ pre hpre
      rcases List.prefix_concat_iff.mp hpre with rfl | hpre
      · rw [moduleAfter_append, programAfter_append]
        exact (agree_step (hbefore ms List.prefix_rfl)).mpr hm
      · exact hbefore pre hpre

/-- A command as `rpi3` sends it. -/
def plain (command : Command) : Arrival := ⟨command.text, fun _ ↦ 0, fun _ ↦ 0⟩

/-- A command with a line feed behind it. -/
def padded (command : Command) : Arrival :=
  ⟨command.text ++ ['\n'.toUInt8], fun _ ↦ 0, fun _ ↦ 0⟩

theorem not_onlyModule_plain (command command' : Command) :
    ¬OnlyModule command' (plain command).payload := by
  rintro ⟨hspells, hne⟩
  have htext : cString (plain command).payload = command.text := by cases command <;> decide
  exact hne (spells_unique hspells (spells_visible htext) ▸ htext)

theorem onlyModule_padded {command command' : Command} :
    OnlyModule command' (padded command).payload ↔ command' = command := by
  have hspells : command.Spells (visible (padded command).payload) := by
    refine ⟨['\n'.toUInt8], ?_, List.forall_mem_singleton.mpr rfl⟩
    cases command <;> decide
  constructor
  · rintro ⟨hspells', -⟩
    exact spells_unique hspells' hspells
  · rintro rfl
    exact ⟨hspells, by cases command' <;> decide⟩

theorem fits_of_mem (commands commands' : List Command) {m : Arrival}
    (hm : m ∈ commands.map plain ++ commands'.map padded) :
    (cString m.payload).length < payloadSize := by
  rcases List.mem_append.mp hm with hm | hm
  · obtain ⟨command, -, rfl⟩ := List.mem_map.mp hm
    cases command <;> decide
  · obtain ⟨command, -, rfl⟩ := List.mem_map.mp hm
    cases command <;> decide

/-- `FULL`, and once more with a line feed, which only the module takes for a command: both show it
already. Then `AVAILABLE` with a line feed parts them. -/
theorem full_leds_agree_iff_padded :
    (∀ pre, pre <+: [plain .full, padded .full] →
        (moduleAfter ⟨0, 0⟩ pre).fullLed = programAfter 0 pre)
      ∧ ¬∀ pre, pre <+: [plain .full, padded .full, padded .available] →
        (moduleAfter ⟨0, 0⟩ pre).fullLed = programAfter 0 pre := by
  have htext : cString (plain .full).payload = Command.full.text := by decide
  have hpadded (command : Command) : cString (padded .full).payload ≠ command.text := by
    cases command <;> decide
  have hshown : programAfter 0 [plain .full] = Command.full.level := onMessage_of_command htext 0
  have hstill : programAfter 0 [plain .full, padded .full] = Command.full.level :=
    (onMessage_of_none hpadded _).trans hshown
  constructor
  · refine (full_leds_agree_iff ⟨0, 0⟩ _ fun m hm ↦
      fits_of_mem [.full] [.full] hm).2.mpr ?_
    rintro pre m post hsplit command honly
    rcases pre with _ | ⟨m₁, _ | ⟨m₂, pre⟩⟩
    · obtain ⟨rfl, -⟩ := List.cons.inj hsplit
      exact absurd honly (not_onlyModule_plain _ _)
    · obtain ⟨rfl, hrest⟩ := List.cons.inj hsplit
      obtain ⟨rfl, -⟩ := List.cons.inj hrest
      rw [onlyModule_padded.mp honly]
      exact hshown
    · simp at hsplit
  · intro h
    have hshows := (full_leds_agree_iff ⟨0, 0⟩ _ fun m hm ↦
      fits_of_mem [.full] [.full, .available] hm).2.mp h
      [plain .full, padded .full] (padded .available) [] rfl .available (onlyModule_padded.mpr rfl)
    rw [hstill] at hshows
    cases hshows

end ParkingService.UserNode
