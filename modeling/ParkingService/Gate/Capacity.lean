import ParkingService.Text.Buffer

/-!
# Capacity commands

`mqtt_bridge` hands the payload of a message to the gate module as it is, and the module looks for
`FULL` or `AVAILABLE` in it. On the way the payload passes two arrays of 256 bytes: `on_message`
prints it into the first one as a C string, which ends at the first NUL and is cut after 254 bytes,
and `gate_device_write` copies what has been printed into the second one and strips blanks from its
end.

So the module recognises what *begins* a payload, up to a NUL or up to the cut. The array of
`on_message` is terminated at the index that `snprintf` returns, which is the length the text would
have had, not the length it has.
-/

namespace ParkingService

open Text

/-! ## The two ends -/

/-- `DEVICE_BUF_SIZE` -/
def deviceBufSize : ℕ := 256

/-- `sizeof(payload)` in `on_message` -/
def payloadSize : ℕ := 256

/-- What the module is told. -/
inductive Command
  | full
  | available
  deriving DecidableEq, Repr

def Command.text : Command → List UInt8
  | .full => ['F', 'U', 'L', 'L'].map Char.toUInt8
  | .available => ['A', 'V', 'A', 'I', 'L', 'A', 'B', 'L', 'E'].map Char.toUInt8

/-- The argument of `set_capacity_full`. -/
def Command.level : Command → ℤ
  | .full => 1
  | .available => 0

/-- `capacity_full` and the level of `FULL_LED_PIN`. -/
structure Capacity where
  capacityFull : ℤ
  fullLed : ℤ
  deriving DecidableEq

def fullLedSet (on : ℤ) (c : Capacity) : Capacity := { c with fullLed := if on ≠ 0 then 1 else 0 }

def setCapacityFull (full : ℤ) (c : Capacity) : Capacity :=
  fullLedSet (if full ≠ 0 then 1 else 0) { c with capacityFull := full }

def isBlank (x : UInt8) : Bool := x = '\n'.toUInt8 || x = ' '.toUInt8

/-- The loop that strips blanks, with `copyLen` bytes left. -/
def trimBlanks : (copyLen : ℕ) → Buffer → Buffer
  | 0, b => b
  | copyLen + 1, b =>
    if isBlank (b.cell copyLen) then trimBlanks copyLen (b.put copyLen 0) else b

/-- `local_buf` when it is compared with the commands. -/
def localBuf (junk : ℤ → UInt8) (buf : List UInt8) : Buffer :=
  let copyLen := min buf.length (deviceBufSize - 1)
  trimBlanks copyLen (((Buffer.fresh junk).fill 0 (buf.take copyLen)).put copyLen 0)

def commandIn (b : Buffer) : Option Command :=
  if b.equals Command.full.text then some .full
  else if b.equals Command.available.text then some .available
  else none

inductive WriteError
  | efault
  deriving DecidableEq, Repr

/-- `gate_device_write`; `copied` says whether `copy_from_user` succeeds. -/
def gateDeviceWrite (junk : ℤ → UInt8) (buf : List UInt8) (copied : Bool) (c : Capacity) :
    Capacity × Except WriteError ℕ :=
  if copied then
    match commandIn (localBuf junk buf) with
    | some command => (setCapacityFull command.level c, .ok buf.length)
    | none => (c, .ok buf.length)
  else (c, .error .efault)

/-- `payload` when `on_message` has terminated it. The library puts a NUL behind the payload of a
message. -/
def onMessage (junk : ℤ → UInt8) (payload : List UInt8) : Buffer :=
  if payload ≠ [] then
    let printed := (Buffer.fresh junk).snprintf (payloadSize - 1) (cString payload)
    printed.1.put printed.2 0
  else (Buffer.fresh junk).put 0 0

/-- The arguments of `write(device_fd, payload, strlen(payload))`. -/
def forwarded (b : Buffer) : List UInt8 := b.take (b.strlen payloadSize)

/-- What becomes of a message. What is written behind `payload`, where a message does not fit
(`onMessage_within`), has no effect here. -/
def deliver (junk junk' : ℤ → UInt8) (payload : List UInt8) (c : Capacity) : Capacity :=
  (gateDeviceWrite junk' (forwarded (onMessage junk payload)) true c).1

/-! ## What a command is -/

/-- The command, followed by blanks only. -/
def Command.Spells (command : Command) (s : List UInt8) : Prop :=
  ∃ blanks, s = command.text ++ blanks ∧ ∀ x ∈ blanks, isBlank x

/-- What the module gets to see of a payload. -/
def visible (payload : List UInt8) : List UInt8 := (cString payload).take 254

/-- The payload is taken for a command exactly if it is one, and all indices stay within the
arrays. -/
structure ExactlyRecognised (payload : List UInt8) : Prop where
  payloadWithin : ∀ junk, (onMessage junk payload).Within payloadSize
  localWithin : ∀ junk junk',
    (localBuf junk' (forwarded (onMessage junk payload))).Within deviceBufSize
  recognised : ∀ (command : Command) junk junk' c, command.Spells payload →
    deliver junk junk' payload c = setCapacityFull command.level c
  ignored : ∀ junk junk' c, (∀ command : Command, ¬command.Spells payload) →
    deliver junk junk' payload c = c

/-! ## `gate_device_write` -/

theorem Command.zero_notMem_text (command : Command) : 0 ∉ command.text := by
  cases command <;> decide

theorem Command.text_injective {c c' : Command} (h : c.text = c'.text) : c = c' := by
  cases c <;> cases c' <;> first | rfl | exact absurd h (by decide)

/-- A buffer is compared as the C string it holds. -/
theorem commandIn_eq_some {b : Buffer} {s : List UInt8} {command : Command}
    (h : b.Holds (s ++ [0])) : commandIn b = some command ↔ cString s = command.text := by
  have hequals (c : Command) : b.equals c.text = true ↔ cString s = c.text :=
    h.equals c.zero_notMem_text
  unfold commandIn
  split
  · have hfull := (hequals .full).mp ‹_›
    rw [Option.some_inj]
    refine ⟨fun hc ↦ hc ▸ hfull, fun hc ↦ Command.text_injective (hfull.symm.trans hc)⟩
  · split
    · have havailable := (hequals .available).mp ‹_›
      rw [Option.some_inj]
      refine ⟨fun hc ↦ hc ▸ havailable, fun hc ↦ Command.text_injective (havailable.symm.trans hc)⟩
    · refine iff_of_false (by simp) fun hc ↦ ?_
      cases command with
      | full => exact absurd ((hequals .full).mpr hc) ‹_›
      | available => exact absurd ((hequals .available).mpr hc) ‹_›

theorem trimBlanks_holds {b : Buffer} {s : List UInt8} (h : b.Holds (s ++ [0])) :
    (trimBlanks s.length b).Holds (s.rdropWhile isBlank ++ [0]) := by
  induction s using List.reverseRecOn generalizing b with
  | nil => exact h
  | append_singleton s x ih =>
    have hs := h.of_prefix (List.prefix_append _ _)
    have hx : b.cell s.length = x := (Buffer.holds_concat.mp hs).2
    rw [List.length_append, List.length_singleton, trimBlanks, hx]
    split
    · rw [List.rdropWhile_concat_pos _ _ _ ‹_›]
      exact ih (hs.of_prefix (List.prefix_append _ _)).put_length
    · rwa [List.rdropWhile_concat_neg _ _ _ ‹_›]

theorem trimBlanks_within {b : Buffer} {n size : ℕ} (h : b.Within size) (hn : n ≤ size) :
    (trimBlanks n b).Within size := by
  induction n generalizing b with
  | zero => exact h
  | succ n ih =>
    rw [trimBlanks]
    split
    · exact ih (Buffer.within_put h ⟨by omega, by omega⟩) (by omega)
    · exact h

theorem localBuf_holds (junk : ℤ → UInt8) (buf : List UInt8) :
    (localBuf junk buf).Holds ((buf.take (deviceBufSize - 1)).rdropWhile isBlank ++ [0]) := by
  have hcopied : buf.take (min buf.length (deviceBufSize - 1)) = buf.take (deviceBufSize - 1) := by
    rw [Nat.min_comm, List.take_eq_take_min (i := deviceBufSize - 1)]
  have hlength : min buf.length (deviceBufSize - 1) = (buf.take (deviceBufSize - 1)).length := by
    rw [List.length_take, Nat.min_comm]
  rw [localBuf, hcopied, hlength]
  exact trimBlanks_holds (Buffer.holds_fill _ _).put_length

theorem localBuf_within (junk : ℤ → UInt8) (buf : List UInt8) :
    (localBuf junk buf).Within deviceBufSize := by
  have hlength : (buf.take (min buf.length (deviceBufSize - 1))).length ≤ 255 :=
    (List.length_take_le _ _).trans (Nat.min_le_right _ _)
  have hcopyLen : min buf.length (deviceBufSize - 1) ≤ 255 := Nat.min_le_right _ _
  refine trimBlanks_within (Buffer.within_put (Buffer.within_fill Buffer.within_fresh ?_ ?_) ?_) ?_
  all_goals
    unfold deviceBufSize at *
    omega

/-- What has been written is taken for a command if, up to a NUL and without the blanks at its end,
it is one. -/
theorem commandIn_localBuf {junk : ℤ → UInt8} {buf : List UInt8} {command : Command} :
    commandIn (localBuf junk buf) = some command
      ↔ cString ((buf.take (deviceBufSize - 1)).rdropWhile isBlank) = command.text :=
  commandIn_eq_some (localBuf_holds junk buf)

theorem Command.spells_iff {command : Command} {s : List UInt8} :
    command.Spells s ↔ s.rdropWhile isBlank = command.text := by
  constructor
  · rintro ⟨blanks, rfl, hblanks⟩
    induction blanks using List.reverseRecOn with
    | nil =>
      rw [List.append_nil]
      cases command <;> decide
    | append_singleton blanks x ih =>
      rw [← List.append_assoc, List.rdropWhile_concat_pos _ _ _ (hblanks x (by simp))]
      exact ih fun y hy ↦ hblanks y (List.mem_append_left _ hy)
  · intro h
    refine ⟨s.rtakeWhile isBlank, ?_, fun x hx ↦ List.mem_rtakeWhile_imp hx⟩
    rw [← h, List.rdropWhile_append_rtakeWhile]

/-! ## `on_message` -/

theorem zero_notMem_visible (payload : List UInt8) : 0 ∉ visible payload :=
  fun h ↦ zero_notMem_cString payload (List.mem_of_mem_take h)

theorem length_visible (payload : List UInt8) : (visible payload).length ≤ 254 :=
  List.length_take_le _ _

/-- Wherever the terminating NUL goes, the text is not overwritten. -/
theorem onMessage_holds (junk : ℤ → UInt8) (payload : List UInt8) :
    (onMessage junk payload).Holds (visible payload ++ [0]) := by
  unfold onMessage
  split
  · dsimp only
    have hprinted : ((Buffer.fresh junk).snprintf (payloadSize - 1) (cString payload)).1.Holds
        (visible payload ++ [0]) := Buffer.holds_snprintf _ _ _
    have hlength := length_visible payload
    by_cases hfits : (cString payload).length ≤ 254
    · have hvisible : (visible payload).length = (cString payload).length := by
        rw [visible, List.take_of_length_le hfits]
      rw [Buffer.snprintf_returned, if_pos (by omega), ← hvisible]
      exact (hprinted.of_prefix (List.prefix_append _ _)).put_length
    · refine hprinted.put ?_
      rw [Buffer.snprintf_returned, List.length_append, List.length_singleton]
      split <;> omega
  · have hempty : payload = [] := not_not.mp ‹_›
    rw [hempty]
    exact (Buffer.holds_nil (b := .fresh junk)).put_length

/-- The bridge forwards a C string of at most 254 bytes. -/
theorem forwarded_onMessage (junk : ℤ → UInt8) (payload : List UInt8) :
    forwarded (onMessage junk payload) = visible payload := by
  have hholds := onMessage_holds junk payload
  have hlength := length_visible payload
  have hstrlen : (onMessage junk payload).strlen payloadSize = (visible payload).length := by
    rw [hholds.strlen (by unfold payloadSize; omega),
      cString_eq_self.mpr (zero_notMem_visible payload)]
  rw [forwarded, hstrlen]
  exact hholds.of_prefix (List.prefix_append _ _)

theorem onMessage_within (junk : ℤ → UInt8) {payload : List UInt8} :
    (onMessage junk payload).Within payloadSize ↔ (cString payload).length < payloadSize := by
  unfold onMessage
  split
  · dsimp only
    constructor
    · intro h
      have hreturned := h _ List.mem_cons_self
      rw [Buffer.snprintf_returned] at hreturned
      split at hreturned <;> omega
    · intro h
      refine Buffer.within_put (Buffer.within_snprintf Buffer.within_fresh (by decide)) ?_
      unfold payloadSize at h
      rw [Buffer.snprintf_returned, if_pos (by omega)]
      exact ⟨by omega, by unfold payloadSize; omega⟩
  · have hempty : payload = [] := not_not.mp ‹_›
    rw [hempty]
    refine iff_of_true (Buffer.within_put Buffer.within_fresh (by decide)) (by decide)

/-! ## Recognition -/

/-- The module acts on what it gets to see. -/
theorem commandIn_visible {junk : ℤ → UInt8} {payload : List UInt8} {command : Command} :
    commandIn (localBuf junk (visible payload)) = some command
      ↔ command.Spells (visible payload) := by
  have hwhole : (visible payload).take (deviceBufSize - 1) = visible payload :=
    List.take_of_length_le ((length_visible payload).trans (by decide))
  have hstring : cString ((visible payload).rdropWhile isBlank)
      = (visible payload).rdropWhile isBlank := by
    refine cString_eq_self.mpr fun h ↦ zero_notMem_visible payload ?_
    exact (List.rdropWhile_prefix isBlank _).mem h
  rw [commandIn_localBuf, hwhole, hstring, Command.spells_iff]

theorem deliver_of_spells {payload : List UInt8} {command : Command}
    (h : command.Spells (visible payload)) (junk junk' : ℤ → UInt8) (c : Capacity) :
    deliver junk junk' payload c = setCapacityFull command.level c := by
  rw [deliver, forwarded_onMessage, gateDeviceWrite, if_pos rfl, commandIn_visible.mpr h]

theorem deliver_of_not_spells {payload : List UInt8}
    (h : ∀ command : Command, ¬command.Spells (visible payload)) (junk junk' : ℤ → UInt8)
    (c : Capacity) : deliver junk junk' payload c = c := by
  have hnone : commandIn (localBuf junk' (visible payload)) = none := by
    refine Option.eq_none_iff_forall_not_mem.mpr fun command hcommand ↦ h command ?_
    exact commandIn_visible.mp hcommand
  rw [deliver, forwarded_onMessage, gateDeviceWrite, if_pos rfl, hnone]

/-- Nothing is cut off a command that is as short as the two of the module. -/
theorem Command.Spells.visible {payload : List UInt8} {command : Command}
    (h : command.Spells payload) : command.Spells (visible payload) := by
  obtain ⟨blanks, rfl, hblanks⟩ := h
  have hzero : 0 ∉ command.text ++ blanks := by
    intro hmem
    rcases List.mem_append.mp hmem with hmem | hmem
    · exact command.zero_notMem_text hmem
    · exact absurd (hblanks 0 hmem) (by decide)
  have htext : command.text.length ≤ 254 := by cases command <;> decide
  refine ⟨blanks.take (254 - command.text.length), ?_, fun x hx ↦ ?_⟩
  · rw [ParkingService.visible, cString_eq_self.mpr hzero, List.take_append,
      List.take_of_length_le htext]
  · exact hblanks x (List.mem_of_mem_take hx)

/-- A command changes the display of some state. -/
theorem exists_setCapacityFull_ne (level : ℤ) : ∃ c, setCapacityFull level c ≠ c := by
  refine ⟨⟨level + 1, 0⟩, fun h ↦ ?_⟩
  have hlevel : level = level + 1 := congrArg Capacity.capacityFull h
  omega

/-- **When commands are recognised exactly.** The text of the payload, up to its first NUL, is
shorter than the array, and if what the module gets to see of the payload, at most 254 bytes of that
text, is a command followed by blanks, then so is the payload. -/
theorem exactlyRecognised_iff {payload : List UInt8} :
    ExactlyRecognised payload ↔ (cString payload).length < payloadSize
      ∧ ∀ command : Command, command.Spells (visible payload) → command.Spells payload := by
  constructor
  · intro h
    refine ⟨(onMessage_within fun _ ↦ 0).mp (h.payloadWithin _), fun command hvisible ↦ ?_⟩
    have hdeliver := deliver_of_spells hvisible (fun _ ↦ 0) fun _ ↦ 0
    by_cases hother : ∃ c : Command, c.Spells payload
    · obtain ⟨c, hc⟩ := hother
      have hlevel := congrArg Capacity.capacityFull
        ((hdeliver ⟨0, 0⟩).symm.trans (h.recognised c _ _ _ hc))
      cases command <;> cases c <;> first | exact hc | cases hlevel
    · obtain ⟨c, hc⟩ := exists_setCapacityFull_ne command.level
      refine absurd ((hdeliver c).symm.trans (h.ignored _ _ c fun c' hc' ↦ hother ⟨c', hc'⟩)) hc
  · rintro ⟨hlength, hspells⟩
    exact {
      payloadWithin := fun _ ↦ (onMessage_within _).mpr hlength
      localWithin := fun _ _ ↦ localBuf_within _ _
      recognised := fun _ junk junk' c h ↦ deliver_of_spells h.visible junk junk' c
      ignored := fun junk junk' c h ↦
        deliver_of_not_spells (fun command hc ↦ h command (hspells command hc)) junk junk' c }

/-- `FULL`, a NUL and more is taken for `FULL`; and 256 bytes without a NUL overrun the array. -/
theorem not_exactlyRecognised :
    ¬ExactlyRecognised (Command.full.text ++ [0, 'x'.toUInt8])
      ∧ ¬ExactlyRecognised (List.replicate 256 'x'.toUInt8) := by
  refine ⟨fun h ↦ ?_, fun h ↦ ?_⟩
  · have hfull : Command.full.Spells (visible (Command.full.text ++ [0, 'x'.toUInt8])) :=
      ⟨[], by decide, by simp⟩
    have hignored := h.ignored (fun _ ↦ 0) (fun _ ↦ 0) ⟨0, 0⟩ fun command hc ↦ by
      rw [Command.spells_iff] at hc
      revert hc
      cases command <;> decide
    rw [deliver_of_spells hfull] at hignored
    cases hignored
  · have hlength := (onMessage_within _).mp (h.payloadWithin fun _ ↦ 0)
    rw [cString_eq_self.mpr fun h ↦ absurd (List.eq_of_mem_replicate h) (by decide),
      List.length_replicate] at hlength
    exact absurd hlength (by decide)

end ParkingService
