import ParkingService.Text.Lines

/-!
# The status device

`rpi3_status.c` keeps the text of `/proc/rpi3_status` in one array. A write erases the array before
it copies from the user into it, so a copy that fails has already replaced the text by what came
before the fault. `gate_device_write` of the gate copies into an array of its own and uses that only
if the copy has succeeded.

Whatever has been written before, the array holds the bytes that the last write has copied, and then
NULs (`contents_deviceAfter`). So a read is never out of bounds, and it shows the last successful
write exactly as long as every fault leaves what was there (`showsLastWrite_iff`). Both functions
hold a lock, and a history is the order in which they took it.
-/

namespace ParkingService.Monitor

open Text (Buffer cString utf8)

def statusBufSize : ℕ := 2048

/-- What `status_buf` is initialised with. -/
def initialStatus : List UInt8 :=
  utf8 ("RPI3 Node Monitor\n" ++
    "rpi1: unknown\n" ++
    "rpi1_last_seen_sec: -\n" ++
    "rpi2: unknown\n" ++
    "rpi2_last_seen_sec: -\n")

/-- `status_buf` of a module that has just been loaded. -/
def statusBuf : Buffer := (Buffer.fresh fun _ ↦ 0).fill 0 initialStatus

/-- A write of these bytes, of which so many can be read. -/
structure WriteCall where
  buf : List UInt8
  readable : ℕ

inductive StatusError
  | efault
  deriving DecidableEq

/-- `copy_from_user` to the beginning of an array, and how many bytes it could not copy. In their
place it writes zeros. -/
def copyFromUser (dst : Buffer) (call : WriteCall) (n : ℕ) : Buffer × ℕ :=
  (dst.fill 0 (call.buf.take (min n call.readable) ++ List.replicate (n - call.readable) 0),
    n - call.readable)

def rpi3StatusWrite (b : Buffer) (call : WriteCall) : Buffer × Except StatusError ℕ :=
  let len := min call.buf.length (statusBufSize - 1)
  let b := b.fill 0 (List.replicate statusBufSize 0)
  let (b, left) := copyFromUser b call len
  if left ≠ 0 then (b, .error .efault)
  else (b.put len 0, .ok call.buf.length)

/-- What `seq_printf` prints. -/
def rpi3StatusProcShow (b : Buffer) : List UInt8 := cString (b.take statusBufSize)

/-- A call of the module. -/
inductive StatusCall
  | write (call : WriteCall)
  | read

/-- The array after some calls, of which the last one comes first. -/
def deviceAfter : List StatusCall → Buffer
  | [] => statusBuf
  | .write call :: h => (rpi3StatusWrite (deviceAfter h) call).1
  | .read :: h => deviceAfter h

/-! ## What is to be shown -/

namespace WriteCall

variable (call : WriteCall)

/-- How much of the call is stored. -/
def len : ℕ := min call.buf.length (statusBufSize - 1)

def Faults : Prop := call.readable < call.len

instance : Decidable call.Faults := inferInstanceAs (Decidable (_ < _))

/-- The bytes that come before a fault, if there is one. -/
def copied : List UInt8 := call.buf.take (min call.len call.readable)

end WriteCall

/-- The beginning of the array, up to which there are NULs. -/
def pad (s : List UInt8) : List UInt8 := s ++ List.replicate (statusBufSize - s.length) 0

/-- What the last successful write has stored. -/
def lastWritten : List StatusCall → List UInt8
  | [] => initialStatus
  | .write call :: h =>
    if call.Faults then lastWritten h else call.buf.take (statusBufSize - 1)
  | .read :: h => lastWritten h

/-- What the last write has copied. -/
def lastCopied : List StatusCall → List UInt8
  | [] => initialStatus
  | .write call :: _ => call.copied
  | .read :: h => lastCopied h

/-- Every read shows the last successful write, and a write that fails changes nothing. -/
structure ShowsLastWrite (h : List StatusCall) : Prop where
  reads : ∀ h', .read :: h' <:+ h → rpi3StatusProcShow (deviceAfter h') = cString (lastWritten h')
  faults : ∀ call h', .write call :: h' <:+ h →
    (rpi3StatusWrite (deviceAfter h') call).2 = .error .efault →
    (deviceAfter (.write call :: h')).take statusBufSize = (deviceAfter h').take statusBufSize

/-! ## One write -/

theorem rpi3StatusWrite_eq_efault (b : Buffer) (call : WriteCall) :
    (rpi3StatusWrite b call).2 = .error .efault ↔ call.Faults := by
  unfold rpi3StatusWrite copyFromUser WriteCall.Faults WriteCall.len
  dsimp only
  split
  · exact iff_of_true rfl (by omega)
  · exact iff_of_false (fun h ↦ by cases h) (by omega)

theorem length_copied (call : WriteCall) : call.copied.length = min call.len call.readable := by
  rw [WriteCall.copied, List.length_take, WriteCall.len]
  omega

theorem length_copied_lt (call : WriteCall) : call.copied.length < statusBufSize := by
  rw [length_copied, WriteCall.len, statusBufSize]
  omega

theorem length_pad {s : List UInt8} (hs : s.length ≤ statusBufSize) :
    (pad s).length = statusBufSize := by
  rw [pad, List.length_append, List.length_replicate]
  omega

/-- An array of NULs, after something has been copied into it. -/
theorem holds_pad {b : Buffer} {s : List UInt8} {m : ℕ}
    (h : b.Holds (List.replicate statusBufSize 0)) (hs : s.length + m ≤ statusBufSize) :
    (b.fill 0 (s ++ List.replicate m 0)).Holds (pad s) := by
  have hzeros : List.replicate statusBufSize (0 : UInt8) =
      List.replicate (s.length + m) 0 ++ List.replicate (statusBufSize - (s.length + m)) 0 := by
    rw [← List.replicate_add, Nat.add_sub_cancel' hs]
  have hpad : pad s =
      s ++ List.replicate m 0 ++ List.replicate (statusBufSize - (s.length + m)) 0 := by
    have hm : statusBufSize - s.length = m + (statusBufSize - (s.length + m)) := by omega
    rw [pad, hm, List.replicate_add, List.append_assoc]
  rw [hpad]
  exact Buffer.Holds.overwrite (hzeros ▸ h) (by simp)

/-- **What a write leaves**, whatever was there before. -/
theorem holds_rpi3StatusWrite (b : Buffer) (call : WriteCall) :
    (rpi3StatusWrite b call).1.Holds (pad call.copied) := by
  have hlength := length_copied call
  have hlt := length_copied_lt call
  have hlen : call.len < statusBufSize := by
    rw [WriteCall.len, statusBufSize]
    omega
  have hcopied : (copyFromUser (b.fill 0 (List.replicate statusBufSize 0)) call call.len).1.Holds
      (pad call.copied) :=
    holds_pad (s := call.copied) (Buffer.holds_fill b _) (by omega)
  unfold rpi3StatusWrite
  dsimp only
  split
  · exact hcopied
  · rename_i hleft
    -- the terminator is there already
    have hall : call.copied.length = call.len := by
      have : call.len - call.readable = 0 := not_not.mp hleft
      omega
    apply hcopied.put_cell
    obtain ⟨n, hn⟩ : ∃ n, statusBufSize - call.copied.length = n + 1 :=
      ⟨statusBufSize - call.copied.length - 1, by omega⟩
    rw [pad, hn, List.replicate_succ] at hcopied
    have hcell := hcopied.cell
    rw [hall] at hcell
    exact hcell

/-! ## Histories -/

theorem length_initialStatus_lt : initialStatus.length < statusBufSize := by decide

theorem length_lastCopied_lt (h : List StatusCall) : (lastCopied h).length < statusBufSize := by
  induction h with
  | nil => exact length_initialStatus_lt
  | cons c h ih =>
    cases c with
    | write call => exact length_copied_lt call
    | read => exact ih

theorem holds_deviceAfter (h : List StatusCall) : (deviceAfter h).Holds (pad (lastCopied h)) := by
  induction h with
  | nil =>
    have hpad := holds_pad (s := initialStatus) (m := 0) (Buffer.holds_fresh 0 statusBufSize)
      length_initialStatus_lt.le
    rwa [List.replicate_zero, List.append_nil] at hpad
  | cons c h ih =>
    cases c with
    | write call => exact holds_rpi3StatusWrite _ call
    | read => exact ih

/-- **What the array holds**: the bytes that have been copied last, and NULs. -/
theorem contents_deviceAfter (h : List StatusCall) :
    (deviceAfter h).take statusBufSize = pad (lastCopied h) := by
  have hholds := holds_deviceAfter h
  rwa [Buffer.Holds, length_pad (length_lastCopied_lt h).le] at hholds

theorem pad_eq_append_zero {s : List UInt8} (hs : s.length < statusBufSize) :
    pad s = s ++ 0 :: List.replicate (statusBufSize - s.length - 1) 0 := by
  obtain ⟨n, hn⟩ : ∃ n, statusBufSize - s.length = n + 1 :=
    ⟨statusBufSize - s.length - 1, by omega⟩
  rw [pad, hn, List.replicate_succ, Nat.add_sub_cancel]

theorem cString_pad {s : List UInt8} (hs : s.length < statusBufSize) :
    cString (pad s) = cString s := by
  rw [pad_eq_append_zero hs, Text.cString_append_zero]

/-- What is shown after a write, whatever was there before. -/
theorem rpi3StatusProcShow_write (b : Buffer) (call : WriteCall) :
    rpi3StatusProcShow (rpi3StatusWrite b call).1 = cString call.copied := by
  have hholds := holds_rpi3StatusWrite b call
  rw [Buffer.Holds, length_pad (length_copied_lt call).le] at hholds
  rw [rpi3StatusProcShow, hholds, cString_pad (length_copied_lt call)]

theorem rpi3StatusProcShow_deviceAfter (h : List StatusCall) :
    rpi3StatusProcShow (deviceAfter h) = cString (lastCopied h) := by
  rw [rpi3StatusProcShow, contents_deviceAfter, cString_pad (length_lastCopied_lt h)]

/-! ## Which histories are shown as specified -/

theorem length_lastWritten_lt (h : List StatusCall) : (lastWritten h).length < statusBufSize := by
  induction h with
  | nil => exact length_initialStatus_lt
  | cons c h ih =>
    cases c with
    | write call =>
      rw [lastWritten]
      split
      · exact ih
      · exact (List.length_take_le _ _).trans_lt (by decide)
    | read => exact ih

theorem copied_of_not_faults {call : WriteCall} (h : ¬call.Faults) :
    call.copied = call.buf.take (statusBufSize - 1) := by
  rw [WriteCall.copied, Nat.min_eq_left (Nat.le_of_not_lt h), WriteCall.len, ← List.take_take]
  exact List.take_of_length_le (List.length_take_le' _ _)

/-- Every write that fails has copied no more than what was stored already. -/
def FaultsSpare (h : List StatusCall) : Prop :=
  ∀ call h', .write call :: h' <:+ h → call.Faults → pad call.copied = pad (lastWritten h')

theorem FaultsSpare.of_suffix {h h' : List StatusCall} (hspare : FaultsSpare h) (hs : h' <:+ h) :
    FaultsSpare h' := fun call h'' hsuffix ↦
  hspare call h'' (hsuffix.trans hs)

theorem ShowsLastWrite.of_suffix {h h' : List StatusCall} (hshows : ShowsLastWrite h)
    (hs : h' <:+ h) : ShowsLastWrite h' where
  reads h'' hsuffix := hshows.reads h'' (hsuffix.trans hs)
  faults call h'' hsuffix := hshows.faults call h'' (hsuffix.trans hs)

/-- As long as faults spare the text, the array holds what has been written last. -/
theorem FaultsSpare.pad_lastCopied {h : List StatusCall} (hspare : FaultsSpare h) :
    pad (lastCopied h) = pad (lastWritten h) := by
  induction h with
  | nil => rfl
  | cons c h ih =>
    cases c with
    | write call =>
      rw [lastCopied, lastWritten]
      split
      · rename_i hfaults
        exact hspare call h (List.suffix_refl _) hfaults
      · rename_i hfaults
        rw [copied_of_not_faults hfaults]
    | read => exact ih (hspare.of_suffix (List.suffix_cons _ h))

/-- **When the device shows the last successful write.** -/
theorem showsLastWrite_iff (h : List StatusCall) : ShowsLastWrite h ↔ FaultsSpare h := by
  constructor
  · intro hshows
    induction h with
    | nil => exact fun call h' hsuffix ↦ absurd (List.suffix_nil.mp hsuffix) (List.cons_ne_nil _ _)
    | cons c h ih =>
      have hspare : FaultsSpare h := ih (hshows.of_suffix (List.suffix_cons c h))
      intro call h' hsuffix hfaults
      rcases List.suffix_cons_iff.mp hsuffix with heq | hsuffix
      · cases heq
        -- the fault leaves the array, which held the last successful write
        have hsame := hshows.faults call h (List.suffix_refl _)
          ((rpi3StatusWrite_eq_efault _ call).mpr hfaults)
        rw [contents_deviceAfter, contents_deviceAfter, hspare.pad_lastCopied] at hsame
        exact hsame
      · exact hspare call h' hsuffix hfaults
  · intro hspare
    refine ⟨fun h' hsuffix ↦ ?_, fun call h' hsuffix hefault ↦ ?_⟩
    · have hpad := (hspare.of_suffix ((List.suffix_cons _ h').trans hsuffix)).pad_lastCopied
      rw [rpi3StatusProcShow_deviceAfter, ← cString_pad (length_lastCopied_lt h'), hpad,
        cString_pad (length_lastWritten_lt h')]
    · have hpad := (hspare.of_suffix ((List.suffix_cons _ h').trans hsuffix)).pad_lastCopied
      rw [contents_deviceAfter, contents_deviceAfter, hpad]
      exact hspare call h' hsuffix ((rpi3StatusWrite_eq_efault _ call).mp hefault)

/-- A write from an address that cannot be read erases the text. -/
theorem fault_erases_status : ¬ShowsLastWrite [.read, .write ⟨[88], 0⟩] := by
  intro h
  have hread := h.reads _ (List.suffix_refl _)
  rw [rpi3StatusProcShow_deviceAfter] at hread
  exact absurd hread (by decide)

end ParkingService.Monitor
