import ParkingService.Slot.Daemon
import ParkingService.Slot.Notification
import ParkingService.Text.Buffer
import ParkingService.Text.Scan

/-!
# The record on its way to the daemon

`parking_read` prints the four values into 128 bytes, and refuses to deliver what it has printed to
a caller who asks for less. The daemon asks for 63 bytes, and reads the values back with `sscanf`;
if the read fails its loop ends.

That neither goes wrong rests on another function: `sensor_work_func` drops every echo that is
longer than 23200 µs, so that no distance has more than three digits.
-/

namespace ParkingService.Slots

open Concurrency Text

/-! ## The record in bytes -/

/-- What `sscanf` is given. `snprintf` has the same format, and a line break at its end. -/
def daemonFormat : String := "Slot1:%d Slot2:%d\nDistance1:%d Distance2:%d"

/-- The values in the order of the format. -/
def ParkingStatus.args (st : ParkingStatus) : List ℤ := [st.s1, st.s2, st.d1, st.d2]

def ParkingStatus.bytes (st : ParkingStatus) : List UInt8 := st.record.toList.map Char.toUInt8

def kbufSize : ℕ := 128

/-- The last part of `parking_read`, where nothing keeps it from copying: what a caller receives who
has asked for `count` bytes. -/
def sendRecord (junk : ℤ → UInt8) (count : ℕ) (st : ParkingStatus) : Option (List UInt8) :=
  let (kbuf, len) := (Buffer.fresh junk).snprintf kbufSize st.bytes
  -- a negative length is a huge `size_t`
  if len < 0 ∨ (count : ℤ) < len then none else some (kbuf.take len.toNat)

/-- `sizeof(buf)` in the daemon. -/
def bufSize : ℕ := 64

/-- `buf` after the read, with the NUL behind what has been received. -/
def daemonBuf (junk : ℤ → UInt8) (received : List UInt8) : Buffer :=
  ((Buffer.fresh junk).fill 0 received).put received.length 0

/-- What `sscanf` stores in `s1`, `s2`, `d1` and `d2`, if it matches all four. -/
def parseRecord (b : Buffer) : Option (ℤ × ℤ × ℤ × ℤ) :=
  match scan (directives daemonFormat.toList) ((cString (b.take bufSize)).map Char.ofUInt8) with
  | [s1, s2, d1, d2] => some (s1, s2, d1, d2)
  | _ => none

variable {st : ParkingStatus} {junk junk' : ℤ → UInt8} {count : ℕ}

theorem record_eq_print (st : ParkingStatus) :
    st.record.toList = print (directives daemonFormat.toList) st.args ++ ['\n'] := by
  simp [ParkingStatus.record, ParkingStatus.args, String.toList_append, daemonFormat, directives,
    print, decimal]

/-- A record is made of ASCII characters other than NUL. -/
theorem record_ascii {c : Char} (h : c ∈ st.record.toList) : 0 < c.toNat ∧ c.toNat < 128 := by
  have hformat : ∀ c, .char c ∈ directives daemonFormat.toList → 0 < c.toNat ∧ c.toNat < 128 := by
    simp [daemonFormat, directives]
  rw [record_eq_print] at h
  rcases List.mem_append.mp h with h | h
  · rcases mem_print h with h | ⟨n, -, h⟩
    · exact hformat c h
    · obtain ⟨hlow, hhigh⟩ := mem_decimal h
      omega
  · rw [List.mem_singleton.mp h]
    decide

/-- Its bytes are its characters. -/
theorem length_bytes (st : ParkingStatus) : st.bytes.length = st.record.length := by
  rw [ParkingStatus.bytes, List.length_map, String.length_toList]

theorem toNat_toUInt8 {c : Char} (h : c.toNat < 256) : c.toUInt8.toNat = c.toNat := by
  change c.val.toNat % 256 = c.val.toNat
  exact Nat.mod_eq_of_lt h

theorem ofUInt8_toUInt8 {c : Char} (h : c.toNat < 256) : Char.ofUInt8 c.toUInt8 = c := by
  refine Char.ext (UInt32.toNat_inj.mp ?_)
  change c.val.toNat % 256 = c.val.toNat
  exact Nat.mod_eq_of_lt h

/-- A record is a C string. -/
theorem cString_bytes (st : ParkingStatus) : cString st.bytes = st.bytes := by
  refine cString_eq_self.mpr fun hmem ↦ ?_
  obtain ⟨c, hc, hzero⟩ := List.mem_map.mp hmem
  obtain ⟨hlow, hhigh⟩ := record_ascii hc
  have hnat := toNat_toUInt8 (c := c) (by omega)
  rw [hzero] at hnat
  exact absurd hnat (Nat.ne_of_lt hlow)

theorem chars_bytes (st : ParkingStatus) : st.bytes.map Char.ofUInt8 = st.record.toList := by
  rw [ParkingStatus.bytes, List.map_map]
  refine (List.map_congr_left fun c hc ↦ ?_).trans (List.map_id _)
  exact ofUInt8_toUInt8 (Nat.lt_trans (record_ascii hc).2 (by decide))

/-! ## What is sent is received -/

theorem sendRecord_eq (h : st.bytes.length < kbufSize) : sendRecord junk count st
    = if count < st.bytes.length then none else some st.bytes := by
  have hstored : st.bytes.take (kbufSize - 1) = st.bytes :=
    List.take_of_length_le (Nat.le_sub_one_of_lt h)
  have hholds := Buffer.holds_snprintf (Buffer.fresh junk) kbufSize st.bytes
  rw [hstored] at hholds
  have hkbuf := hholds.of_prefix (List.prefix_append _ _)
  have hlen : ((Buffer.fresh junk).snprintf kbufSize st.bytes).2 = st.bytes.length := by
    rw [Buffer.snprintf_returned, if_pos]
    exact Nat.le_trans h.le (by decide)
  rw [sendRecord]
  dsimp only
  rw [hlen, Int.toNat_natCast, hkbuf]
  by_cases hcount : count < st.bytes.length
  · rw [if_pos (.inr (Int.ofNat_lt.mpr hcount)), if_pos hcount]
  · rw [if_neg (by omega), if_neg hcount]

theorem length_le_of_sent {received : List UInt8} (h : sendRecord junk count st = some received) :
    st.bytes.length ≤ count := by
  rw [sendRecord] at h
  dsimp only at h
  by_cases hint : st.bytes.length ≤ 0x7FFFFFFF
  · rw [Buffer.snprintf_returned, if_pos hint] at h
    by_contra hcount
    rw [if_pos (.inr (Int.ofNat_lt.mpr (Nat.lt_of_not_le hcount)))] at h
    cases h
  · rw [Buffer.snprintf_returned, if_neg hint, if_pos (.inl (by decide))] at h
    cases h

theorem daemonBuf_holds (junk : ℤ → UInt8) (received : List UInt8) :
    (daemonBuf junk received).Holds (received ++ [0]) :=
  (Buffer.holds_fill _ received).put_length

/-- `sscanf` reads back what `snprintf` has printed. -/
theorem scan_record (hint : ∀ n ∈ st.args, IsInt n) :
    scan (directives daemonFormat.toList) st.record.toList = st.args := by
  have hseparated : Separated (directives daemonFormat.toList) := by
    simp [daemonFormat, directives, Separated]
  rw [record_eq_print]
  exact scan_print hseparated rfl hint (by simp [NoDigit])

/-- So does the daemon, if its buffer holds the record. -/
theorem parseRecord_bytes (hint : ∀ n ∈ st.args, IsInt n) (h : st.bytes.length < bufSize) :
    parseRecord (daemonBuf junk st.bytes) = some (st.s1, st.s2, st.d1, st.d2) := by
  rw [parseRecord, (daemonBuf_holds junk st.bytes).cString_take h, cString_bytes, chars_bytes,
    scan_record hint]
  rfl

/-! ## What a record can say -/

/-- `sensor_work_func` can make this distance out of two 64-bit times. -/
def CanMeasure (cm : ℤ) : Prop :=
  ∃ start stop : BitVec 64, ValidEcho (ktimeToUs (stop - start).toInt)
    ∧ cm = echoCm (ktimeToUs (stop - start).toInt)

/-- The driver can hold this value: the initial one, or one that it has measured. -/
def StatusField.CanHold : StatusField → ℤ → Prop
  | .occupied _, x => x = 0 ∨ ∃ cm, CanMeasure cm ∧ x = occupiedOf cm
  | .distance _, x => x = 999 ∨ CanMeasure x

/-- Every value of this status is one that the driver can hold. -/
def ParkingStatus.Storable (st : ParkingStatus) : Prop := ∀ f : StatusField, f.CanHold (st.get f)

theorem storable_init : ParkingStatus.init.Storable := by
  intro f
  cases f <;> exact .inl rfl

/-- The filter bounds the distance. -/
theorem echoCm_bounds {us : ℤ} (h : ValidEcho us) : 0 ≤ echoCm us ∧ echoCm us ≤ 400 := by
  obtain ⟨hlow, hhigh⟩ := not_or.mp h
  rw [echoCm, Int.tdiv_eq_ediv_of_nonneg (by omega)]
  omega

theorem CanMeasure.bounds {cm : ℤ} (h : CanMeasure cm) : 0 ≤ cm ∧ cm ≤ 400 := by
  obtain ⟨start, stop, hvalid, rfl⟩ := h
  exact echoCm_bounds hvalid

/-- Any difference of times that passes the filter is that of two 64-bit times. -/
theorem canMeasure_of_valid {t : ℤ} (h : ValidEcho (ktimeToUs t)) :
    CanMeasure (echoCm (ktimeToUs t)) := by
  obtain ⟨hlow, hhigh⟩ := not_or.mp h
  have hpos : 0 < t := by
    by_contra ht
    exact hlow (Int.tdiv_le_tdiv (by decide) (Int.not_lt.mp ht))
  have hlt : t < 23201000 := by
    rw [ktimeToUs, Int.tdiv_eq_ediv_of_nonneg hpos.le] at hhigh
    omega
  have ht : (BitVec.ofInt 64 t - 0#64).toInt = t := by
    rw [BitVec.sub_zero, BitVec.toInt_ofInt]
    exact Int.bmod_eq_of_le (by omega) (by omega)
  exact ⟨0#64, BitVec.ofInt 64 t, by rwa [ht], by rw [ht]⟩

/-- An occupancy has one digit and a distance three at most. -/
theorem StatusField.CanHold.bounds {f : StatusField} {x : ℤ} (h : f.CanHold x) :
    0 ≤ x ∧ x < 1000 := by
  cases f with
  | occupied i =>
    obtain rfl | ⟨cm, -, rfl⟩ := h
    · decide
    · unfold occupiedOf
      split <;> decide
  | distance i =>
    obtain rfl | h := h
    · decide
    · obtain ⟨hlow, hhigh⟩ := h.bounds
      omega

theorem ParkingStatus.Storable.bounds (h : st.Storable) : ∀ n ∈ st.args, 0 ≤ n ∧ n < 1000 := by
  intro n hn
  simp only [ParkingStatus.args, List.mem_cons, List.not_mem_nil, or_false] at hn
  obtain rfl | rfl | rfl | rfl := hn
  · exact (h (.occupied 0)).bounds
  · exact (h (.occupied 1)).bounds
  · exact (h (.distance 0)).bounds
  · exact (h (.distance 1)).bounds

/-- The fixed text takes 36 bytes, and each of the four values three at most. -/
theorem length_bytes_le (h : ∀ n ∈ st.args, 0 ≤ n ∧ n < 1000) : st.bytes.length ≤ 48 := by
  have hvalue {n : ℤ} (hn : n ∈ st.args) : (toString n).length ≤ 3 := by
    obtain ⟨hlow, hhigh⟩ := h n hn
    rw [← String.length_toList]
    exact length_decimal_le hlow hhigh
  have h₁ : (toString st.s1).length ≤ 3 := hvalue (by simp [ParkingStatus.args])
  have h₂ : (toString st.s2).length ≤ 3 := hvalue (by simp [ParkingStatus.args])
  have h₃ : (toString st.d1).length ≤ 3 := hvalue (by simp [ParkingStatus.args])
  have h₄ : (toString st.d2).length ≤ 3 := hvalue (by simp [ParkingStatus.args])
  have hfixed : "Slot1:".length + " Slot2:".length + "\nDistance1:".length + " Distance2:".length
      + "\n".length = 36 := by decide
  rw [length_bytes, ParkingStatus.record]
  simp only [String.length_append]
  omega

/-! ## In a run -/

/-- Operations that publish only what has been measured. -/
def SlotOp.PublishesMeasured : SlotOp → Prop
  | .setOccupied i x => StatusField.CanHold (.occupied i) x
  | .setDistance i x => StatusField.CanHold (.distance i) x
  | _ => True

theorem updateStatus_measured (i : Slot) {cm : ℤ} (h : CanMeasure cm) :
    (updateStatus i cm).Uses SlotOp.PublishesMeasured := by
  refine ⟨trivial, fun prevOccupied ↦ ⟨.inr h, fun _ ↦ ⟨.inr ⟨cm, h, rfl⟩, fun _ ↦
    ⟨trivial, fun _ ↦ ?_⟩⟩⟩⟩
  change Prog.Uses _ (ite _ _ _)
  exact Prog.uses_ite (fun _ ↦ ⟨trivial, fun _ ↦ ⟨trivial, fun _ ↦ trivial⟩⟩) fun _ ↦ trivial

theorem work_measured (w : Work) : w.func.Uses SlotOp.PublishesMeasured := by
  cases w with
  | sensor i =>
    refine ⟨trivial, fun (start, stop) ↦ ?_⟩
    change Prog.Uses _ (ite _ _ _)
    refine Prog.uses_ite (fun hvalid ↦ ?_) fun _ ↦ trivial
    refine Prog.uses_bind (updateStatus_measured i (canMeasure_of_valid hvalid)) fun _ ↦ ?_
    refine (lockMachine_uses i _).mono fun o ho ↦ ?_
    cases o <;> trivial
  | lock i =>
    refine (lockWorkFunc_uses i).mono fun o ho ↦ ?_
    cases o <;> trivial

/-- No thread publishes anything else. -/
theorem watched_confines :
    watchedMachine.Confines fun _ ↦ Sum.elim SlotOp.PublishesMeasured fun _ ↦ True := by
  intro t j s p x hentry
  rcases t with t | t <;> rcases j with j | call
  · obtain ⟨⟨q, y⟩, hq, heq⟩ := Option.map_eq_some_iff.mp hentry
    obtain ⟨rfl, rfl⟩ := Prod.mk.inj heq
    refine Prog.uses_inl ?_
    obtain ⟨w, -, -, rfl, -⟩ | ⟨-, -, rfl, -⟩ | ⟨k, -, -, rfl, -⟩ := slotEntry_cases hq
    · exact work_measured w
    · refine measureTimerCb_uses.mono fun o ho ↦ ?_
      cases o <;> trivial
    · refine (btnIsr_uses k).mono fun o ho ↦ ?_
      cases o <;> trivial
  · cases hentry
  · cases hentry
  · obtain ⟨rfl, rfl⟩ := Prod.mk.inj (Option.some.inj hentry)
    exact Prog.uses_inr (Prog.uses_of_forall (fun _ ↦ trivial) _)

/-- An act that publishes only what has been measured. -/
def Act.PublishesMeasured : Act → Prop
  | .setOccupied i x => StatusField.CanHold (.occupied i) x
  | .setDistance i x => StatusField.CanHold (.distance i) x
  | _ => True

variable {c c' : WatchedConfig} {call : ReadCall} {l : WatchedLabel} {a : Act}

theorem act_measured (hc : WatchedReachable c) (hl : l ∈ c.trace) (ha : act? l = some a) :
    a.PublishesMeasured := by
  unfold act? at ha
  split at ha <;> cases ha
  case h_2 => exact Machine.Steps.confined watched_confines hc hl
  case h_3 => exact Machine.Steps.confined watched_confines hc hl
  all_goals trivial

/-- A value of the driver, on the board. -/
def Board.field (b : Board) : StatusField → ℤ
  | .occupied i => b.occupied i
  | .distance i => b.distance i

theorem field_board (s : WatchedSnap) (f : StatusField) : (board s).field f = s.state.field f := by
  cases f <;> rfl

theorem Board.canHold_next {b : Board} (hb : ∀ f : StatusField, f.CanHold (b.field f))
    (ha : a.PublishesMeasured) (f : StatusField) : f.CanHold ((b.next a).field f) := by
  have hold := hb f
  cases a with
  | setOccupied i x =>
    cases f with
    | occupied j =>
      change StatusField.CanHold _ (Function.update b.occupied i x j)
      rw [Function.update_apply]
      split
      · exact ha
      · exact hold
    | distance j => exact hold
  | setDistance i x =>
    cases f with
    | occupied j => exact hold
    | distance j =>
      change StatusField.CanHold _ (Function.update b.distance i x j)
      rw [Function.update_apply]
      split
      · exact ha
      · exact hold
  | _ => cases f <;> exact hold

/-- What the driver holds, and what has been read of it. -/
structure HoldsMeasured (s : WatchedSnap) : Prop where
  held : ∀ f : StatusField, f.CanHold (s.state.field f)
  read : ∀ t f x, .op t (.inr (.readField f)) x ∈ s.trace → f.CanHold x

theorem holdsMeasured (hc : WatchedReachable c) : HoldsMeasured c.toSnap := by
  have hlabels : ∀ l ∈ c.since (Config.init Driver.init).toSnap,
      ∀ a, act? l = some a → a.PublishesMeasured :=
    fun l hl a ha ↦ act_measured hc (List.mem_of_mem_drop hl) ha
  refine hc.invariant_of_labels (I := HoldsMeasured) hlabels ⟨fun f ↦ ?_, fun _ _ _ h ↦ by cases h⟩
    fun {c₁ c₂ l} _ _ hl hlog hact hc₁ ↦ ?_
  · cases f <;> exact .inl rfl
  · rw [hlog]
    refine ⟨fun f ↦ ?_, fun t f x hmem ↦ ?_⟩
    · rw [← field_board]
      cases ha : act? l with
      | none =>
        rw [board_of_none hl ha, field_board]
        exact hc₁.held f
      | some a =>
        rw [board_of_some hl ha]
        refine Board.canHold_next (fun f ↦ ?_) (hact a ha) f
        rw [field_board]
        exact hc₁.held f
    · rcases List.mem_append.mp hmem with hmem | hmem
      · exact hc₁.read t f x hmem
      · cases List.mem_singleton.mp hmem
        obtain ⟨rfl, -⟩ := exec_read.mp hl
        exact hc₁.held f

theorem ParkingStatus.Storable.set {f : StatusField} {x : ℤ} (h : st.Storable) (hx : f.CanHold x) :
    (st.set x f).Storable := by
  intro f'
  by_cases hf : f' = f
  · rw [hf, ParkingStatus.get_set_self]
    exact hx
  · rw [ParkingStatus.get_set_of_ne st x hf]
    exact h f'

theorem ParkingStatus.Storable.foldl {xs : List ReadAnswer} (h : st.Storable)
    (hxs : ∀ f x, ⟨.readField f, x⟩ ∈ xs → f.CanHold x) : (xs.foldl noteField st).Storable := by
  induction xs generalizing st with
  | nil => exact h
  | cons y xs ih =>
    refine ih ?_ fun f x hmem ↦ hxs f x (List.mem_cons_of_mem _ hmem)
    obtain ⟨o, r⟩ := y
    cases o with
    | readField f => exact h.set (hxs f r List.mem_cons_self)
    | _ => exact h

/-- So is every status that a call has read. -/
theorem storable_fieldsRead (hc : WatchedReachable c) (h : ReadFrom c call c') :
    (fieldsRead (callAnswers c call c')).Storable := by
  have hc' : WatchedReachable c' := (hc.tail h.begins).trans h.steps
  refine storable_init.foldl fun f x hmem ↦ ?_
  exact (holdsMeasured hc').read _ f x (List.mem_of_mem_drop (mem_readAnswers.mp hmem))

/-! ## Nothing is lost -/

/-- The record fits `kbuf` with its NUL, a caller who asks as the daemon does receives all of it,
and the daemon reads the status back. -/
structure Lossless (junk junk' : ℤ → UInt8) (st : ParkingStatus) : Prop where
  fits : st.bytes.length < kbufSize
  sent : sendRecord junk (bufSize - 1) st = some st.bytes
  parsed : parseRecord (daemonBuf junk' st.bytes) = some (st.s1, st.s2, st.d1, st.d2)

theorem isInt_of_bounds {n : ℤ} (h : 0 ≤ n ∧ n < 1000) : IsInt n := by
  unfold IsInt
  omega

theorem ParkingStatus.Storable.lossless (h : st.Storable) : Lossless junk junk' st := by
  have hlength := length_bytes_le h.bounds
  have hfits : st.bytes.length < kbufSize := Nat.lt_of_le_of_lt hlength (by decide)
  refine ⟨hfits, ?_, ?_⟩
  · rw [sendRecord_eq hfits, if_neg (Nat.not_lt.mpr (Nat.le_trans hlength (by decide)))]
  · refine parseRecord_bytes (fun n hn ↦ isInt_of_bounds (h.bounds n hn)) ?_
    exact Nat.lt_of_le_of_lt hlength (by decide)

/-- Whatever is sent is read back. -/
theorem parse_of_sent {received : List UInt8} (hint : ∀ n ∈ st.args, IsInt n)
    (h : sendRecord junk (bufSize - 1) st = some received) :
    parseRecord (daemonBuf junk' received) = some (st.s1, st.s2, st.d1, st.d2) := by
  have hlength : st.bytes.length ≤ bufSize - 1 := length_le_of_sent h
  rw [sendRecord_eq (Nat.lt_of_le_of_lt hlength (by decide)), if_neg (Nat.not_lt.mpr hlength)] at h
  obtain rfl := Option.some.inj h
  exact parseRecord_bytes hint (Nat.lt_of_le_of_lt hlength (by decide))

/-- **The record is lossless.** A call of the daemon never fails for its buffer, and what it
delivers the daemon reads back; so it does with any status the driver can hold, and with any four
`int`s whose record fits. `sscanf` itself reads the record of any four back. -/
theorem record_lossless (junk junk' : ℤ → UInt8) :
    (∀ c call c', WatchedReachable c → ReadFrom c call c' → call.count = bufSize - 1 →
      ⟨.leave .einval, ()⟩ ∉ callAnswers c call c'
        ∧ ∀ st, ⟨.leave (.len st), ()⟩ ∈ callAnswers c call c' → Lossless junk junk' st)
    ∧ (∀ st : ParkingStatus, st.Storable → Lossless junk junk' st)
    ∧ ∀ st : ParkingStatus, (∀ n ∈ st.args, IsInt n) →
      scan (directives daemonFormat.toList) st.record.toList = st.args
        ∧ ∀ received, sendRecord junk (bufSize - 1) st = some received →
          parseRecord (daemonBuf junk' received) = some (st.s1, st.s2, st.d1, st.d2) := by
  refine ⟨fun c call c' hc h hcount ↦ ?_, fun st h ↦ h.lossless, fun st hint ↦
    ⟨scan_record hint, fun received ↦ parse_of_sent hint⟩⟩
  have hstorable : (fieldsRead (callAnswers c call c')).Storable := storable_fieldsRead hc h
  constructor
  · intro heinval
    have hsmall := h.course.tooSmall_of_einval heinval
    have hlength := length_bytes_le hstorable.bounds
    rw [TooSmall, hcount, ← length_bytes] at hsmall
    exact absurd (Nat.lt_of_lt_of_le hsmall hlength) (by decide)
  · intro st hlen
    rw [h.course.eq_of_len hlen]
    exact hstorable.lossless

/-- A vehicle comes, and the daemon reads. -/
theorem exists_record : ∃ c call c' st, WatchedReachable c ∧ ReadFrom c call c'
    ∧ call.count = bufSize - 1 ∧ (c.state.sensor 0).occupied = 1
    ∧ ⟨.leave (.len st), ()⟩ ∈ callAnswers c call c' := by
  obtain ⟨c, hc, -, hchanged, hoccupied⟩ := exists_announced
  have hinl : WatchedReachable c.inl := watched_of_slot hc
  let order : List StatusField := [.occupied 0, .occupied 1, .distance 0, .distance 1]
  let st : ParkingStatus := order.foldl (fun st f ↦ st.set (c.state.field f) f) .init
  let call : ReadCall := ⟨false, bufSize - 1, order, .refl _⟩
  have hfits : st.record.length ≤ bufSize - 1 := by
    have hheld : ∀ f : StatusField, f.CanHold (c.state.field f) := (holdsMeasured hinl).held
    have hst : st.Storable := (((storable_init.set (hheld (.occupied 0))).set
      (hheld (.occupied 1))).set (hheld (.distance 0))).set (hheld (.distance 1))
    rw [← length_bytes]
    exact (length_bytes_le hst.bounds).trans (by decide)
  have hmay : watchedMachine.May (.inr ()) (readJob call).inr
      (fun _ s ↦ s.state.statusChanged = false ∧ readOutline.known s)
      (begun c.inl call).toSnap := by
    unfold readJob
    refine .bind_inr (.bind_inr (readPerform_may (o := .waitChanged) false (.inr hchanged) ?_))
    refine .bind_inr (readPerform_may (o := .clearChanged) () trivial ?_)
    refine .bind_inr (readFields_may order .init
      (known_log (known_log (known_log (known_inl c) id) id) id) fun s hstate hs ↦ ?_)
    split
    · exact absurd ‹_› (Nat.not_lt.mpr hfits)
    · refine .bind_inr (readPerform_may (o := .copyToUser _) false trivial ?_)
      refine .ret (readPerform_may (o := .leave _) () trivial ⟨?_, ?_⟩)
      · exact congrArg Driver.statusChanged hstate
      · exact known_log (known_log hs id) id
  obtain ⟨c', hread, hflag, hknown⟩ := exists_readFrom call rfl hmay
  have hclears : Clears (callAnswers c.inl call c') := by
    by_contra hclear
    have hup := (changed_of_answers (hinl.tail hread.begins) hread.steps hchanged hclear).1
    rw [hflag] at hup
    cases hup
  have hfails {r : ReadResult} (hr : Fails (.op (.inr ()) (.inr (.leave r)) ())) :
      ⟨.leave r, ()⟩ ∉ callAnswers c.inl call c' := fun hmem ↦
    hknown _ (List.mem_of_mem_drop (mem_readAnswers.mp hmem)) hr
  have hcourse := hread.course
  generalize hxs : callAnswers c.inl call c' = xs at hcourse hclears hfails
  cases hcourse with
  | again | interrupted => simp [Clears] at hclears
  | @cleared look ys zs hlook hys hzs =>
    cases hzs with
    | tooSmall => exact absurd (by simp) (hfails (r := .einval) trivial)
    | faulted => exact absurd (by simp) (hfails (r := .efault) trivial)
    | delivered => exact ⟨_, _, _, fieldsRead ys, hinl, hread, rfl, hoccupied, by rw [hxs]; simp⟩

/-- A vehicle is at the first slot, and the daemon reads the record of what has been measured. -/
theorem record_lossless_measured : ∃ c call c' st, WatchedReachable c ∧ ReadFrom c call c'
    ∧ (c.state.sensor 0).occupied = 1 ∧ ⟨.leave (.len st), ()⟩ ∈ callAnswers c call c'
    ∧ Lossless (fun _ ↦ 0) (fun _ ↦ 0) st := by
  obtain ⟨c, call, c', st, hc, hread, hcount, hoccupied, hst⟩ := exists_record
  exact ⟨c, call, c', st, hc, hread, hoccupied, hst,
    ((record_lossless _ _).1 c call c' hc hread hcount).2 st hst⟩

end ParkingService.Slots
