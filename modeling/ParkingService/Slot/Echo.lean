import ParkingService.Slot.Alone

/-!
# The measurement protocol

A measurement goes round: the timer requests it, an interrupt that sees the echo pin up records the
start, one that sees it down records the stop and queues the work item, and the work item takes both
and makes room for the next request. `Requested`, `Rising` and `Fallen` say of a trace how far the
current round has got; `EchoSound` ties this to `state`, the two time stamps and the work queue.

No step has to know what the other threads are doing, with one exception: a work item that is past
its start and not past its critical section counts as pending, so the worker keeps track of it.
-/

namespace ParkingService.Slots

open Concurrency

/-! ## Rounds -/

/-- The timer requests a measurement of slot `i`. -/
def IsRequest (i : Slot) : SlotLabel → Prop
  | .op _ (.request j) r => j = i ∧ r = true
  | _ => False

/-- The work item takes the time stamps of slot `i`. -/
def IsTake (i : Slot) : SlotLabel → Prop
  | .op _ (.takeEcho j) _ => j = i
  | _ => False

/-- An echo interrupt of slot `i` sees this level. -/
def IsEdge (i : Slot) (level : ℤ) : SlotLabel → Prop
  | .ext (.echoIsr j _ pinVal) => j = i ∧ pinVal = level
  | _ => False

/-- A measurement has been requested, and the echo pin has not been seen up since. -/
def Requested (i : Slot) : List SlotLabel → Prop :=
  Since (fun _ l ↦ IsRequest i l) fun l ↦ ¬IsRequest i l ∧ ¬IsTake i l ∧ ¬IsEdge i 1 l

/-- After a request the echo pin has been seen up, first at `start`, and it has not been seen down
since. -/
def Rising (i : Slot) (start : ℤ) : List SlotLabel → Prop :=
  Since (fun pre l ↦ l = .ext (.echoIsr i start 1) ∧ Requested i pre)
    fun l ↦ ¬IsRequest i l ∧ ¬IsTake i l ∧ ¬IsEdge i 0 l

/-- After a request the echo pin has been seen up, first at `start`, and then down, first at `stop`,
and neither has another measurement been requested since nor has this one been taken. -/
def Fallen (i : Slot) (start stop : ℤ) : List SlotLabel → Prop :=
  Since (fun pre l ↦ l = .ext (.echoIsr i stop 0) ∧ Rising i start pre)
    fun l ↦ ¬IsRequest i l ∧ ¬IsTake i l

theorem IsRequest.not_isTake {i : Slot} {l : SlotLabel} (h : IsRequest i l) : ¬IsTake i l := by
  cases l with
  | op t o r => cases o <;> first | exact id | exact h.elim
  | _ => exact h.elim

theorem IsTake.exists_eq {i : Slot} {l : SlotLabel} (h : IsTake i l) :
    ∃ t start stop, l = .op t (.takeEcho i) (start, stop) := by
  cases l with
  | op t o r =>
    cases o with
    | takeEcho j =>
      obtain rfl : j = i := h
      exact ⟨t, r.1, r.2, rfl⟩
    | _ => exact h.elim
  | _ => exact h.elim

/-- While an echo is awaited, nothing is ready to be taken. -/
theorem Fallen.not_requested {i : Slot} {start stop : ℤ} {tr : List SlotLabel}
    (h : Fallen i start stop tr) : ¬Requested i tr := by
  intro hreq
  obtain ⟨pre, l, post, rfl, ⟨rfl, hrising⟩, hpost⟩ := h
  obtain ⟨pre', l', post', rfl, ⟨rfl, -⟩, hpost'⟩ := hrising
  -- the request is older than both edges, but no rising edge has been seen since
  have hfall := (hreq.of_append ?_).1
  · have hrise := (hfall.of_append ?_).2
    · exact (hrise (.ext (.echoIsr i start 1)) (by simp)).2.2 ⟨rfl, rfl⟩
    · rintro late l rest heq
      have hmem : l ∈ Label.ext (SlotEvent.echoIsr i start 1) :: post' := by simp [heq]
      rcases List.mem_cons.mp hmem with rfl | hl
      · exact id
      · exact (hpost' l hl).1
  · rintro late l rest heq
    have hmem : l ∈ Label.ext (SlotEvent.echoIsr i stop 0) :: post := by simp [heq]
    rcases List.mem_cons.mp hmem with rfl | hl
    · exact id
    · exact (hpost l hl).1

/-- While an echo is under way, nothing is ready to be taken. -/
theorem Fallen.not_rising {i : Slot} {start start' stop : ℤ} {tr : List SlotLabel}
    (h : Fallen i start stop tr) : ¬Rising i start' tr := by
  intro hrise
  obtain ⟨pre, l, post, rfl, ⟨rfl, hrising⟩, hpost⟩ := h
  have hkeep := (hrise.of_append ?_).2
  · exact (hkeep (.ext (.echoIsr i stop 0)) (by simp)).2.2 ⟨rfl, rfl⟩
  · rintro late l rest heq ⟨rfl, hreq⟩
    cases late with
    | nil => simp at heq
    | cons l' late =>
      obtain ⟨rfl, rfl⟩ := List.cons.inj heq
      have hlate : Fallen i start stop (pre ++ .ext (.echoIsr i stop 0) :: late) :=
        ⟨pre, _, late, rfl, ⟨rfl, hrising⟩, fun l hl ↦ hpost l (List.mem_append_left _ hl)⟩
      exact hlate.not_requested hreq

/-- Which slot's work item has been started and has not taken its time stamps yet. -/
def Taking.next (k : Option Slot) : SlotLabel → Option Slot
  | .start .worker (.work (.sensor i)) => some i
  | .op .worker (.takeEcho _) _ => none
  | _ => k

def taking (tr : List SlotLabel) : Option Slot := tr.foldl Taking.next none

theorem taking_append_singleton (tr : List SlotLabel) (l : SlotLabel) :
    taking (tr ++ [l]) = Taking.next (taking tr) l := by
  simp [taking]

/-- The work items of slot `i` that are queued, or started but not yet past their critical
section. -/
def pendingWork (i : Slot) (s : SlotSnap) : ℕ :=
  s.state.queue.count (.sensor i) + if taking s.trace = some i then 1 else 0

/-! ## The invariant -/

/-- State, time stamps and work queue are as far as the round. -/
structure EchoSound (i : Slot) (s : SlotSnap) : Prop where
  pending : pendingWork i s = if (s.state.sensor i).state = .done then 1 else 0
  high : (s.state.sensor i).state = .waitHigh → Requested i s.trace
  low : (s.state.sensor i).state = .waitLow → Rising i (s.state.sensor i).echoStart s.trace
  done : (s.state.sensor i).state = .done →
    Fallen i (s.state.sensor i).echoStart (s.state.sensor i).echoStop s.trace
  taken : Always (fun pre l ↦ ∀ t start stop, l = .op t (.takeEcho i) (start, stop) →
    Fallen i start stop pre) s.trace

/-- The fields that a measurement uses. -/
def SensorDev.echo (d : SensorDev) : EchoState × ℤ × ℤ := (d.state, d.echoStart, d.echoStop)

theorem SensorDev.set_echo (d : SensorDev) (x : ℤ) (v : SlotVar) : (d.set x v).echo = d.echo := by
  cases v <;> rfl

namespace EchoSound

variable {i : Slot} {s : SlotSnap} {x : Driver} {l : SlotLabel}

/-- A step that leaves the fields of the slot alone and has no part in the current round. -/
theorem log (h : EchoSound i s) (hecho : (x.sensor i).echo = (s.state.sensor i).echo)
    (hpending : pendingWork i (s.log x l) = pendingWork i s) (hrequest : ¬IsRequest i l)
    (htake : ¬IsTake i l) (hhigh : (s.state.sensor i).state = .waitHigh → ¬IsEdge i 1 l)
    (hlow : (s.state.sensor i).state = .waitLow → ¬IsEdge i 0 l) : EchoSound i (s.log x l) := by
  obtain ⟨hstate, hstart, hstop⟩ : (x.sensor i).state = (s.state.sensor i).state
      ∧ (x.sensor i).echoStart = (s.state.sensor i).echoStart
      ∧ (x.sensor i).echoStop = (s.state.sensor i).echoStop := by
    simpa [SensorDev.echo] using hecho
  constructor
  · rw [hpending, Snap.log_state, hstate]
    exact h.pending
  · rw [Snap.log_state, hstate]
    exact fun hs ↦ (h.high hs).append ⟨hrequest, htake, hhigh hs⟩
  · rw [Snap.log_state, hstate, hstart]
    exact fun hs ↦ (h.low hs).append ⟨hrequest, htake, hlow hs⟩
  · rw [Snap.log_state, hstate, hstart, hstop]
    exact fun hs ↦ (h.done hs).append ⟨hrequest, htake⟩
  · refine always_append_singleton.mpr ⟨h.taken, fun t start stop hl ↦ ?_⟩
    exact absurd (hl ▸ rfl : IsTake i l) htake

theorem pendingWork_log {x : Driver} (hqueue : x.queue.count (.sensor i)
      = s.state.queue.count (.sensor i))
    (htaking : Taking.next (taking s.trace) l = some i ↔ taking s.trace = some i) :
    pendingWork i (s.log x l) = pendingWork i s := by
  unfold pendingWork
  rw [Snap.log_trace, taking_append_singleton, Snap.log_state, hqueue]
  simp only [htaking]

/-- A request, whether it is granted or not. -/
theorem request (h : EchoSound i s) (t : Thread) (j : Slot) {r : Bool}
    (hr : r = decide ((s.state.sensor j).state = .idle)) :
    EchoSound i (s.log ((SlotOp.request j).effect s.state) (.op t (.request j) r)) := by
  have hpending : pendingWork i (s.log ((SlotOp.request j).effect s.state) (.op t (.request j) r))
      = pendingWork i s := by
    refine pendingWork_log rfl ?_
    cases t <;> rfl
  by_cases hij : i = j
  · subst hij
    by_cases hidle : (s.state.sensor i).state = .idle
    · -- a new round begins
      have hstate : (((SlotOp.request i).effect s.state).sensor i).state = .waitHigh := by
        simp [SlotOp.effect, hidle]
      have hnow : Requested i (s.trace ++ [.op t (.request i) r]) :=
        Since.now ⟨rfl, by rw [hr, hidle]; rfl⟩
      constructor
      · rw [hpending, h.pending, Snap.log_state, hstate, hidle]
        rfl
      · exact fun _ ↦ hnow
      · rw [Snap.log_state, hstate]
        exact fun hs ↦ EchoState.noConfusion hs
      · rw [Snap.log_state, hstate]
        exact fun hs ↦ EchoState.noConfusion hs
      · exact always_append_singleton.mpr ⟨h.taken, fun _ _ _ hl ↦ by cases hl⟩
    · -- a refused request begins nothing
      have hfalse : r = false := by rw [hr, decide_eq_false hidle]
      refine h.log ?_ hpending (fun hl ↦ ?_) id (fun _ ↦ id) fun _ ↦ id
      · simp [SlotOp.effect, hidle]
      · rw [hfalse] at hl
        exact Bool.noConfusion hl.2
  · refine h.log ?_ hpending (fun hl ↦ hij hl.1.symm) id (fun _ ↦ id) fun _ ↦ id
    exact congrArg SensorDev.echo (Driver.modify_sensor_of_ne _ _ hij)

/-- The critical section of the work item. -/
theorem take (h : EchoSound i s) {j : Slot} (htaking : taking s.trace = some j) {r : ℤ × ℤ}
    (hr : r = ((s.state.sensor j).echoStart, (s.state.sensor j).echoStop)) :
    EchoSound i (s.log ((SlotOp.takeEcho j).effect s.state) (.op .worker (.takeEcho j) r)) := by
  by_cases hij : i = j
  · subst hij
    have hpending := h.pending
    rw [pendingWork, if_pos htaking] at hpending
    -- the work item is the one that is pending, so this is the end of a round
    have hdone : (s.state.sensor i).state = .done := by
      by_contra hne
      rw [if_neg hne] at hpending
      omega
    rw [if_pos hdone] at hpending
    have hstate : (((SlotOp.takeEcho i).effect s.state).sensor i).state = .idle := by
      simp [SlotOp.effect]
    constructor
    · rw [pendingWork, Snap.log_trace, taking_append_singleton, Snap.log_state, hstate]
      change List.count _ s.state.queue + 0 = 0
      omega
    · rw [Snap.log_state, hstate]
      exact fun hs ↦ EchoState.noConfusion hs
    · rw [Snap.log_state, hstate]
      exact fun hs ↦ EchoState.noConfusion hs
    · rw [Snap.log_state, hstate]
      exact fun hs ↦ EchoState.noConfusion hs
    · refine always_append_singleton.mpr ⟨h.taken, fun t start stop hl ↦ ?_⟩
      obtain ⟨rfl, rfl⟩ : r.1 = start ∧ r.2 = stop := by
        obtain ⟨-, -, hpair⟩ := Label.op.inj hl
        rw [eq_of_heq hpair]
        exact ⟨rfl, rfl⟩
      rw [hr]
      exact h.done hdone
  · have hne : some j ≠ some i := fun h ↦ hij (Option.some.inj h).symm
    refine h.log ?_ (pendingWork_log rfl ?_) id (Ne.symm hij) (fun _ ↦ id) fun _ ↦ id
    · rw [SlotOp.effect, Driver.modify_sensor_of_ne _ _ hij]
    · rw [htaking]
      change none = some i ↔ some j = some i
      simp [hne]

/-- An echo interrupt of any slot, with any level. -/
theorem isr (h : EchoSound i s) (j : Slot) (now pinVal : ℤ) :
    EchoSound i (s.log ((SlotEvent.echoIsr j now pinVal).exec s.state)
      (.ext (.echoIsr j now pinVal))) := by
  obtain ⟨hstate, hpin, hexec⟩ | ⟨hstate, hpin, hexec⟩ | ⟨hhigh, hlow, hexec⟩ :=
    SlotEvent.exec_cases j now pinVal s.state
  · rw [hexec]
    by_cases hij : i = j
    · -- the start is recorded
      subst hij
      have hrising : Rising i now (s.trace ++ [.ext (.echoIsr i now pinVal)]) :=
        Since.now ⟨by rw [hpin], h.high hstate⟩
      refine ⟨?_, by simp, by simpa using hrising, by simp, ?_⟩
      · rw [pendingWork_log (by rw [Driver.modify_queue]) Iff.rfl, h.pending, hstate]
        simp
      · exact always_append_singleton.mpr ⟨h.taken, fun _ _ _ hl ↦ by cases hl⟩
    · refine h.log ?_ (pendingWork_log rfl Iff.rfl) id id (fun _ hl ↦ hij hl.1.symm)
        fun _ hl ↦ hij hl.1.symm
      rw [Driver.modify_sensor_of_ne _ _ hij]
  · rw [hexec]
    by_cases hij : i = j
    · -- the stop is recorded, and no work item was pending
      subst hij
      have hfallen : Fallen i (s.state.sensor i).echoStart now
          (s.trace ++ [.ext (.echoIsr i now pinVal)]) :=
        Since.now ⟨by rw [hpin], h.low hstate⟩
      have hzero : s.state.queue.count (.sensor i) = 0 ∧ taking s.trace ≠ some i := by
        have hpending := h.pending
        rw [hstate, pendingWork] at hpending
        simpa using hpending
      refine ⟨?_, by simp, by simp, by simpa using hfallen, ?_⟩
      · rw [pendingWork, Snap.log_state, Driver.count_queueWork_self, Driver.modify_queue, hzero.1,
          Snap.log_trace, taking_append_singleton]
        change 1 + (if taking s.trace = some i then 1 else 0) = _
        rw [if_neg hzero.2, Driver.queueWork_sensor, Driver.modify_sensor_self]
        rfl
      · exact always_append_singleton.mpr ⟨h.taken, fun _ _ _ hl ↦ by cases hl⟩
    · have hwork : Work.sensor i ≠ Work.sensor j := fun hw ↦ hij (Work.sensor.inj hw)
      refine h.log ?_ (pendingWork_log ?_ Iff.rfl) id id (fun _ hl ↦ hij hl.1.symm)
        fun _ hl ↦ hij hl.1.symm
      · rw [Driver.queueWork_sensor, Driver.modify_sensor_of_ne _ _ hij]
      · rw [Driver.count_queueWork_of_ne _ hwork, Driver.modify_queue]
  · rw [hexec]
    refine h.log rfl (pendingWork_log rfl Iff.rfl) id id (fun hs hl ↦ ?_) fun hs hl ↦ ?_
    · obtain ⟨rfl, hl⟩ := hl
      exact hhigh hs hl
    · obtain ⟨rfl, hl⟩ := hl
      exact hlow hs hl

/-- The work queue takes the first work item. -/
theorem work (h : EchoSound i s) (htaking : taking s.trace = none) {w : Work}
    (hhead : s.state.queue.head? = some w) :
    EchoSound i
      (s.log { s.state with queue := s.state.queue.tail } (.start .worker (.work w))) := by
  refine h.log rfl ?_ id id (fun _ ↦ id) fun _ ↦ id
  rw [pendingWork, pendingWork, Snap.log_trace, taking_append_singleton, Snap.log_state,
    Driver.count_eq_tail hhead, htaking]
  -- what the queue loses the work queue has in hand
  cases w with
  | sensor j => simp [Taking.next]
  | lock j => simp [Taking.next]

end EchoSound

/-- Operations other than the critical section of the work item and the queueing of it. -/
def SlotOp.Ordinary : SlotOp → Prop
  | .takeEcho _ | .queueWork (.sensor _) => False
  | _ => True

namespace SlotOp.Ordinary

variable {i : Slot} {o : SlotOp}

theorem of_publishes (ho : o.Publishes) : o.Ordinary := by
  cases o <;> trivial

theorem of_decides (ho : o.Decides i) : o.Ordinary := by
  cases o with
  | queueWork w =>
    obtain rfl : w = .lock i := ho
    trivial
  | takeEcho => exact ho.elim
  | _ => trivial

theorem of_releases (ho : o.Releases i) : o.Ordinary := by
  cases o with
  | queueWork w =>
    obtain rfl : w = .lock i := ho
    trivial
  | takeEcho => exact ho.elim
  | _ => trivial

theorem of_turns (ho : o.Turns i) : o.Ordinary := by
  cases o <;> trivial

theorem of_measures (ho : o.Measures) : o.Ordinary := by
  cases o <;> trivial

theorem taking_next (ho : o.Ordinary) (k : Option Slot) (t : Thread) (r : o.Resp) :
    Taking.next k (.op t o r) = k := by
  cases t <;> cases o <;> first | rfl | exact ho.elim

theorem count_queue (ho : o.Ordinary) (s : Driver) :
    (o.effect s).queue.count (.sensor i) = s.queue.count (.sensor i) := by
  cases o with
  | queueWork w =>
    cases w with
    | sensor j => exact ho.elim
    | lock j =>
      have hne : Work.sensor i ≠ Work.lock j := by simp
      exact s.count_queueWork_of_ne hne
  | _ => rfl

end SlotOp.Ordinary

/-- Only requests and critical sections of the work item change the fields that a measurement
uses. -/
theorem SlotOp.echo_effect {i : Slot} {o : SlotOp} (hrequest : ∀ j, o ≠ .request j)
    (htake : ∀ j, o ≠ .takeEcho j) (s : Driver) :
    ((o.effect s).sensor i).echo = (s.sensor i).echo := by
  cases o with
  | request j => exact absurd rfl (hrequest j)
  | takeEcho j => exact absurd rfl (htake j)
  | queueWork w => rw [effect, Driver.queueWork_sensor]
  | store j v x =>
    exact s.modify_sensor_congr j i (fun d ↦ d.set x v) SensorDev.echo fun d ↦ d.set_echo x v
  | fireTrigger | readOccupied | notify | ktime | load | readLockSt | readLockPending | printk =>
    rfl
  | _ =>
    rw [effect]
    exact s.modify_sensor_congr _ i _ SensorDev.echo fun _ ↦ rfl

theorem EchoSound.op {i : Slot} {s : SlotSnap} (h : EchoSound i s) (t : Thread) {o : SlotOp}
    {r : o.Resp} (ho : o.Ordinary) (hr : o.Answers r s.state) :
    EchoSound i (s.log (o.effect s.state) (.op t o r)) := by
  by_cases hrequest : ∃ j, o = .request j
  · obtain ⟨j, rfl⟩ := hrequest
    exact h.request t j hr
  · have hne (j : Slot) : o ≠ .request j := fun ho ↦ hrequest ⟨j, ho⟩
    have htake (j : Slot) : o ≠ .takeEcho j := by
      rintro rfl
      exact ho
    refine h.log (SlotOp.echo_effect hne htake _) (pendingWork_log (ho.count_queue _) ?_) ?_ ?_
      (fun _ ↦ id) fun _ ↦ id
    · rw [ho.taking_next]
    · cases o <;> first | exact id | exact absurd rfl (hne _)
    · cases o <;> first | exact id | exact ho.elim

/-! ## The outline -/

/-- The invariant for both slots. -/
def echoOutline : Outline slotMachine := ⟨fun _ ↦ True, fun s ↦ ∀ i, EchoSound i s⟩

/-- The worker knows which work item is past its start and not yet past its critical section. -/
def takingIs (k : Option Slot) : echoOutline.Assertion .worker where
  holds s := taking s.trace = k
  stable {s l x} _ hl _ _ h := by
    rw [Snap.log_trace, taking_append_singleton, h]
    cases l with
    | start t j => cases t <;> first | rfl | exact absurd rfl hl
    | op t o r => cases t <;> first | rfl | exact absurd rfl hl
    | ext e => rfl

/-- Between work items nothing is being taken. -/
def echoIdle : ∀ t, echoOutline.Assertion t
  | .worker => takingIs none
  | _ => .top

theorem ordinary_frame {t : Thread} {p : SlotProg Unit} (hp : p.Uses SlotOp.Ordinary) :
    echoOutline.Triple t (echoIdle t) p fun _ ↦ echoIdle t := by
  refine .frame hp fun o ho s r x hs hidle hexec _ ↦ ?_
  obtain ⟨hr, rfl⟩ := SlotOp.exec_eq_some.mp hexec
  refine ⟨fun i ↦ (hs.2 i).op t ho hr, ?_⟩
  cases t with
  | worker =>
    change taking _ = none
    rw [Snap.log_trace, taking_append_singleton, ho.taking_next]
    exact hidle
  | _ => trivial

theorem sensorWorkFunc_takes (j : Slot) :
    echoOutline.Triple .worker (takingIs (some j)) (sensorWorkFunc j) fun _ ↦ takingIs none := by
  refine .bind (.call (R := fun _ ↦ takingIs none) ?_) fun r ↦ ordinary_frame (t := .worker) ?_
  · rintro s r x hs htaking hexec -
    obtain ⟨hr, rfl⟩ := SlotOp.exec_eq_some.mp hexec
    refine ⟨fun i ↦ (hs.2 i).take htaking hr, ?_⟩
    change taking _ = none
    rw [Snap.log_trace, taking_append_singleton]
    rfl
  · obtain ⟨start, stop⟩ := r
    refine Prog.uses_ite (fun _ ↦ ?_) fun _ ↦ trivial
    exact Prog.uses_bind ((updateStatus_uses j _).mono fun o ↦ SlotOp.Ordinary.of_publishes)
      fun _ ↦ (lockMachine_uses j _).mono fun o ↦ SlotOp.Ordinary.of_decides

theorem echoOutline_valid : echoOutline.Valid echoIdle where
  ext {s e x} hs hext _ := by
    obtain ⟨j, now, pinVal⟩ := e
    obtain rfl : (SlotEvent.echoIsr j now pinVal).exec s.state = x := Option.some.inj hext
    exact fun i ↦ (hs.2 i).isr j now pinVal
  start {t j s p x} hs hidle hentry _ := by
    have hlog (hx : s.state = x)
        (hnext : Taking.next (taking s.trace) (.start t j) = taking s.trace)
        (i : Slot) : EchoSound i (s.log x (.start t j)) := by
      subst hx
      exact (hs.2 i).log rfl (EchoSound.pendingWork_log rfl (by rw [hnext])) id id (fun _ ↦ id)
        fun _ ↦ id
    obtain ⟨w, rfl, rfl, rfl, hhead, rfl⟩ | ⟨rfl, rfl, rfl, hx⟩ | ⟨k, rfl, rfl, rfl, hx⟩ :=
      slotEntry_cases hentry
    · have hinv : echoOutline.inv (s.log _ (.start .worker (.work w))) :=
        fun i ↦ (hs.2 i).work hidle hhead
      refine ⟨hinv, ?_⟩
      cases w with
      | sensor k =>
        refine sensorWorkFunc_takes k _ ⟨trivial, hinv⟩ ?_
        exact taking_append_singleton ..
      | lock k =>
        refine ordinary_frame (t := .worker)
          ((lockWorkFunc_uses k).mono fun o ↦ SlotOp.Ordinary.of_turns) _ ⟨trivial, hinv⟩ ?_
        exact (taking_append_singleton ..).trans hidle
    · have hinv := hlog hx.symm rfl
      exact ⟨hinv, ordinary_frame (t := .timer)
        (measureTimerCb_uses.mono fun o ↦ SlotOp.Ordinary.of_measures) _ ⟨trivial, hinv⟩ trivial⟩
    · have hinv := hlog hx.symm rfl
      exact ⟨hinv, ordinary_frame (t := .button k)
        ((btnIsr_uses k).mono fun o ↦ SlotOp.Ordinary.of_releases) _ ⟨trivial, hinv⟩ trivial⟩

theorem echoSound_of_reachable {c : SlotConfig} (hc : SlotReachable c) (i : Slot) :
    EchoSound i c.toSnap := by
  refine (echoOutline_valid.reachable (fun _ ↦ ?_) (fun t ↦ ?_) hc fun _ _ ↦ trivial).1 i
  · exact ⟨rfl, (fun h ↦ by cases h), (fun h ↦ by cases h), (fun h ↦ by cases h), always_nil⟩
  · cases t <;> first | rfl | trivial

/-! ## Exactly one measurement per request -/

/-- The clock as the echo interrupts of slot `i` read it. -/
def echoClocks (i : Slot) (tr : List SlotLabel) : List ℤ :=
  tr.filterMap fun
    | .ext (.echoIsr j now _) => if j = i then some now else none
    | _ => none

theorem Fallen.start_le_stop {i : Slot} {start stop : ℤ} {tr : List SlotLabel}
    (h : Fallen i start stop tr) (hclock : (echoClocks i tr).Pairwise (· ≤ ·)) : start ≤ stop := by
  obtain ⟨pre, l, post, rfl, ⟨rfl, pre', l', post', rfl, ⟨rfl, -⟩, -⟩, -⟩ := h
  rw [echoClocks, List.filterMap_append, List.pairwise_append] at hclock
  exact hclock.2.2 start (by simp) stop (by simp)

/-- What is ready to be taken has been requested since the last time. -/
theorem Fallen.since_request {i : Slot} {start stop : ℤ} {tr : List SlotLabel}
    (h : Fallen i start stop tr) :
    Since (fun _ l ↦ IsRequest i l) (fun l ↦ ¬IsTake i l) tr := by
  refine h.since ?_ fun l hl ↦ hl.2
  rintro pre l ⟨rfl, hrising⟩
  refine ⟨hrising.since ?_ fun l hl ↦ hl.2.1, id⟩
  rintro pre l ⟨rfl, hreq⟩
  exact ⟨hreq.mono fun l hl ↦ hl.2.1, id⟩

/-- A step that is neither a request nor a critical section of the work item nor an echo
interrupt. -/
theorem echo_of_emits {i : Slot} {s x : Driver} {l : SlotLabel} (h : slotMachine.Emits s l x)
    (hrequest : ∀ t r, l ≠ .op t (.request i) r) (htake : ¬IsTake i l)
    (hecho : ∀ now pinVal, l ≠ .ext (.echoIsr i now pinVal)) :
    (x.sensor i).echo = (s.sensor i).echo := by
  cases l with
  | start t j =>
    rw [sensor_of_start h]
  | op t o r =>
    obtain ⟨-, rfl⟩ := SlotOp.exec_eq_some.mp h
    by_cases hr : ∃ j, o = .request j
    · obtain ⟨j, rfl⟩ := hr
      have hij : i ≠ j := by
        rintro rfl
        exact hrequest t r rfl
      rw [SlotOp.effect, Driver.modify_sensor_of_ne _ _ hij]
    by_cases ht : ∃ j, o = .takeEcho j
    · obtain ⟨j, rfl⟩ := ht
      have hij : i ≠ j := by
        rintro rfl
        exact htake rfl
      rw [SlotOp.effect, Driver.modify_sensor_of_ne _ _ hij]
    · exact SlotOp.echo_effect (fun j hj ↦ hr ⟨j, hj⟩) (fun j hj ↦ ht ⟨j, hj⟩) s
  | ext e =>
    obtain ⟨j, now, pinVal⟩ := e
    have hij : i ≠ j := by
      rintro rfl
      exact hecho now pinVal rfl
    obtain rfl : (SlotEvent.echoIsr j now pinVal).exec s = x := Option.some.inj h
    obtain ⟨-, -, hexec⟩ | ⟨-, -, hexec⟩ | ⟨-, -, hexec⟩ := SlotEvent.exec_cases j now pinVal s
    · rw [hexec, Driver.modify_sensor_of_ne _ _ hij]
    · rw [hexec, Driver.queueWork_sensor, Driver.modify_sensor_of_ne _ _ hij]
    · rw [hexec]

/-- From the stop to the critical section of the work item nothing is overwritten. -/
theorem echo_of_done {i : Slot} {s x : Driver} {l : SlotLabel} (h : slotMachine.Emits s l x)
    (hdone : (s.sensor i).state = .done) (htake : ¬IsTake i l) :
    (x.sensor i).echo = (s.sensor i).echo := by
  by_cases hrequest : ∃ t r, l = .op t (.request i) r
  · obtain ⟨t, r, rfl⟩ := hrequest
    obtain ⟨-, rfl⟩ := SlotOp.exec_eq_some.mp h
    simp [SlotOp.effect, hdone]
  by_cases hecho : ∃ now pinVal, l = .ext (.echoIsr i now pinVal)
  · obtain ⟨now, pinVal, rfl⟩ := hecho
    obtain rfl : (SlotEvent.echoIsr i now pinVal).exec s = x := Option.some.inj h
    simp [SlotEvent.exec, hdone]
  · exact echo_of_emits h (fun t r hl ↦ hrequest ⟨t, r, hl⟩) htake
      fun now pinVal hl ↦ hecho ⟨now, pinVal, hl⟩

/-- **The protocol.** A work item is pending exactly while a measurement is done; what it takes is
one pulse of one request, start before stop; until then neither time stamp changes; and between two
work items there is a request. -/
theorem echo_protocol {c : SlotConfig} (i : Slot) (hc : SlotReachable c)
    (hclock : (echoClocks i c.trace).Pairwise (· ≤ ·)) :
    (pendingWork i c.toSnap = if (c.state.sensor i).state = .done then 1 else 0)
      ∧ Always (fun pre l ↦ ∀ t start stop, l = .op t (.takeEcho i) (start, stop) →
          Fallen i start stop pre ∧ start ≤ stop) c.trace
      ∧ ((c.state.sensor i).state = .done → ∀ c', slotMachine.Steps c c' →
          (∀ l ∈ c'.since c.toSnap, ¬IsTake i l) →
            (c'.state.sensor i).echo = (c.state.sensor i).echo)
      ∧ ∀ pre l mid l' post, c.trace = pre ++ l :: mid ++ l' :: post → IsTake i l → IsTake i l' →
          ∃ x ∈ mid, IsRequest i x := by
  have hsound := echoSound_of_reachable hc i
  refine ⟨hsound.pending, ?_, ?_, ?_⟩
  · intro pre l post htr t start stop hl
    have hfallen := hsound.taken pre l post htr t start stop hl
    refine ⟨hfallen, hfallen.start_le_stop (hclock.sublist ?_)⟩
    rw [htr, echoClocks, echoClocks, List.filterMap_append]
    exact List.sublist_append_left _ _
  · intro hdone c' hsteps htake
    have hkeep : (c'.state.sensor i).echo = (c.state.sensor i).echo := by
      refine hsteps.invariant_of_labels
        (I := fun s ↦ (s.state.sensor i).echo = (c.state.sensor i).echo) htake rfl ?_
      intro c₁ c₂ l _ _ hemits _ hl hsame
      have hdone' : (c₁.state.sensor i).state = .done := (congrArg Prod.fst hsame).trans hdone
      exact (echo_of_done hemits hdone' hl).trans hsame
    exact hkeep
  · intro pre l mid l' post htr hl hl'
    obtain ⟨t, start, stop, rfl⟩ := hl'.exists_eq
    have hfallen := hsound.taken (pre ++ l :: mid) _ post (by simpa using htr) t start stop rfl
    by_contra hnone
    refine (hfallen.since_request.of_append ?_).2 l (by simp) hl
    rintro late x rest heq hx
    have hmem : x ∈ l :: mid := by simp [heq]
    rcases List.mem_cons.mp hmem with rfl | hmem
    · exact hx.not_isTake hl
    · exact hnone ⟨x, hmem, hx⟩

/-- A whole measurement of slot `0`, from the first tick to the critical section of its work
item. -/
theorem echo_protocol_first : ∃ c pre, SlotReachable c
    ∧ c.trace = pre ++ [.op .worker (.takeEcho 0) (100, 400)] ∧ Fallen 0 100 400 pre
    ∧ (100 : ℤ) ≤ 400 := by
  obtain ⟨c₁, tr, h₁, hthread, hqueue, hsensor, htr, hby, -⟩ :=
    exists_measurement (c := .init .init) (i := 0) 100 400 rfl rfl rfl
  have hclocks : echoClocks 0 c₁.trace = [100, 400] := by
    have hnone : echoClocks 0 tr = [] := by
      refine List.filterMap_eq_nil_iff.mpr fun l hl ↦ ?_
      cases l with
      | ext e => exact absurd (hby _ hl) (by simp [Label.by?])
      | _ => rfl
    rw [htr, echoClocks, List.filterMap_append, List.filterMap_append]
    rw [echoClocks] at hnone
    rw [hnone]
    rfl
  have hwork : slotMachine.MayPass .worker (sensorWorkFunc 0)
      (fun s ↦ s.trace = (c₁.trace ++ [.start .worker (.work (.sensor 0))])
        ++ [.op .worker (.takeEcho 0) (100, 400)])
      (c₁.toSnap.log { c₁.state with queue := [] } (.start .worker (.work (.sensor 0)))) := by
    refine .bind (SlotMay.perform (o := .takeEcho 0) (100, 400) ?_ (.here rfl))
    change _ = ((c₁.state.sensor 0).echoStart, (c₁.state.sensor 0).echoStop)
    rw [hsensor]
  have hentry : slotEntry .worker (.work (.sensor 0)) c₁.state
      = some (sensorWorkFunc 0, { c₁.state with queue := [] }) := by
    simp [slotEntry, hqueue, Work.func]
  have hidle : c₁.thread .worker = none := congrFun hthread .worker
  obtain ⟨c, hc, htrace⟩ := hwork.steps hidle hentry
  have hclock : (echoClocks 0 c.trace).Pairwise (· ≤ ·) := by
    rw [echoClocks] at hclocks ⊢
    rw [htrace, List.filterMap_append, List.filterMap_append, hclocks]
    decide
  obtain ⟨-, htaken, -⟩ := echo_protocol 0 (h₁.trans hc) hclock
  exact ⟨c, _, h₁.trans hc, htrace, htaken _ _ [] htrace _ _ _ rfl⟩

end ParkingService.Slots
