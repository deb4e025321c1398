import ParkingService.Slot.Alone
import ParkingService.Slot.Bar

/-!
# The driver and its bars

What the driver does to the bar of a slot is a lawful sequence of moves, whatever the interleaving.
`LockSound` says so, and that state and queue match where the sequence has got to.

A plain flag, an enumeration without a lock and a work item are shared between the worker and the
button interrupt, and this works because in every state only one of the two is responsible for the
next move: `Bar.owner`. An assertion of the owner about the bar is stable, so each routine can be
followed through its moves as if it were alone.
-/

namespace ParkingService.Slots

open Concurrency

/-! ## Moves of a trace -/

/-- What a label does to the bar of slot `i`. -/
def move? (i : Slot) : SlotLabel → Option Move
  | .start .worker (.work (.lock j)) => if j = i then some .start else none
  | .op _ (.setLockSt j st) _ => if j = i then some (.become st) else none
  | .op _ (.setLockPending j p) _ => if j = i then some (.flag p) else none
  | .op _ (.queueWork (.lock j)) r => if j = i then some (.queue r) else none
  | .op _ (.readLockPending j) r => if j = i then some (.read r) else none
  | .op _ (.stepperStep j d) _ => if j = i then some (.step d) else none
  | _ => none

/-- The moves of slot `i`, oldest first. -/
def moves (i : Slot) (tr : List SlotLabel) : List Move := tr.filterMap (move? i)

/-- Where the moves of slot `i` have led, if all of them were allowed. -/
def barOf (i : Slot) (tr : List SlotLabel) : Option Bar := Bar.run (lockDir i) (moves i tr)

variable {i : Slot} {s : SlotSnap} {l : SlotLabel} {b b' : Bar} {x : Driver} {m : Move} {t : Thread}

theorem barOf_append_of_none (hm : move? i l = none) (tr : List SlotLabel) :
    barOf i (tr ++ [l]) = barOf i tr := by
  simp [barOf, moves, hm]

theorem barOf_append_of_some {tr : List SlotLabel} (hm : move? i l = some m) :
    barOf i (tr ++ [l]) = some b' ↔ ∃ b, barOf i tr = some b ∧ Bar.Moves (lockDir i) b m b' := by
  have hcat : moves i (tr ++ [l]) = moves i tr ++ [m] := by simp [moves, hm]
  rw [barOf, hcat, Bar.run_append_singleton, Option.bind_eq_some_iff]
  simp only [Bar.move_eq_some, barOf]

/-- The labels that make a move of slot `i`, one by one. -/
inductive Makes (i : Slot) : SlotLabel → Move → Prop
  | become {t st} : Makes i (.op t (.setLockSt i st) ()) (.become st)
  | flag {t p} : Makes i (.op t (.setLockPending i p) ()) (.flag p)
  | queue {t fresh} : Makes i (.op t (.queueWork (.lock i)) fresh) (.queue fresh)
  | start : Makes i (.start .worker (.work (.lock i))) .start
  | read {t p} : Makes i (.op t (.readLockPending i) p) (.read p)
  | step {t d} : Makes i (.op t (.stepperStep i d) ()) (.step d)

theorem makes_of_move (h : move? i l = some m) : Makes i l m := by
  unfold move? at h
  split at h
  case h_7 => cases h
  all_goals
    obtain ⟨rfl, hm⟩ := Option.ite_none_right_eq_some.mp h
    obtain rfl := Option.some.inj hm
    constructor

/-! ## State and bar -/

/-- The state of the driver is what the bar of slot `i` says. -/
structure Bar.Matches (i : Slot) (b : Bar) (x : Driver) : Prop where
  lockSt : (x.sensor i).lockSt = b.lockSt
  queue : x.queue.count (.lock i) = if b.Queued then 1 else 0
  pending : ∀ p, b.flagged = some p → (x.sensor i).lockPending = p
  position : (x.sensor i).position = b.position
  motorStep : (x.sensor i).motorStep = (lockDir i * b.position) % 8

/-- The fields of a slot that have to do with its bar. -/
def SensorDev.bar (d : SensorDev) : LockState × Bool × ℤ × ℤ :=
  (d.lockSt, d.lockPending, d.position, d.motorStep)

theorem SensorDev.set_bar (d : SensorDev) (x : ℤ) (v : SlotVar) : (d.set x v).bar = d.bar := by
  cases v <;> rfl

theorem lockDir_cases (i : Slot) : lockDir i = 1 ∨ lockDir i = -1 := by
  unfold lockDir
  split <;> simp

/-- The coils keep in step with the bar. -/
theorem motorStep_step {dir : ℤ} (hdir : dir = 1 ∨ dir = -1) (p : Bool) (q : ℤ) :
    (dir * q % 8 + Bar.turnDir dir p + 8).tmod 8 = dir * (q + Bar.turnDir dir p * dir) % 8 := by
  have hnonneg : 0 ≤ dir * q % 8 + Bar.turnDir dir p + 8 := by
    rcases hdir with rfl | rfl <;> cases p <;> simp only [Bar.turnDir] <;> omega
  rw [Int.tmod_eq_emod_of_nonneg hnonneg]
  rcases hdir with rfl | rfl <;> cases p <;> simp only [Bar.turnDir] <;> omega

namespace Bar.Matches

theorem congr {x' : Driver} (h : b.Matches i x) (hbar : (x'.sensor i).bar = (x.sensor i).bar)
    (hqueue : x'.queue.count (.lock i) = x.queue.count (.lock i)) : b.Matches i x' := by
  simp only [SensorDev.bar, Prod.mk.injEq] at hbar
  obtain ⟨hst, hpending, hposition, hstep⟩ := hbar
  constructor
  · rw [hst, h.lockSt]
  · rw [hqueue, h.queue]
  · rw [hpending]
    exact h.pending
  · rw [hposition, h.position]
  · rw [hstep, h.motorStep]

/-- A move of the bar. -/
theorem move {x' : Driver} (h : b.Matches i x) (hx : slotMachine.Emits x l x')
    (hm : move? i l = some m) (hmove : Bar.Moves (lockDir i) b m b') : b'.Matches i x' := by
  obtain ⟨hst, hqueue, hpending, hposition, hstep⟩ := h
  cases makes_of_move hm with
  | become =>
    obtain ⟨hst', hposition', hqueued, hqueued', hflagged⟩ := hmove.become_eq
    obtain ⟨-, rfl⟩ := emits_op.mp hx
    rw [if_neg hqueued] at hqueue
    refine ⟨?_, ?_, by simp [hflagged], ?_, ?_⟩
    · simp [SlotOp.effect, hst']
    · rw [if_neg hqueued', ← hqueue]
      rfl
    · simpa [SlotOp.effect, hposition'] using hposition
    · simpa [SlotOp.effect, hposition'] using hstep
  | flag =>
    obtain ⟨hst', hposition'⟩ := hmove.changing_eq (fun _ h ↦ by cases h) fun _ h ↦ by cases h
    obtain ⟨-, rfl⟩ := emits_op.mp hx
    cases hmove
    refine ⟨?_, hqueue, ?_, ?_, ?_⟩
    · simpa [SlotOp.effect, hst'] using hst
    · simp [SlotOp.effect, flagged]
    · simpa [SlotOp.effect, hposition'] using hposition
    · simpa [SlotOp.effect, hposition'] using hstep
  | queue =>
    obtain ⟨hst', hposition'⟩ := hmove.changing_eq (fun _ h ↦ by cases h) fun _ h ↦ by cases h
    obtain ⟨-, rfl⟩ := emits_op.mp hx
    cases hmove
    refine ⟨?_, ?_, ?_, ?_, ?_⟩
    · simpa [SlotOp.effect, hst'] using hst
    · rw [SlotOp.effect, Driver.count_queueWork_self, hqueue]
      rfl
    · rw [SlotOp.effect, Driver.queueWork_sensor]
      exact hpending
    · simpa [SlotOp.effect, hposition'] using hposition
    · simpa [SlotOp.effect, hposition'] using hstep
  | start =>
    -- the work item leaves the queue, and that is all that a start does
    obtain ⟨hst', hposition'⟩ := hmove.changing_eq (fun _ h ↦ by cases h) fun _ h ↦ by cases h
    have hsensor := sensor_of_start hx
    obtain ⟨p, hentry⟩ := hx
    obtain ⟨hhead, hp⟩ := Option.ite_none_right_eq_some.mp hentry
    obtain ⟨-, rfl⟩ := Prod.mk.inj (Option.some.inj hp)
    cases hmove
    refine ⟨?_, ?_, ?_, ?_, ?_⟩
    · rw [hsensor, hst, hst']
    · rw [Driver.count_eq_tail hhead, if_pos rfl] at hqueue
      exact Nat.succ.inj hqueue
    · rw [hsensor]
      exact hpending
    · rw [hsensor, hposition, hposition']
    · rw [hsensor, hstep, hposition']
  | read =>
    obtain ⟨hst', hposition'⟩ := hmove.changing_eq (fun _ h ↦ by cases h) fun _ h ↦ by cases h
    obtain ⟨-, rfl⟩ := emits_op.mp hx
    cases hmove
    refine ⟨?_, hqueue, (fun _ h ↦ by cases h), ?_, ?_⟩
    · exact hst.trans hst'.symm
    · exact hposition.trans hposition'.symm
    · rw [hposition']
      exact hstep
  | step =>
    obtain ⟨-, rfl⟩ := emits_op.mp hx
    cases hmove with
    | @step p k hk =>
      have hdir := lockDir_cases i
      refine ⟨?_, hqueue, (fun _ h ↦ by cases h), ?_, ?_⟩
      · rw [SlotOp.effect, Driver.modify_sensor_self]
        exact hst
      · rw [SlotOp.effect, Driver.modify_sensor_self, position_step hdir]
        exact congrArg (· + turnDir (lockDir i) p * lockDir i) hposition
      · rw [SlotOp.effect, Driver.modify_sensor_self, position_step hdir, ← motorStep_step hdir,
          ← hstep]
        rfl

/-- An operation that does not touch the bar. -/
theorem stay_op {o : SlotOp} {r : o.Resp} (h : b.Matches i x) (hm : move? i (.op t o r) = none) :
    b.Matches i (o.effect x) := by
  cases o with
  | setLockSt j st | setLockPending j p | stepperStep j d =>
    have hij : i ≠ j := by
      rintro rfl
      simp [move?] at hm
    refine h.congr ?_ rfl
    rw [SlotOp.effect, Driver.modify_sensor_of_ne _ _ hij]
  | queueWork w =>
    have hw : Work.lock i ≠ w := by
      rintro rfl
      simp [move?] at hm
    refine h.congr ?_ ?_
    · rw [SlotOp.effect, Driver.queueWork_sensor]
    · rw [SlotOp.effect, Driver.count_queueWork_of_ne _ hw]
  | store j v y =>
    -- not even for the slot itself
    exact h.congr (x.modify_sensor_congr j i (fun d ↦ d.set y v) SensorDev.bar
      fun d ↦ d.set_bar y v) rfl
  | request j =>
    refine h.congr ?_ rfl
    rw [SlotOp.effect]
    refine x.modify_sensor_congr j i _ SensorDev.bar fun d ↦ ?_
    split <;> rfl
  | fireTrigger | readOccupied | notify | ktime | load | readLockSt | readLockPending | printk =>
    exact h.congr rfl rfl
  | _ =>
    refine h.congr ?_ rfl
    rw [SlotOp.effect]
    exact x.modify_sensor_congr _ i _ SensorDev.bar fun _ ↦ rfl

theorem stay_ext (h : b.Matches i x) (e : SlotEvent) : b.Matches i (e.exec x) := by
  obtain ⟨j, now, pinVal⟩ := e
  obtain ⟨-, -, hexec⟩ | ⟨-, -, hexec⟩ | ⟨-, -, hexec⟩ := SlotEvent.exec_cases j now pinVal x
  · rw [hexec]
    exact h.congr (x.modify_sensor_congr j i _ SensorDev.bar fun _ ↦ rfl) rfl
  · have hw : Work.lock i ≠ Work.sensor j := by simp
    rw [hexec]
    refine h.congr ?_ (Driver.count_queueWork_of_ne _ hw)
    rw [Driver.queueWork_sensor]
    exact x.modify_sensor_congr j i _ SensorDev.bar fun _ ↦ rfl
  · rwa [hexec]

/-- A step that does not touch the bar. -/
theorem stay {x' : Driver} (h : b.Matches i x) (hx : slotMachine.Emits x l x')
    (hm : move? i l = none) : b.Matches i x' := by
  cases l with
  | start t j =>
    refine h.congr (by rw [sensor_of_start hx]) ?_
    obtain ⟨p, hentry⟩ := hx
    obtain ⟨w, rfl, rfl, -, hhead, rfl⟩ | ⟨rfl, rfl, -, rfl⟩ | ⟨k, rfl, rfl, -, rfl⟩ :=
      slotEntry_cases hentry
    · have hw : w ≠ Work.lock i := by
        rintro rfl
        simp [move?] at hm
      rw [Driver.count_eq_tail hhead, if_neg hw, Nat.add_zero]
    · rfl
    · rfl
  | op t o r =>
    obtain ⟨-, rfl⟩ := emits_op.mp hx
    exact h.stay_op hm
  | ext e =>
    obtain rfl : e.exec x = x' := Option.some.inj hx
    exact h.stay_ext e

end Bar.Matches

/-! ## The invariant -/

/-- Who is responsible for the next move. -/
def Bar.owner (i : Slot) : Bar → Thread
  | locked | changing false .entered | changing false .flagged => .button i
  | _ => .worker

/-- Responsibility is handed over only when there is nothing left to do. -/
theorem Bar.Moves.settled {dir : ℤ} (h : Bar.Moves dir b m b') (howner : b'.owner i ≠ b.owner i) :
    b'.Settled := by
  cases h with
  | @flag p | @start p | @read p | @step p =>
    cases p <;> exact absurd rfl howner
  | @finish p => cases p <;> trivial
  | lock | unlock => exact absurd rfl howner
  | _ => trivial

/-- All moves of slot `i` so far were allowed, whoever was responsible has made them, and the state
matches. -/
structure LockSound (i : Slot) (s : SlotSnap) : Prop where
  lawful : ∃ b, barOf i s.trace = some b ∧ b.Matches i s.state
  owned : Always (fun pre l ↦ ∀ m, move? i l = some m →
    ∃ b, barOf i pre = some b ∧ l.by? = some (b.owner i)) s.trace

namespace LockSound

theorem matches_bar (h : LockSound i s) (hb : barOf i s.trace = some b) : b.Matches i s.state := by
  obtain ⟨b', hb', hmatches⟩ := h.lawful
  obtain rfl : b = b' := Option.some.inj (hb.symm.trans hb')
  exact hmatches

theorem stay (h : LockSound i s) (hx : slotMachine.Emits s.state l x) (hm : move? i l = none) :
    LockSound i (s.log x l) := by
  obtain ⟨b, hb, hmatches⟩ := h.lawful
  constructor
  · refine ⟨b, ?_, hmatches.stay hx hm⟩
    rw [Snap.log_trace, barOf_append_of_none hm, hb]
  · refine always_append_singleton.mpr ⟨h.owned, fun m hm' ↦ ?_⟩
    rw [hm] at hm'
    cases hm'

theorem move (h : LockSound i s) (hx : slotMachine.Emits s.state l x) (hm : move? i l = some m)
    (hb : barOf i s.trace = some b) (hmove : Bar.Moves (lockDir i) b m b')
    (hby : l.by? = some (b.owner i)) : LockSound i (s.log x l) := by
  constructor
  · refine ⟨b', ?_, (h.matches_bar hb).move hx hm hmove⟩
    rw [Snap.log_trace, barOf_append_of_some hm]
    exact ⟨b, hb, hmove⟩
  · exact always_append_singleton.mpr ⟨h.owned, fun _ _ ↦ ⟨b, hb, hby⟩⟩

/-- The step of anyone but the owner leaves the bar alone. -/
theorem barOf_of_other (h' : LockSound i (s.log x l)) (hb : barOf i s.trace = some b)
    (hl : l.by? ≠ some (b.owner i)) : barOf i (s.log x l).trace = some b := by
  rw [Snap.log_trace]
  cases hm : move? i l with
  | none => rw [barOf_append_of_none hm, hb]
  | some m =>
    obtain ⟨b₀, hb₀, hby⟩ := (always_append_singleton.mp h'.owned).2 m hm
    obtain rfl : b₀ = b := Option.some.inj (hb₀.symm.trans hb)
    exact absurd hby hl

end LockSound

/-! ## The outline -/

def lockOutline : Outline slotMachine := ⟨fun _ ↦ True, fun s ↦ ∀ i, LockSound i s⟩

/-- What its owner knows about a bar. -/
def barIs (i : Slot) (b : Bar) (t : Thread) (h : b.owner i = t) : lockOutline.Assertion t where
  holds s := barOf i s.trace = some b
  stable _ hl _ hs' hb := (hs'.2 i).barOf_of_other hb (h ▸ hl)

/-- Thread `t` has nothing left to do about the bar of slot `i`. -/
def settled (i : Slot) (t : Thread) : lockOutline.Assertion t where
  holds s := ∀ b, barOf i s.trace = some b → b.owner i = t → b.Settled
  stable {s l x} _ hl _ hs' h b' hb' howner := by
    rw [Snap.log_trace] at hb'
    cases hm : move? i l with
    | none =>
      rw [barOf_append_of_none hm] at hb'
      exact h b' hb' howner
    | some m =>
      obtain ⟨b, hb, hmove⟩ := (barOf_append_of_some hm).mp hb'
      obtain ⟨b₀, hb₀, hby⟩ := (always_append_singleton.mp (hs'.2 i).owned).2 m hm
      obtain rfl : b₀ = b := Option.some.inj (hb₀.symm.trans hb)
      refine hmove.settled (i := i) fun hsame ↦ hl ?_
      rw [hby, ← hsame, howner]

/-- Thread `t` has nothing left to do about any bar. -/
def resting (t : Thread) : lockOutline.Assertion t := .all fun i ↦ settled i t

/-- Thread `t` is responsible for the bar of slot `i`, and has nothing left to do about the
others. -/
def busy (i : Slot) (b : Bar) (t : Thread) (h : b.owner i = t) : lockOutline.Assertion t :=
  (barIs i b t h).and (.all fun j : {j // j ≠ i} ↦ settled j.1 t)

/-- An operation that moves no bar. -/
def SlotOp.Still (o : SlotOp) : Prop := ∀ i t r, move? i (.op t o r) = none

/-- What is said about the bars survives operations that move none. -/
theorem still_frame {α : Type} {p : SlotProg α} {P : lockOutline.Assertion t}
    (hP : ∀ s s' : SlotSnap, (∀ i, barOf i s'.trace = barOf i s.trace) → P s → P s')
    (hp : p.Uses SlotOp.Still) : lockOutline.Triple t P p fun _ ↦ P := by
  refine .frame hp fun o ho s r x hs h hexec _ ↦ ⟨fun i ↦ ?_, ?_⟩
  · exact (hs.2 i).stay hexec (ho i t r)
  · exact hP s _ (fun i ↦ barOf_append_of_none (ho i t r) s.trace) h

theorem resting_congr {s' : SlotSnap} (h : ∀ i, barOf i s'.trace = barOf i s.trace)
    (hs : resting t s) : resting t s' := by
  intro i b hb
  rw [h i] at hb
  exact hs i b hb

theorem busy_congr {s' : SlotSnap} {hb : b.owner i = t}
    (h : ∀ i, barOf i s'.trace = barOf i s.trace) (hs : busy i b t hb s) : busy i b t hb s' := by
  refine ⟨(h i).trans hs.1, fun j b' hb' ↦ ?_⟩
  rw [h j] at hb'
  exact hs.2 j b' hb'

/-- The owner of a bar makes a move. What the move is may depend on the answer, and whether it is
allowed on what the state is known to be. -/
theorem move_call {o : SlotOp} {m : o.Resp → Move} {R : o.Resp → lockOutline.Assertion t}
    (hb : b.owner i = t) (hm : ∀ r, move? i (.op t o r) = some (m r))
    (hother : ∀ j ≠ i, ∀ r, move? j (.op t o r) = none)
    (h : ∀ s : SlotSnap, ∀ r, b.Matches i s.state → o.Answers r s.state →
      ∃ b', Bar.Moves (lockDir i) b (m r) b' ∧ ∀ s' : SlotSnap, barOf i s'.trace = some b' →
        (∀ j ≠ i, settled j t s') → R r s') :
    lockOutline.Triple t (busy i b t hb) (perform o) R := by
  refine .call fun s r x hs hbusy hexec _ ↦ ?_
  obtain ⟨hbar, helse⟩ := hbusy
  obtain ⟨b', hmove, hR⟩ := h s r ((hs.2 i).matches_bar hbar) (SlotOp.exec_eq_some.mp hexec).1
  constructor
  · intro j
    by_cases hji : j = i
    · subst hji
      exact (hs.2 j).move hexec (hm r) hbar hmove (congrArg some hb.symm)
    · exact (hs.2 j).stay hexec (hother j hji r)
  · refine hR _ ?_ fun j hji b'' hb'' ↦ ?_
    · rw [Snap.log_trace, barOf_append_of_some (hm r)]
      exact ⟨b, hbar, hmove⟩
    · rw [Snap.log_trace, barOf_append_of_none (hother j hji r)] at hb''
      exact helse ⟨j, hji⟩ b'' hb''

/-- The rest that a move may lead to. -/
theorem resting_of_bar {b' : Bar} (hsettled : b'.owner i = t → b'.Settled)
    (hbar : barOf i s.trace = some b') (helse : ∀ j ≠ i, settled j t s) : resting t s := by
  intro j
  by_cases hji : j = i
  · subst hji
    intro b'' hb'' howner
    obtain rfl : b' = b'' := Option.some.inj (hbar.symm.trans hb'')
    exact hsettled howner
  · exact helse j hji

/-- The lock state is set on the way. -/
theorem become_busy {st : LockState} (hb : b.owner i = t)
    (hmove : Bar.Moves (lockDir i) b (.become st) b') (hb' : b'.owner i = t) :
    lockOutline.Triple t (busy i b t hb) (perform (.setLockSt i st)) fun _ ↦ busy i b' t hb' := by
  refine move_call (m := fun _ ↦ .become st) hb (fun _ ↦ if_pos rfl) ?_ ?_
  · exact fun j hji _ ↦ if_neg (Ne.symm hji)
  · exact fun _ _ _ _ ↦ ⟨b', hmove, fun _ hbar helse ↦ ⟨hbar, fun j ↦ helse j.1 j.2⟩⟩

/-- The lock state is set at the end. -/
theorem become_resting {st : LockState} (hb : b.owner i = t)
    (hmove : Bar.Moves (lockDir i) b (.become st) b') (hb' : b'.owner i = t → b'.Settled) :
    lockOutline.Triple t (busy i b t hb) (perform (.setLockSt i st)) fun _ ↦ resting t := by
  refine move_call (m := fun _ ↦ .become st) hb (fun _ ↦ if_pos rfl) ?_ ?_
  · exact fun j hji _ ↦ if_neg (Ne.symm hji)
  · exact fun _ _ _ _ ↦ ⟨b', hmove, fun _ hbar helse ↦ resting_of_bar hb' hbar helse⟩

/-! ## The routines -/

/-- A change of the bar is requested: the lock state is entered, the direction written down, the
work item queued. It cannot be pending already. -/
theorem request_resting {st : LockState} {p : Bool} (hb : b.owner i = t)
    (hmove : Bar.Moves (lockDir i) b (.become st) (.changing p .entered))
    (hentered : (Bar.changing p .entered).owner i = t)
    (hflagged : (Bar.changing p .flagged).owner i = t) :
    lockOutline.Triple t (busy i b t hb) (do
      perform (.setLockSt i st)
      perform (.setLockPending i p)
      let _ ← perform (.queueWork (.lock i))) fun _ ↦ resting t := by
  refine .bind (become_busy hb hmove hentered) fun _ ↦ ?_
  refine .bind (R := fun _ ↦ busy i (.changing p .flagged) t hflagged) ?_ fun _ ↦
    .bind (R := fun _ ↦ resting t) ?_ fun _ ↦ .ret fun _ _ h ↦ h
  · refine move_call (m := fun _ ↦ .flag p) hentered (fun _ ↦ if_pos rfl) ?_ ?_
    · exact fun j hji _ ↦ if_neg (Ne.symm hji)
    · exact fun _ _ _ _ ↦ ⟨_, .flag, fun _ hbar helse ↦ ⟨hbar, fun j ↦ helse j.1 j.2⟩⟩
  · refine move_call (o := .queueWork (.lock i)) (m := .queue) hflagged (fun _ ↦ if_pos rfl) ?_ ?_
    · exact fun j hji _ ↦ if_neg (Ne.symm hji)
    · intro s fresh hmatches hfresh
      have hnot : Work.lock i ∉ s.state.queue := List.count_eq_zero.mp hmatches.queue
      obtain rfl : fresh = true := hfresh.trans (decide_eq_true hnot)
      exact ⟨.changing p .queued, .queue,
        fun _ hbar helse ↦ resting_of_bar (fun _ ↦ by trivial) hbar helse⟩

/-- Whoever reads the lock state learns where the bar is. -/
theorem readLockSt_call {R : LockState → lockOutline.Assertion t}
    (h : ∀ (s : SlotSnap) b, barOf i s.trace = some b → resting t s → R b.lockSt s) :
    lockOutline.Triple t (resting t) (perform (.readLockSt i)) R := by
  refine .call fun s st x hs hrest hexec _ ↦ ⟨fun j ↦ (hs.2 j).stay hexec rfl, ?_⟩
  obtain ⟨b, hbar, hmatches⟩ := (hs.2 i).lawful
  obtain ⟨hst, rfl⟩ := SlotOp.exec_eq_some.mp hexec
  obtain rfl : st = b.lockSt := hst.trans hmatches.lockSt
  have hsame (j : Slot) : barOf j (s.trace ++ [.op t (.readLockSt i) b.lockSt]) = barOf j s.trace :=
    barOf_append_of_none rfl _
  exact h _ b ((hsame i).trans hbar) (resting_congr hsame hrest)

/-- One operation that moves no bar. -/
theorem still_busy {o : SlotOp} {hb : b.owner i = t} (ho : o.Still) :
    lockOutline.Triple t (busy i b t hb) (perform o) fun _ ↦ busy i b t hb :=
  still_frame (fun _ _ ↦ busy_congr) ⟨ho, fun _ ↦ trivial⟩

/-- A routine that leaves the bar where it is. -/
theorem pure_resting {hb : b.owner i = t} (hsettled : b.Settled) :
    lockOutline.Triple t (busy i b t hb) (pure ()) fun _ ↦ resting t :=
  .ret fun _ _ h ↦ resting_of_bar (fun _ ↦ hsettled) h.1 fun j hji ↦ h.2 ⟨j, hji⟩

theorem whenFree_resting (i : Slot) (occupied : ℤ) :
    lockOutline.Triple .worker (busy i .free .worker rfl) (whenFree i occupied)
      fun _ ↦ resting .worker := by
  refine .ite (fun _ ↦ ?_) fun _ ↦ pure_resting trivial
  refine .bind (still_busy fun _ _ _ ↦ rfl) fun now ↦ ?_
  refine .bind (still_busy fun _ _ _ ↦ rfl) fun _ ↦ .bind (still_busy fun _ _ _ ↦ rfl) fun _ ↦ ?_
  exact become_resting rfl .occupy fun _ ↦ trivial

theorem whenTiming_resting (i : Slot) (occupied : ℤ) :
    lockOutline.Triple .worker (busy i .timing .worker rfl) (whenTiming i occupied)
      fun _ ↦ resting .worker := by
  refine .ite (fun _ ↦ ?_) fun _ ↦ ?_
  · refine .bind (still_busy fun _ _ _ ↦ rfl) fun n ↦ .bind (still_busy fun _ _ _ ↦ rfl) fun _ ↦ ?_
    refine .ite (fun _ ↦ ?_) fun _ ↦ pure_resting trivial
    exact become_resting rfl .release fun _ ↦ trivial
  · refine .bind (still_busy fun _ _ _ ↦ rfl) fun now ↦ ?_
    refine .bind (still_busy fun _ _ _ ↦ rfl) fun start ↦
      .bind (still_busy fun _ _ _ ↦ rfl) fun _ ↦ ?_
    refine .ite (fun _ ↦ ?_) fun _ ↦ pure_resting trivial
    exact request_resting rfl .lock rfl rfl

/-- `sensor_work_func` after the measurement. -/
theorem lockMachine_resting (i : Slot) (occupied : ℤ) :
    lockOutline.Triple .worker (resting .worker) (lockMachine i occupied)
      fun _ ↦ resting .worker := by
  let R : LockState → lockOutline.Assertion .worker
    | .free => busy i .free .worker rfl
    | .timing => busy i .timing .worker rfl
    | .waitEmpty => busy i .waitEmpty .worker rfl
    | .locking | .locked | .unlocking => resting .worker
  refine .bind (readLockSt_call (R := R) fun s b hbar hrest ↦ ?_) fun st ↦ ?_
  · cases b with
    | free | timing | waitEmpty => exact ⟨hbar, fun j ↦ hrest j.1⟩
    | locked => exact hrest
    | changing lock stage => cases lock <;> exact hrest
  · cases st with
    | free => exact whenFree_resting i occupied
    | timing => exact whenTiming_resting i occupied
    | waitEmpty =>
      refine .ite (fun _ ↦ ?_) fun _ ↦ pure_resting trivial
      exact become_resting rfl .empty fun _ ↦ trivial
    | _ => exact .ret fun _ _ h ↦ h

theorem sensorWorkFunc_resting (i : Slot) :
    lockOutline.Triple .worker (resting .worker) (sensorWorkFunc i) fun _ ↦ resting .worker := by
  have hstill {o : SlotOp} (ho : o.Publishes) : o.Still := by
    cases o <;> first | exact fun _ _ _ ↦ rfl | exact ho.elim
  refine .bind (still_frame (fun _ _ ↦ resting_congr) ⟨fun _ _ _ ↦ rfl, fun _ ↦ trivial⟩) fun r ↦ ?_
  obtain ⟨start, stop⟩ := r
  refine .ite (fun _ ↦ ?_) fun _ ↦ .ret fun _ _ h ↦ h
  exact .bind (still_frame (fun _ _ ↦ resting_congr) ((updateStatus_uses i _).mono fun o ↦ hstill))
    fun _ ↦ lockMachine_resting i _

theorem btnIsr_resting (i : Slot) :
    lockOutline.Triple (.button i) (resting (.button i)) (btnIsr i)
      fun _ ↦ resting (.button i) := by
  have hframe {o : SlotOp} (ho : o.Still) : lockOutline.Triple (.button i) (resting (.button i))
      (perform o) fun _ ↦ resting (.button i) :=
    still_frame (fun _ _ ↦ resting_congr) ⟨ho, fun _ ↦ trivial⟩
  let R (st : LockState) : lockOutline.Assertion (.button i) :=
    if st = .locked then busy i .locked (.button i) rfl else resting (.button i)
  refine .bind (hframe fun _ _ _ ↦ rfl) fun now ↦ .bind (hframe fun _ _ _ ↦ rfl) fun last ↦ ?_
  refine .ite (fun _ ↦ .ret fun _ _ h ↦ h) fun _ ↦ .bind (hframe fun _ _ _ ↦ rfl) fun _ ↦ ?_
  refine .bind (readLockSt_call (R := R) fun s b hbar hrest ↦ ?_) fun st ↦
    .ite (fun hst ↦ ?_) fun hst ↦ ?_
  · cases b with
    | locked => exact ⟨hbar, fun j ↦ hrest j.1⟩
    | changing lock stage => cases lock <;> exact hrest
    | _ => exact hrest
  · subst hst
    exact request_resting rfl .unlock rfl rfl
  · have hR : R st = resting (.button i) := if_neg hst
    rw [hR]
    exact .ret fun _ _ h ↦ h

/-- The work item turns the bar from end to end, in the direction that was requested. -/
theorem lockWorkFunc_resting (i : Slot) (p : Bool)
    (hp : (Bar.changing p .started).owner i = .worker) :
    lockOutline.Triple .worker (busy i (.changing p .started) .worker hp) (lockWorkFunc i)
      fun _ ↦ resting .worker := by
  have hturning (k : ℕ) : (Bar.changing p (.turning k)).owner i = .worker := by cases p <;> rfl
  let A (k : ℕ) := busy i (.changing p (.turning k)) .worker (hturning k)
  have hread : lockOutline.Triple .worker (busy i (.changing p .started) .worker hp)
      (perform (.readLockPending i)) fun r ↦ (A 0).and (.pure (r = p)) := by
    refine move_call (o := .readLockPending i) (m := .read) hp (fun _ ↦ if_pos rfl) ?_ ?_
    · exact fun j hji _ ↦ if_neg (Ne.symm hji)
    · intro s r hmatches hr
      obtain rfl : r = p := hr.trans (hmatches.pending p rfl)
      exact ⟨_, .read, fun _ hbar helse ↦ ⟨⟨hbar, fun j ↦ helse j.1 j.2⟩, rfl⟩⟩
  have hstep (k : ℕ) (hk : k < lockSteps) : lockOutline.Triple .worker (A k)
      (perform (.stepperStep i (Bar.turnDir (lockDir i) p))) fun _ ↦ A (k + 1) := by
    refine move_call (m := fun _ ↦ .step (Bar.turnDir (lockDir i) p)) (hturning k)
      (fun _ ↦ if_pos rfl) ?_ ?_
    · exact fun j hji _ ↦ if_neg (Ne.symm hji)
    · exact fun _ _ _ _ ↦ ⟨_, .step hk, fun _ hbar helse ↦ ⟨hbar, fun j ↦ helse j.1 j.2⟩⟩
  have hfinish :
      lockOutline.Triple .worker (A lockSteps) (perform (.setLockSt i (Bar.goal p).lockSt))
      fun _ ↦ resting .worker :=
    become_resting (hturning lockSteps) .finish fun _ ↦ by cases p <;> trivial
  have hprintk (line : LogLine) : lockOutline.Triple .worker (resting .worker)
      (perform (.printk line)) fun _ ↦ resting .worker :=
    still_frame (fun _ _ ↦ resting_congr) ⟨fun _ _ _ ↦ rfl, fun _ ↦ trivial⟩
  refine .bind hread fun r ↦ .of_pure (fun _ _ h ↦ h.2) fun hr ↦ .pre (fun _ _ h ↦ h.1) ?_
  subst hr
  refine .bind (.times lockSteps hstep) fun _ ↦ .bind (still_busy fun _ _ _ ↦ rfl) fun _ ↦ ?_
  cases r with
  | true => exact .bind hfinish fun _ ↦ hprintk _
  | false => exact .bind hfinish fun _ ↦ hprintk _

/-- The work queue starts `lock_work`: the bar was waiting for it. -/
theorem start_lockWork (hs : lockOutline.Good s) (hrest : resting .worker s)
    (hx : slotMachine.Emits s.state (.start .worker (.work (.lock i))) x)
    (hhead : s.state.queue.head? = some (.lock i)) :
    ∃ p, ∃ hp : (Bar.changing p .started).owner i = .worker,
      lockOutline.inv (s.log x (.start .worker (.work (.lock i))))
        ∧ busy i (.changing p .started) .worker hp
            (s.log x (.start .worker (.work (.lock i)))) := by
  obtain ⟨b, hbar, hmatches⟩ := (hs.2 i).lawful
  have hqueued : b.Queued := by
    by_contra hnot
    have hcount := hmatches.queue
    rw [if_neg hnot, Driver.count_eq_tail hhead, if_pos rfl] at hcount
    omega
  obtain ⟨p, rfl⟩ : ∃ p, b = .changing p .queued := by
    cases b with
    | changing p stage =>
      cases stage with
      | queued => exact ⟨p, rfl⟩
      | _ => exact hqueued.elim
    | _ => exact hqueued.elim
  have howner (stage : Stage) (h : stage = .queued ∨ stage = .started) :
      (Bar.changing p stage).owner i = .worker := by
    rcases h with rfl | rfl <;> cases p <;> rfl
  have hm : move? i (.start .worker (.work (.lock i))) = some .start := if_pos rfl
  have hother (j : Slot) (hji : j ≠ i) : move? j (.start .worker (.work (.lock i))) = none :=
    if_neg (Ne.symm hji)
  refine ⟨p, howner _ (.inr rfl), fun j ↦ ?_, ?_, fun ⟨j, hji⟩ b' hb' ↦ ?_⟩
  · by_cases hji : j = i
    · subst hji
      exact (hs.2 j).move hx hm hbar .start (congrArg some (howner _ (.inl rfl)).symm)
    · exact (hs.2 j).stay hx (hother j hji)
  · exact (barOf_append_of_some hm).mpr ⟨_, hbar, .start⟩
  · rw [Snap.log_trace, barOf_append_of_none (hother j hji)] at hb'
    exact hrest j b' hb'

theorem lockOutline_valid : lockOutline.Valid fun t ↦ resting t where
  ext _ hext _ i := ((‹lockOutline.Good _›).2 i).stay hext rfl
  start {t j s p x} hs hrest hentry _ := by
    have hx : slotMachine.Emits s.state (.start t j) x := ⟨p, hentry⟩
    -- any other job begins without a move
    have hstill (hm : ∀ i, move? i (.start t j) = none)
        (h : lockOutline.Triple t (resting t) p fun _ ↦ resting t) :
        lockOutline.inv (s.log x (.start t j))
          ∧ lockOutline.wp t p (fun _ ↦ resting t) (s.log x (.start t j)) := by
      have hinv : lockOutline.inv (s.log x (.start t j)) := fun i ↦ (hs.2 i).stay hx (hm i)
      exact ⟨hinv, h _ ⟨trivial, hinv⟩
        (resting_congr (fun i ↦ barOf_append_of_none (hm i) s.trace) hrest)⟩
    obtain ⟨w, rfl, rfl, rfl, hhead, -⟩ | ⟨rfl, rfl, rfl, -⟩ | ⟨k, rfl, rfl, rfl, -⟩ :=
      slotEntry_cases hentry
    · cases w with
      | sensor i => exact hstill (fun _ ↦ rfl) (sensorWorkFunc_resting i)
      | lock i =>
        obtain ⟨p, hp, hinv, hbusy⟩ := start_lockWork hs hrest hx hhead
        exact ⟨hinv, lockWorkFunc_resting i p hp _ ⟨trivial, hinv⟩ hbusy⟩
    · have hmeasures {o : SlotOp} (ho : o.Measures) : o.Still := by
        cases o <;> first | exact fun _ _ _ ↦ rfl | exact ho.elim
      exact hstill (fun _ ↦ rfl) (still_frame (fun _ _ ↦ resting_congr)
        (measureTimerCb_uses.mono fun o ↦ hmeasures))
    · exact hstill (fun _ ↦ rfl) (btnIsr_resting k)

/-- In every run all moves are allowed, and no thread ends a job with a change half done. -/
theorem lock_holds {c : SlotConfig} (hc : SlotReachable c) :
    lockOutline.Holds (fun t ↦ resting t) c := by
  refine lockOutline_valid.reachable (fun i ↦ ?_) (fun t i b hb _ ↦ ?_) hc fun _ _ ↦ trivial
  · refine ⟨⟨.free, rfl, rfl, rfl, (fun _ h ↦ by cases h), rfl, ?_⟩, always_nil⟩
    simp [Driver.init, SensorDev.init, Bar.position]
  · obtain rfl : .free = b := Option.some.inj hb
    trivial

theorem Bar.position_bounds (h : b.turned ≤ lockSteps) :
    0 ≤ b.position ∧ b.position ≤ lockSteps := by
  cases b with
  | changing p stage =>
    have hk : (stage.turned : ℤ) ≤ lockSteps := Int.ofNat_le.mpr h
    cases p <;> simp [position] <;> omega
  | locked => exact ⟨by simp [position], Int.le_refl _⟩
  | _ => exact ⟨Int.le_refl _, by simp [position]⟩

/-- **The bar.** Where the bar is follows from the lock state wherever it is at rest, and on the way
it never leaves the range; the motor turns `LOCK_STEPS` times one way, then as often back, and so
on. Everything that is done to the slot is a sequence of allowed moves, so a change that is entered
goes through all its stages, and once its work item is queued exactly one is queued or running until
the bar has turned: one that is queued is in the queue once, and no thread ends a job in between. -/
theorem lock_actuator {c : SlotConfig} (hc : SlotReachable c) (i : Slot) :
    ((c.state.sensor i).lockSt ∈ [.free, .timing, .waitEmpty] → (c.state.sensor i).position = 0)
      ∧ ((c.state.sensor i).lockSt = .locked → (c.state.sensor i).position = lockSteps)
      ∧ (0 ≤ (c.state.sensor i).position ∧ (c.state.sensor i).position ≤ lockSteps)
      ∧ (0 ≤ (c.state.sensor i).motorStep ∧ (c.state.sensor i).motorStep ≤ 7)
      ∧ Bar.steps (moves i c.trace)
        = (List.range (Bar.steps (moves i c.trace)).length).map (Bar.scheduled (lockDir i))
      ∧ ∃ b, barOf i c.trace = some b ∧ (c.state.sensor i).lockSt = b.lockSt
        ∧ c.state.queue.count (.lock i) = (if b.Queued then 1 else 0)
        ∧ ∀ t, c.thread t = none → b.owner i = t → b.Settled := by
  have hholds := lock_holds hc
  obtain ⟨b, hbar, hst, hqueue, -, hposition, hstep⟩ := (hholds.1 i).lawful
  refine ⟨fun hmem ↦ ?_, fun hlocked ↦ ?_, ?_, ?_, (Bar.run_steps hbar).1, b, hbar, hst, hqueue, ?_⟩
  · rw [hposition]
    rw [hst] at hmem
    cases b with
    | locked => simp [Bar.lockSt] at hmem
    | changing p stage => cases p <;> simp [Bar.lockSt] at hmem
    | _ => rfl
  · rw [hposition]
    rw [hst] at hlocked
    cases b with
    | locked => rfl
    | changing p stage => cases p <;> cases hlocked
    | _ => cases hlocked
  · rw [hposition]
    exact Bar.position_bounds (Bar.turned_le_of_run hbar)
  · rw [hstep]
    omega
  · exact fun t ht howner ↦ hholds.idle_of_none ht i b hbar howner

/-- A vehicle stays long enough, and the bar comes up. -/
theorem lock_actuator_first : ∃ c, SlotReachable c ∧ (c.state.sensor 0).lockSt = .locked
    ∧ (c.state.sensor 0).position = 341 := by
  have hvalid : ValidEcho (ktimeToUs (290000 - 0)) := by decide
  have hocc : occupiedOf (echoCm (ktimeToUs (290000 - 0))) ≠ 0 := by decide
  have helapsed : lockTimeoutMs ≤ ktimeToMs (10000000000 - 0) := by decide
  obtain ⟨c, hc, -, -, -, hlocked⟩ :=
    exists_locked (c := .init .init) (i := 0) rfl rfl rfl rfl hvalid hocc
    helapsed
  exact ⟨c, hc, hlocked, (lock_actuator hc 0).2.1 hlocked⟩

end ParkingService.Slots
