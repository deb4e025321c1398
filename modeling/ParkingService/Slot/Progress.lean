import Mathlib.Algebra.Order.BigOperators.Group.Finset
import ParkingService.Concurrency.Service
import ParkingService.Slot.Lock

/-!
# Nothing waits for ever in the driver

Everything the driver does about a slot goes through one work queue with one worker: a measurement
that is complete waits there to be looked at, and a bar that has been told to turn waits there to be
turned. While it waits, the timer, the buttons and the echo pins go on adding work.

No routine of the driver ever has to wait for another one, a work item is pending once at most, and
each takes a bounded number of operations. `work_carried_out` adds this up: however the interrupts
come, a measurement is taken up and a rotation is over after so many operations of the worker.
-/

namespace ParkingService.Slots

open Concurrency

/-! ## What a work item takes -/

/-- Operations of `sensor_work_func` at most. -/
def sensorCost : ℕ := 14

/-- Operations of `lock_work_func`. -/
def lockCost : ℕ := lockSteps + 4

def Work.cost : Work → ℕ
  | .sensor _ => sensorCost
  | .lock _ => lockCost

theorem updateStatus_within (i : Slot) (cm : ℤ) : (updateStatus i cm).Within 6 := by
  refine fun _ _ _ _ ↦ ?_
  exact Prog.within_ite (fun _ _ ↦ trivial) trivial

theorem whenFree_within (i : Slot) (occupied : ℤ) : (whenFree i occupied).Within 6 :=
  Prog.within_ite (fun _ _ _ _ ↦ trivial) trivial

theorem whenTiming_within (i : Slot) (occupied : ℤ) : (whenTiming i occupied).Within 6 :=
  Prog.within_ite (fun _ _ ↦ Prog.within_ite (fun _ ↦ trivial) trivial)
    fun _ _ _ ↦ Prog.within_ite (fun _ _ _ ↦ trivial) trivial

theorem lockMachine_within (i : Slot) (occupied : ℤ) : (lockMachine i occupied).Within 7 := by
  intro st
  cases st with
  | free => exact whenFree_within i occupied
  | timing => exact whenTiming_within i occupied
  | waitEmpty => exact Prog.within_ite (fun _ ↦ trivial) trivial
  | _ => trivial

theorem sensorWorkFunc_within (i : Slot) : (sensorWorkFunc i).Within sensorCost :=
  fun _ ↦ Prog.within_ite
    (Prog.Within.bind (m := 6) (n := 7) (updateStatus_within i _) fun _ ↦ lockMachine_within i _)
    trivial

theorem rotation_within (i : Slot) (dir : ℤ) :
    (.times lockSteps (perform (.stepperStep i dir)) : SlotProg Unit).Within lockSteps := by
  have hsteps : (.times lockSteps (perform (.stepperStep i dir)) : SlotProg Unit).Within
      (lockSteps * 1) := Prog.within_times Prog.within_call _
  rwa [Nat.mul_one] at hsteps

theorem lockWorkFunc_within (i : Slot) : (lockWorkFunc i).Within lockCost := by
  refine Prog.Within.mono (m := 1 + (lockSteps + (1 + 2))) ?_ (Nat.le_refl _)
  refine Prog.within_call.bind fun _ ↦ (rotation_within i _).bind fun _ ↦ ?_
  exact Prog.within_call.bind fun _ ↦ Prog.within_ite (fun _ _ ↦ trivial) fun _ _ ↦ trivial

theorem Work.func_within (w : Work) : w.func.Within w.cost := by
  cases w with
  | sensor i => exact sensorWorkFunc_within i
  | lock i => exact lockWorkFunc_within i

/-- The operation that a measurement waits for. -/
def SlotOp.TakesEcho (i : Slot) : SlotOp → Prop
  | .takeEcho j => j = i
  | _ => False

/-- The operation with which a rotation is over. -/
def SlotOp.EndsRotation (i : Slot) : SlotOp → Prop
  | .setLockSt j st => j = i ∧ (st = .locked ∨ st = .waitEmpty)
  | _ => False

theorem sensorWorkFunc_reaches (i : Slot) :
    (sensorWorkFunc i).Reaches (SlotOp.TakesEcho i) 1 := .inl rfl

theorem lockWorkFunc_reaches (i : Slot) :
    (lockWorkFunc i).Reaches (SlotOp.EndsRotation i) (lockSteps + 3) := by
  refine Prog.Reaches.mono (m := 1 + (lockSteps + (1 + 1))) ?_ (Nat.le_refl _)
  refine Prog.within_call.reaches fun doLock ↦ (rotation_within i _).reaches fun _ ↦ ?_
  refine Prog.within_call.reaches fun _ ↦ ?_
  cases doLock with
  | true => exact Prog.reaches_call ⟨rfl, .inl rfl⟩ _ 0
  | false => exact Prog.reaches_call ⟨rfl, .inr rfl⟩ _ 0

/-! ## The work queue -/

theorem Driver.queueWork_prefix (s : Driver) (w : Work) : s.queue <+: (s.queueWork w).queue := by
  unfold queueWork
  split
  · exact List.prefix_refl _
  · exact List.prefix_append _ _

theorem Driver.queueWork_nodup {s : Driver} (w : Work) (h : s.queue.Nodup) :
    (s.queueWork w).queue.Nodup := by
  unfold queueWork
  split
  · exact h
  · have hw := h.concat ‹w ∉ s.queue›
    rwa [List.concat_eq_append] at hw

/-- What an operation or an interrupt may do to the queue. -/
theorem SlotOp.effect_queue (o : SlotOp) (s : Driver) :
    (o.effect s).queue = s.queue ∨ ∃ w, (o.effect s).queue = (s.queueWork w).queue := by
  cases o with
  | queueWork w => exact .inr ⟨w, rfl⟩
  | _ => exact .inl rfl

theorem SlotEvent.exec_queue (e : SlotEvent) (s : Driver) :
    (e.exec s).queue = s.queue ∨ ∃ w, (e.exec s).queue = (s.queueWork w).queue := by
  obtain ⟨i, now, pinVal⟩ := e
  obtain ⟨-, -, h⟩ | ⟨-, -, h⟩ | ⟨-, -, h⟩ := SlotEvent.exec_cases i now pinVal s
  · exact .inl (by rw [h, Driver.modify_queue])
  · refine .inr ⟨.sensor i, ?_⟩
    rw [h, Driver.queueWork, Driver.queueWork, Driver.modify_queue]
    split <;> rfl
  · exact .inl (by rw [h])

/-- The worker serves the queue. -/
def workQueue : Service slotMachine Work where
  server := .worker
  job := .work
  queue s := s.queue
  cost := Work.cost
  take {j s p x} h := by
    obtain ⟨w, -, rfl, rfl, hhead, rfl⟩ | ⟨ht, -⟩ | ⟨k, ht, -⟩ := slotEntry_cases h
    · exact ⟨w, rfl, (List.cons_head?_tail hhead).symm, w.func_within⟩
    · cases ht
    · cases ht
  entry {t j s p x} ht h := by
    obtain ⟨w, rfl, -⟩ | ⟨-, -, -, rfl⟩ | ⟨k, -, -, -, rfl⟩ := slotEntry_cases h
    · exact absurd rfl ht
    · exact List.prefix_refl _
    · exact List.prefix_refl _
  exec {o r s x} h := by
    obtain ⟨-, rfl⟩ := SlotOp.exec_eq_some.mp h
    obtain h | ⟨w, h⟩ := o.effect_queue s
    · rw [h]
    · exact h ▸ s.queueWork_prefix w
  ext {e s x} h := by
    obtain rfl : e.exec s = x := Option.some.inj h
    obtain h | ⟨w, h⟩ := e.exec_queue s
    · rw [h]
    · exact h ▸ s.queueWork_prefix w

/-- No work item is pending twice. -/
theorem queue_nodup {c : SlotConfig} (hc : SlotReachable c) : c.state.queue.Nodup := by
  refine hc.invariant (I := fun s ↦ s.state.queue.Nodup) List.nodup_nil ?_
  intro s l x hs hx
  have hqueue (y : Driver)
      (h : y.queue = s.state.queue ∨ ∃ w, y.queue = (s.state.queueWork w).queue) :
      y.queue.Nodup := by
    obtain h | ⟨w, h⟩ := h
    · exact h ▸ hs
    · exact h ▸ Driver.queueWork_nodup w hs
  cases l with
  | start t j =>
    obtain ⟨p, hentry⟩ := hx
    obtain ⟨w, -, -, -, -, rfl⟩ | ⟨-, -, -, rfl⟩ | ⟨k, -, -, -, rfl⟩ := slotEntry_cases hentry
    · exact hs.tail
    · exact hs
    · exact hs
  | op t o r =>
    obtain ⟨-, rfl⟩ := emits_op.mp hx
    exact hqueue _ (o.effect_queue _)
  | ext e =>
    obtain rfl : e.exec s.state = x := Option.some.inj hx
    exact hqueue _ (e.exec_queue _)

/-- All that can be pending. -/
def allWork : Finset Work := Finset.univ.image .sensor ∪ Finset.univ.image .lock

theorem load_le {ws : List Work} (h : ws.Nodup) :
    workQueue.load ws ≤ 2 * (sensorCost + lockCost) := by
  have hload : workQueue.load ws = (ws.map Work.cost).sum := by
    clear h
    induction ws with
    | nil => rfl
    | cons w ws ih => rw [Service.load, ih, List.map_cons, List.sum_cons]; rfl
  have hsub : ws.toFinset ⊆ allWork := fun w _ ↦ by cases w <;> simp [allWork]
  calc workQueue.load ws = ∑ w ∈ ws.toFinset, w.cost := hload.trans (List.sum_toFinset _ h).symm
    _ ≤ ∑ w ∈ allWork, w.cost := Finset.sum_le_sum_of_subset hsub
    _ = 2 * (sensorCost + lockCost) := by decide

theorem waits_of_mem {c : SlotConfig} {w : Work} (hc : SlotReachable c)
    (hw : w ∈ c.state.queue) :
    workQueue.Waits w (lockCost + (2 * (sensorCost + lockCost) - w.cost)) c := by
  obtain ⟨pre, post, hq⟩ := List.append_of_mem hw
  have hleft : workQueue.Left lockCost c := by
    refine Service.left_of_reachable (fun w ↦ ?_) hc
    cases w with
    | sensor i => exact (by decide : sensorCost ≤ lockCost)
    | lock i => exact Nat.le_refl _
  refine ⟨pre, post, lockCost, hq, hleft, Nat.add_le_add_left ?_ _⟩
  have hnodup : (pre ++ [w]).Nodup := by
    have hnodup := queue_nodup hc
    rw [hq, List.append_cons] at hnodup
    exact hnodup.of_append_left
  have hload := load_le hnodup
  have hsum : workQueue.load (pre ++ [w]) = workQueue.load pre + w.cost := by
    rw [Service.load_append]
    rfl
  omega

/-! ## What a rotation comes to -/

/-- A bar that changes goes on changing, in the same direction, until it has got there. -/
theorem Bar.goal_mem_of_changing {dir : ℤ} {p : Bool} {stage : Stage} {b : Bar} {ms : List Move}
    {st : LockState} (h : ms.foldlM (move dir) (changing p stage) = some b)
    (hst : .become st ∈ ms) : .become (goal p).lockSt ∈ ms := by
  induction ms generalizing stage with
  | nil => cases hst
  | cons m ms ih =>
    rw [List.foldlM_cons, Option.bind_eq_bind, Option.bind_eq_some_iff] at h
    obtain ⟨b₁, hmove, hrest⟩ := h
    have hmoves := move_eq_some.mp hmove
    have hstay {stage' : Stage} (hb : b₁ = changing p stage') (hm : ∀ st, m ≠ .become st) :
        .become (goal p).lockSt ∈ m :: ms := by
      subst hb
      obtain rfl | hst := List.mem_cons.mp hst
      · exact absurd rfl (hm _)
      · exact List.mem_cons_of_mem _ (ih hrest hst)
    cases hmoves with
    | flag | queue | start | read | step => exact hstay rfl fun _ h ↦ by cases h
    | finish => exact List.mem_cons_self

/-- What the lock state will be after the rotation that is under way. -/
def LockState.goal (st : LockState) : LockState := if st = .locking then .locked else .waitEmpty

theorem goal_of_queued {c c' : SlotConfig} {i : Slot} {st : LockState} {t : Thread}
    (hc : SlotReachable c) (hqueued : .lock i ∈ c.state.queue) (hsteps : slotMachine.Steps c c')
    (hl : .op t (.setLockSt i st) () ∈ c'.since c.toSnap) :
    ∃ t, .op t (.setLockSt i (c.state.sensor i).lockSt.goal) () ∈ c'.since c.toSnap := by
  obtain ⟨b, hbar, hmatches⟩ := ((lock_holds hc).1 i).lawful
  obtain ⟨b', hbar', -⟩ := ((lock_holds (hc.trans hsteps)).1 i).lawful
  obtain ⟨p, rfl⟩ : ∃ p, b = .changing p .queued := by
    have hcount := hmatches.queue
    have hpos := List.count_pos_iff.mpr hqueued
    by_cases hb : b.Queued
    · cases b with
      | changing p stage =>
        cases stage with
        | queued => exact ⟨p, rfl⟩
        | _ => exact hb.elim
      | _ => exact hb.elim
    · rw [if_neg hb] at hcount
      omega
  have hgoal : (c.state.sensor i).lockSt.goal = (Bar.goal p).lockSt := by
    rw [hmatches.lockSt]
    cases p <;> rfl
  have hmoves : moves i c'.trace = moves i c.trace ++ moves i (c'.since c.toSnap) := by
    rw [← Snap.trace_append_since (s := c'.toSnap) (Machine.Steps.trace_prefix hsteps), moves,
      List.filterMap_append]
    rfl
  rw [barOf, Bar.run, hmoves, List.foldlM_append] at hbar'
  rw [barOf, Bar.run] at hbar
  rw [hbar] at hbar'
  have hmem : .become st ∈ moves i (c'.since c.toSnap) :=
    List.mem_filterMap.mpr ⟨_, hl, if_pos rfl⟩
  obtain ⟨l, hl, hmove⟩ := List.mem_filterMap.mp (Bar.goal_mem_of_changing hbar' hmem)
  rw [hgoal]
  cases makes_of_move hmove with
  | become => exact ⟨_, hl⟩

/-! ## Every run -/

/-- No operation of the driver has to wait. -/
theorem SlotOp.exec_total (o : SlotOp) (s : Driver) : ∃ r x, o.exec r s = some x := by
  have hanswers : ∃ r, o.Answers r s := by
    cases o with
    | ktime => exact ⟨(0 : ℤ), trivial⟩
    | request | takeEcho | readOccupied | load | readLockSt | readLockPending | queueWork =>
      exact ⟨_, rfl⟩
    | _ => exact ⟨(), trivial⟩
  obtain ⟨r, hr⟩ := hanswers
  exact ⟨r, _, SlotOp.exec_eq_some.mpr ⟨hr, rfl⟩⟩

/-- A worker that has nothing else to do takes up what is pending. -/
theorem entry_worker {s : Driver} (h : s.queue ≠ []) :
    ∃ j p x, slotMachine.entry .worker j s = some (p, x) := by
  obtain ⟨w, ws, hq⟩ := List.exists_cons_of_ne_nil h
  have hhead : s.queue.head? = some w := by rw [hq]; rfl
  exact ⟨.work w, _, _, if_pos hhead⟩

theorem func_of_entry {w : Work} {s x : Driver} {p : SlotProg Unit}
    (h : slotEntry .worker (.work w) s = some (p, x)) : p = w.func := by
  obtain ⟨w', -, hj, rfl, -⟩ | ⟨ht, -⟩ | ⟨k, ht, -⟩ := slotEntry_cases h
  · rw [Job.work.inj hj]
  · cases ht
  · cases ht

/-- **Nothing waits for ever.** A thread of the driver can always go on, and the worker takes up
what is pending. However the interrupts come, a measurement that is complete is looked at before the
worker has performed 1050 more operations, and a rotation that is pending is over, one way or the
other as the lock state asks for, before it has performed 1062 more. -/
theorem work_carried_out {c : SlotConfig} (hc : SlotReachable c) :
    (∀ t o k, c.thread t = some (.op o k) → ∃ r x, slotMachine.exec o r c.state = some x)
      ∧ (c.thread .worker = none → c.state.queue ≠ [] →
        ∃ j p x, slotMachine.entry .worker j c.state = some (p, x))
      ∧ ∀ i c', slotMachine.Steps c c' →
        (.sensor i ∈ c.state.queue → (∃ r, .op .worker (.takeEcho i) r ∈ c'.since c.toSnap)
          ∨ Mutex.opsOf .worker (c'.since c.toSnap) < 1050)
        ∧ (.lock i ∈ c.state.queue →
          (∃ t, .op t (.setLockSt i (c.state.sensor i).lockSt.goal) () ∈ c'.since c.toSnap)
            ∨ Mutex.opsOf .worker (c'.since c.toSnap) < 1062) := by
  refine ⟨fun _ o _ _ ↦ o.exec_total _, fun _ ↦ entry_worker, fun i c' hsteps ↦ ⟨fun hw ↦ ?_,
    fun hw ↦ ?_⟩⟩
  · have hgoal {s : Driver} {p : SlotProg Unit} {x : Driver}
        (h : slotMachine.entry .worker (.work (.sensor i)) s = some (p, x)) :
        p.Reaches (SlotOp.TakesEcho i) (0 + 1) := by
      rw [func_of_entry h]
      exact sensorWorkFunc_reaches i
    refine ((waits_of_mem hc hw).carried_out hgoal hsteps).imp ?_ Nat.lt_succ_of_le
    rintro ⟨l, hl, o, r, rfl, ho⟩
    cases o with
    | takeEcho j =>
      obtain rfl : j = i := ho
      exact ⟨r, hl⟩
    | _ => exact ho.elim
  · have hgoal {s : Driver} {p : SlotProg Unit} {x : Driver}
        (h : slotMachine.entry .worker (.work (.lock i)) s = some (p, x)) :
        p.Reaches (SlotOp.EndsRotation i) (lockSteps + 2 + 1) := by
      rw [func_of_entry h]
      exact lockWorkFunc_reaches i
    refine ((waits_of_mem hc hw).carried_out hgoal hsteps).imp ?_ Nat.lt_succ_of_le
    rintro ⟨l, hl, o, r, rfl, ho⟩
    cases o with
    | setLockSt j st =>
      obtain ⟨rfl, -⟩ := ho
      exact goal_of_queued hc hw hsteps hl
    | _ => exact ho.elim

/-- A bar that is to come up. -/
theorem work_carried_out_locking : ∃ c, SlotReachable c ∧ .lock 0 ∈ c.state.queue
    ∧ ∀ c', slotMachine.Steps c c' →
      (∃ t, .op t (.setLockSt 0 (c.state.sensor 0).lockSt.goal) () ∈ c'.since c.toSnap)
        ∨ Mutex.opsOf .worker (c'.since c.toSnap) < 1062 := by
  have hvalid : ValidEcho (ktimeToUs (290000 - 0)) := by decide
  have hocc : occupiedOf (echoCm (ktimeToUs (290000 - 0))) ≠ 0 := by decide
  have helapsed : lockTimeoutMs ≤ ktimeToMs (10000000000 - 0) := by decide
  obtain ⟨c, hc, -, hqueue, -⟩ :=
    exists_locking (c := .init .init) (i := 0) rfl rfl rfl rfl hvalid hocc helapsed
  have hmem : Work.lock 0 ∈ c.state.queue := by simp [hqueue]
  exact ⟨c, hc, hmem, fun c' hsteps ↦ ((work_carried_out hc).2.2 0 c' hsteps).2 hmem⟩

end ParkingService.Slots
