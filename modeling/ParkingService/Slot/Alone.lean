import ParkingService.Slot.Driver

/-!
# Runs that nothing interrupts

What a thread of the driver, or one after the other, may do when nobody else moves: a tick, a whole
measurement, the processing of a reading, a rotation of the bar. Put together they bring a vehicle
to a slot and lock it.
-/

namespace ParkingService.Slots

open Concurrency

variable {i : Slot} {s : SlotSnap} {c : SlotConfig} {Q : Unit → SlotSnap → Prop}

/-! ## A measurement -/

/-- What a tick does to a slot. -/
def SensorDev.requested (d : SensorDev) : SensorDev :=
  if d.state = .idle then { d with state := .waitHigh } else d

theorem measureSlot_requests (h : ∀ s' tr, s'.state = s.state.modify i SensorDev.requested →
      s'.trace = s.trace ++ tr → (∀ l ∈ tr, l.by? = some .timer) → Q () s') :
    SlotMay .timer (measureSlot i) Q s := by
  refine measureSlot_may i (fun _ ↦ ?_) fun _ ↦ ?_
  · refine h _ [_, _] rfl (List.append_assoc _ _ _) fun l hl ↦ ?_
    rcases List.mem_cons.mp hl with rfl | hl
    · rfl
    · rw [List.mem_singleton.mp hl]
      rfl
  · refine h _ [_] rfl rfl fun l hl ↦ ?_
    rw [List.mem_singleton.mp hl]
    rfl

/-- The timer goes round once. -/
theorem exists_requests (hidle : c.thread .timer = none) : ∃ c' tr, slotMachine.Steps c c'
    ∧ c'.thread = c.thread ∧ c'.state.queue = c.state.queue
    ∧ (∀ j, c'.state.sensor j = (c.state.sensor j).requested)
    ∧ c'.trace = c.trace ++ tr ∧ ∀ l ∈ tr, l.by? = some .timer := by
  have hmay : SlotMay .timer measureTimerCb (fun _ s ↦ s.state.queue = c.state.queue
      ∧ (∀ j, s.state.sensor j = (c.state.sensor j).requested)
      ∧ ∃ tr, s.trace = c.trace ++ tr ∧ ∀ l ∈ tr, l.by? = some .timer)
      (c.toSnap.log c.state (.start .timer .tick)) := by
    refine .bind (measureSlot_requests fun s₁ tr₁ hs₁ htr₁ hby₁ ↦ ?_)
    refine measureSlot_requests fun s₂ tr₂ hs₂ htr₂ hby₂ ↦ ⟨?_, fun j ↦ ?_, ?_⟩
    · rw [hs₂, hs₁]
      rfl
    · rw [hs₂, hs₁]
      match j with
      | 0 =>
        have hne : (0 : Slot) ≠ 1 := by decide
        rw [Driver.modify_sensor_of_ne _ _ hne, Driver.modify_sensor_self]
        rfl
      | 1 =>
        have hne : (1 : Slot) ≠ 0 := by decide
        rw [Driver.modify_sensor_self, Driver.modify_sensor_of_ne _ _ hne]
        rfl
    · refine ⟨.start .timer .tick :: (tr₁ ++ tr₂), by simp [htr₂, htr₁], fun l hl ↦ ?_⟩
      rcases List.mem_cons.mp hl with rfl | hl
      · rfl
      · exact (List.mem_append.mp hl).elim (hby₁ l) (hby₂ l)
  obtain ⟨c', hsteps, hthread, hqueue, hsensor, tr, htr, hby⟩ := hmay.steps hidle rfl
  exact ⟨c', tr, hsteps, hthread, hqueue, hsensor, htr, hby⟩

/-- The configuration after an event of the environment. -/
def afterEvent (e : SlotEvent) (c : SlotConfig) : SlotConfig :=
  ⟨c.toSnap.log (e.exec c.state) (.ext e), c.thread⟩

theorem step_afterEvent (e : SlotEvent) (c : SlotConfig) : slotMachine.Step c (afterEvent e c) :=
  .ext rfl

/-- An echo interrupt changes no lock state. -/
theorem lockSt_echoIsr (i j : Slot) (now pinVal : ℤ) (s : Driver) :
    (((SlotEvent.echoIsr i now pinVal).exec s).sensor j).lockSt = (s.sensor j).lockSt := by
  obtain ⟨-, -, h⟩ | ⟨-, -, h⟩ | ⟨-, -, h⟩ := SlotEvent.exec_cases i now pinVal s
  · rw [h]
    exact Driver.modify_sensor_congr _ _ _ _ SensorDev.lockSt fun _ ↦ rfl
  · rw [h, Driver.queueWork_sensor]
    exact Driver.modify_sensor_congr _ _ _ _ SensorDev.lockSt fun _ ↦ rfl
  · rw [h]

/-- A tick and the two edges of an echo. -/
theorem exists_measurement (start stop : ℤ) (htimer : c.thread .timer = none)
    (hidle : (c.state.sensor i).state = .idle) (hqueue : c.state.queue = []) :
    ∃ c' tr, slotMachine.Steps c c' ∧ c'.thread = c.thread ∧ c'.state.queue = [.sensor i]
      ∧ c'.state.sensor i
        = { c.state.sensor i with state := .done, echoStart := start, echoStop := stop }
      ∧ c'.trace = (c.trace ++ tr) ++ [.ext (.echoIsr i start 1), .ext (.echoIsr i stop 0)]
      ∧ (∀ l ∈ tr, l.by? = some .timer)
      ∧ ∀ j, (c'.state.sensor j).lockSt = (c.state.sensor j).lockSt := by
  obtain ⟨c₁, tr, h₁, hthread, hqueue₁, hsensor, htr, hby⟩ := exists_requests htimer
  have hwait : c₁.state.sensor i = { c.state.sensor i with state := .waitHigh } := by
    rw [hsensor, SensorDev.requested, if_pos hidle]
  have hnil : c₁.state.queue = [] := hqueue₁.trans hqueue
  refine ⟨afterEvent (.echoIsr i stop 0) (afterEvent (.echoIsr i start 1) c₁), tr,
    (Relation.ReflTransGen.tail h₁ (step_afterEvent _ _)).tail (step_afterEvent _ _), hthread,
    ?_, ?_, ?_, hby, fun j ↦ ?_⟩
  · simp [afterEvent, SlotEvent.exec, hwait, Driver.queueWork, hnil]
  · simp [afterEvent, SlotEvent.exec, hwait]
  · simp [afterEvent, htr]
  · have hrequested : (c₁.state.sensor j).lockSt = (c.state.sensor j).lockSt := by
      rw [hsensor, SensorDev.requested]
      split <;> rfl
    exact (lockSt_echoIsr _ _ _ _ _).trans ((lockSt_echoIsr _ _ _ _ _).trans hrequested)

/-! ## A reading -/

/-- What the processing of a reading depends on. -/
def SensorDev.control (d : SensorDev) : EchoState × LockState × ℤ :=
  (d.state, d.lockSt, d.occupyStart)

theorem updateStatus_may {cm : ℤ} (h : ∀ s', s'.state.queue = s.state.queue →
      (s'.state.sensor i).control = (s.state.sensor i).control → Q () s') :
    SlotMay .worker (updateStatus i cm) Q s := by
  refine .bind (SlotMay.perform (o := .readOccupied i) _ rfl ?_)
  refine .bind (SlotMay.perform (o := .setDistance i cm) () trivial ?_)
  refine .bind (SlotMay.perform (o := .setOccupied i _) () trivial ?_)
  refine .bind (SlotMay.perform (o := .setLed i _) () trivial ?_)
  split
  · refine .bind (SlotMay.perform (o := .notify) () trivial ?_)
    exact SlotMay.perform (o := .printk _) () trivial
      (h _ rfl (by simp [SlotOp.effect, SensorDev.control]))
  · exact .ret (h _ rfl (by simp [SlotOp.effect, SensorDev.control]))

/-- A valid reading gets as far as the lock state machine. -/
theorem sensorWorkFunc_may {start stop : ℤ} (hstart : (s.state.sensor i).echoStart = start)
    (hstop : (s.state.sensor i).echoStop = stop) (hvalid : ValidEcho (ktimeToUs (stop - start)))
    (h : ∀ s', s'.state.queue = s.state.queue →
      (s'.state.sensor i).control
        = (.idle, (s.state.sensor i).lockSt, (s.state.sensor i).occupyStart) →
      SlotMay .worker (lockMachine i (occupiedOf (echoCm (ktimeToUs (stop - start))))) Q s') :
    SlotMay .worker (sensorWorkFunc i) Q s := by
  refine .bind
    (SlotMay.perform (o := .takeEcho i) (start, stop) (by rw [← hstart, ← hstop]; rfl) ?_)
  change SlotMay .worker (ite _ _ _) Q _
  rw [if_pos hvalid]
  refine .bind (updateStatus_may fun s' hqueue hcontrol ↦ h s' hqueue ?_)
  rw [hcontrol]
  simp [SlotOp.effect, SensorDev.control]

/-- The first reading that finds the slot occupied. -/
theorem lockMachine_may_free (now : ℤ) {occupied : ℤ} (hocc : occupied ≠ 0)
    (hst : (s.state.sensor i).lockSt = .free)
    (h : ∀ s', s'.state.queue = s.state.queue →
      (s'.state.sensor i).control = ((s.state.sensor i).state, .timing, now) → Q () s') :
    SlotMay .worker (lockMachine i occupied) Q s := by
  refine .bind (SlotMay.perform (o := .readLockSt i) .free hst.symm ?_)
  change SlotMay .worker (ite _ _ _) Q _
  rw [if_pos hocc]
  refine .bind (SlotMay.perform (o := .ktime) now trivial ?_)
  refine .bind (SlotMay.perform (o := .store i .occupyStart now) () trivial ?_)
  refine .bind (SlotMay.perform (o := .store i .consecutiveUnoccupied 0) () trivial ?_)
  exact SlotMay.perform (o := .setLockSt i .timing) () trivial
    (h _ rfl (by simp [SlotOp.effect, SensorDev.control, SensorDev.set]))

/-- The reading that is late enough. -/
theorem lockMachine_may_timing (now : ℤ) {occupied : ℤ} (hocc : occupied ≠ 0)
    (hst : (s.state.sensor i).lockSt = .timing)
    (helapsed : lockTimeoutMs ≤ ktimeToMs (now - (s.state.sensor i).occupyStart))
    (hqueue : s.state.queue = [])
    (h : ∀ s' pre post, s'.state.queue = [.lock i] → (s'.state.sensor i).lockPending = true →
      s'.trace = pre ++ .op .worker (.setLockSt i .locking) () :: post → Q () s') :
    SlotMay .worker (lockMachine i occupied) Q s := by
  refine .bind (SlotMay.perform (o := .readLockSt i) .timing hst.symm ?_)
  change SlotMay .worker (ite _ _ _) Q _
  rw [if_neg hocc]
  refine .bind (SlotMay.perform (o := .ktime) now trivial ?_)
  refine .bind (SlotMay.perform (o := .load i .occupyStart) (s.state.sensor i).occupyStart rfl ?_)
  refine .bind (SlotMay.perform (o := .store i .consecutiveUnoccupied 0) () trivial ?_)
  rw [if_pos helapsed]
  refine .bind (SlotMay.perform (o := .setLockSt i .locking) () trivial ?_)
  refine .bind (SlotMay.perform (o := .setLockPending i true) () trivial ?_)
  refine .bind (SlotMay.perform (o := .queueWork (.lock i)) true ?_ (.ret ?_))
  · simp [SlotOp.Answers, SlotOp.effect, hqueue]
  · refine h _ _ [_, _] ?_ ?_ ((List.append_assoc _ _ _).trans (List.append_assoc _ _ _))
    · simp [SlotOp.effect, Driver.queueWork, hqueue]
    · simp [SlotOp.effect]

/-- The motor turns. -/
theorem stepperStep_may (n : ℕ) (dir : ℤ) {Q : Unit → SlotSnap → Prop}
    (h : ∀ s', s'.state.queue = s.state.queue → Q () s') :
    SlotMay .worker (.times n (perform (.stepperStep i dir))) Q s := by
  have hstep (s : SlotSnap) :
      slotMachine.Advances .worker (perform (.stepperStep i dir)) s (.ret ())
        (s.log ((SlotOp.stepperStep i dir).effect s.state)
          (.op .worker (.stepperStep i dir) ())) := by
    have hexec : (SlotOp.stepperStep i dir).exec () s.state
        = some ((SlotOp.stepperStep i dir).effect s.state) := SlotOp.exec_eq_some.mpr ⟨trivial, rfl⟩
    exact .op hexec .refl
  have hqueue (x : Driver) : ((SlotOp.stepperStep i dir).effect^[n] x).queue = x.queue := by
    induction n generalizing x with
    | zero => rfl
    | succ n ih => exact ih _
  exact ⟨(), _, Machine.Advances.times hstep n, h _ (hqueue _)⟩

/-- The rotation of the bar, one way or the other. -/
theorem lockWorkFunc_may {doLock : Bool} (hpending : (s.state.sensor i).lockPending = doLock)
    (h : ∀ s', s'.state.queue = s.state.queue →
      (s'.state.sensor i).lockSt = (if doLock then .locked else .waitEmpty) → Q () s') :
    SlotMay .worker (lockWorkFunc i) Q s := by
  refine .bind (SlotMay.perform (o := .readLockPending i) doLock hpending.symm ?_)
  refine .bind (stepperStep_may lockSteps _ fun s₁ hqueue ↦ ?_)
  refine .bind (SlotMay.perform (o := .deenergize i) () trivial ?_)
  cases doLock with
  | true =>
    refine .bind (SlotMay.perform (o := .setLockSt i .locked) () trivial ?_)
    refine SlotMay.perform (o := .printk .slotLocked) () trivial (h _ hqueue ?_)
    simp [SlotOp.effect]
  | false =>
    refine .bind (SlotMay.perform (o := .setLockSt i .waitEmpty) () trivial ?_)
    refine SlotMay.perform (o := .printk .slotUnlocked) () trivial (h _ hqueue ?_)
    simp [SlotOp.effect]

/-! ## A visit -/

/-- The slot whose bar or sensor a work item is for. -/
def Work.slot : Work → Slot
  | .sensor i | .lock i => i

/-- Operations that set the lock state of this slot, if of any. -/
def SlotOp.SetsAt (i : Slot) : SlotOp → Prop
  | .setLockSt j _ => j = i
  | _ => True

/-- A work item sets the lock state of its own slot only. -/
theorem Work.func_uses (w : Work) : w.func.Uses (SlotOp.SetsAt w.slot) := by
  cases w with
  | sensor i =>
    refine ⟨trivial, fun ⟨start, stop⟩ ↦ ?_⟩
    change Prog.Uses _ (ite _ _ _)
    refine Prog.uses_ite (fun _ ↦ ?_) fun _ ↦ trivial
    refine Prog.uses_bind ((updateStatus_uses _ _).mono fun o ho ↦ ?_) fun _ ↦
      (lockMachine_uses _ _).mono fun o ho ↦ ?_
    · cases o <;> first | exact ho.elim | exact trivial
    · cases o <;> first | exact ho | exact trivial
  | lock i =>
    refine (lockWorkFunc_uses i).mono fun o ho ↦ ?_
    cases o <;> first | exact ho.1 | exact trivial

theorem lockSt_of_setsAt {i j : Slot} (hj : j ≠ i) {o : SlotOp} {r : o.Resp} {x y : Driver}
    (ho : o.SetsAt i) (h : slotMachine.exec o r x = some y) :
    (y.sensor j).lockSt = (x.sensor j).lockSt := by
  obtain ⟨-, rfl⟩ := SlotOp.exec_eq_some.mp h
  cases o with
  | setLockSt k st =>
    obtain rfl : k = i := ho
    rw [SlotOp.effect, Driver.modify_sensor_of_ne _ _ hj]
  | request k =>
    rw [SlotOp.effect]
    refine Driver.modify_sensor_congr x k j (fun d ↦ if d.state = .idle then _ else d)
      SensorDev.lockSt fun d ↦ ?_
    split <;> rfl
  | store k v z =>
    rw [SlotOp.effect]
    refine Driver.modify_sensor_congr x k j _ SensorDev.lockSt fun d ↦ ?_
    cases v <;> rfl
  | queueWork w => rw [SlotOp.effect, Driver.queueWork_sensor]
  | takeEcho | setOccupied | setDistance | setLed | setLockPending | stepperStep | deenergize =>
    rw [SlotOp.effect]
    exact Driver.modify_sensor_congr x _ j _ SensorDev.lockSt fun _ ↦ rfl
  | _ => rfl

/-- The worker takes the only work item there is. -/
theorem exists_work {w : Work} {P : SlotSnap → Prop} (hidle : c.thread .worker = none)
    (hqueue : c.state.queue = [w])
    (hmay : SlotMay .worker w.func (fun _ ↦ P)
      (c.toSnap.log { c.state with queue := [] } (.start .worker (.work w)))) :
    ∃ c', slotMachine.Steps c c' ∧ c'.thread = c.thread
      ∧ (∀ j ≠ w.slot, (c'.state.sensor j).lockSt = (c.state.sensor j).lockSt)
      ∧ P c'.toSnap := by
  have hentry : slotMachine.entry .worker (.work w) c.state
      = some (w.func, { c.state with queue := [] }) := by
    simp [slotMachine, slotEntry, hqueue]
  have hframe := hmay.frame (f := fun x j ↦ if j = w.slot then LockState.free
    else (x.sensor j).lockSt) w.func_uses fun o r x y ho h ↦ by
      funext j
      split
      · rfl
      · exact lockSt_of_setsAt ‹_› ho h
  obtain ⟨c', hsteps, hthread, hP, hlock⟩ := hframe.steps hidle hentry
  refine ⟨c', hsteps, hthread, fun j hj ↦ ?_, hP⟩
  simpa [hj] using congrFun hlock j

/-- A reading of a waiting sensor that finds the slot occupied, up to the lock state machine. -/
theorem exists_reading {start stop : ℤ} {P : SlotSnap → Prop} (hthread : c.thread = fun _ ↦ none)
    (hidle : (c.state.sensor i).state = .idle) (hqueue : c.state.queue = [])
    (hvalid : ValidEcho (ktimeToUs (stop - start)))
    (hmay : ∀ s', s'.state.queue = [] → (s'.state.sensor i).control
        = (.idle, (c.state.sensor i).lockSt, (c.state.sensor i).occupyStart) →
      SlotMay .worker (lockMachine i (occupiedOf (echoCm (ktimeToUs (stop - start))))) (fun _ ↦ P)
        s') :
    ∃ c', slotMachine.Steps c c' ∧ (c'.thread = fun _ ↦ none)
      ∧ (∀ j ≠ i, (c'.state.sensor j).lockSt = (c.state.sensor j).lockSt) ∧ P c'.toSnap := by
  obtain ⟨c₁, -, h₁, hthread₁, hqueue₁, hsensor₁, -, -, hlock₁⟩ := exists_measurement start stop
    (congrFun hthread .timer) hidle hqueue
  rw [hthread] at hthread₁
  have hstart : (c₁.state.sensor i).echoStart = start := by rw [hsensor₁]
  have hstop : (c₁.state.sensor i).echoStop = stop := by rw [hsensor₁]
  obtain ⟨c₂, h₂, hthread₂, hlock₂, hP⟩ := exists_work (congrFun hthread₁ .worker) hqueue₁
    (sensorWorkFunc_may hstart hstop hvalid fun s' hqueue' hcontrol ↦ hmay s' hqueue'
      (hcontrol.trans (by simp [hsensor₁])))
  exact ⟨c₂, h₁.trans h₂, hthread₂.trans hthread₁, fun j hj ↦ (hlock₂ j hj).trans (hlock₁ j), hP⟩

/-- A vehicle comes to a free slot, is read once, and once more when its time is up. -/
theorem exists_locking {start stop now₁ now₂ : ℤ} (hthread : c.thread = fun _ ↦ none)
    (hidle : (c.state.sensor i).state = .idle) (hqueue : c.state.queue = [])
    (hfree : (c.state.sensor i).lockSt = .free) (hvalid : ValidEcho (ktimeToUs (stop - start)))
    (hocc : occupiedOf (echoCm (ktimeToUs (stop - start))) ≠ 0)
    (helapsed : lockTimeoutMs ≤ ktimeToMs (now₂ - now₁)) :
    ∃ c', slotMachine.Steps c c' ∧ (c'.thread = fun _ ↦ none) ∧ c'.state.queue = [.lock i]
      ∧ (c'.state.sensor i).lockPending = true
      ∧ (∀ j ≠ i, (c'.state.sensor j).lockSt = (c.state.sensor j).lockSt)
      ∧ ∃ pre post, c'.trace = pre ++ .op .worker (.setLockSt i .locking) () :: post := by
  obtain ⟨c₁, h₁, hthread₁, hlock₁, hqueue₁, hcontrol₁⟩ := exists_reading
    (P := fun s ↦ s.state.queue = [] ∧ (s.state.sensor i).control = (.idle, .timing, now₁))
    hthread hidle hqueue hvalid fun s hqueue' hcontrol ↦ by
      obtain ⟨hstate, hst, -⟩ := by simpa [SensorDev.control] using hcontrol
      exact lockMachine_may_free now₁ hocc (hst.trans hfree) fun s' hq hc ↦
        ⟨hq.trans hqueue', hc.trans (by rw [hstate])⟩
  obtain ⟨hidle₁, hst₁, hoccupy₁⟩ := by simpa [SensorDev.control] using hcontrol₁
  obtain ⟨c₂, h₂, hthread₂, hlock₂, hqueue₂, hpending₂, htrace₂⟩ := exists_reading
    (P := fun s ↦ s.state.queue = [.lock i] ∧ (s.state.sensor i).lockPending = true
      ∧ ∃ pre post, s.trace = pre ++ .op .worker (.setLockSt i .locking) () :: post)
    hthread₁ hidle₁ hqueue₁ hvalid fun s hqueue' hcontrol ↦ by
      obtain ⟨-, hst, hoccupy⟩ := by simpa [SensorDev.control] using hcontrol
      refine lockMachine_may_timing now₂ hocc (hst.trans hst₁) ?_ hqueue' fun s' pre post hq hp ht ↦
        ⟨hq, hp, pre, post, ht⟩
      rw [hoccupy, hoccupy₁]
      exact helapsed
  exact ⟨c₂, h₁.trans h₂, hthread₂, hqueue₂, hpending₂,
    fun j hj ↦ (hlock₂ j hj).trans (hlock₁ j hj), htrace₂⟩

/-- And the bar locks the slot. -/
theorem exists_locked {start stop now₁ now₂ : ℤ} (hthread : c.thread = fun _ ↦ none)
    (hidle : (c.state.sensor i).state = .idle) (hqueue : c.state.queue = [])
    (hfree : (c.state.sensor i).lockSt = .free) (hvalid : ValidEcho (ktimeToUs (stop - start)))
    (hocc : occupiedOf (echoCm (ktimeToUs (stop - start))) ≠ 0)
    (helapsed : lockTimeoutMs ≤ ktimeToMs (now₂ - now₁)) :
    ∃ c', slotMachine.Steps c c' ∧ (c'.thread = fun _ ↦ none) ∧ c'.state.queue = []
      ∧ (∀ j ≠ i, (c'.state.sensor j).lockSt = (c.state.sensor j).lockSt)
      ∧ (c'.state.sensor i).lockSt = .locked := by
  obtain ⟨c₁, h₁, hthread₁, hqueue₁, hpending₁, hlock₁, -⟩ :=
    exists_locking hthread hidle hqueue hfree hvalid hocc helapsed
  obtain ⟨c₂, h₂, hthread₂, hlock₂, hqueue₂, hlocked⟩ := exists_work
    (P := fun s ↦ s.state.queue = [] ∧ (s.state.sensor i).lockSt = .locked)
    (congrFun hthread₁ .worker) hqueue₁ (lockWorkFunc_may hpending₁ fun _ hq h ↦ ⟨hq, h⟩)
  exact ⟨c₂, h₁.trans h₂, hthread₂.trans hthread₁, hqueue₂,
    fun j hj ↦ (hlock₂ j hj).trans (hlock₁ j hj), hlocked⟩

/-- The button asks for a locked slot to be released. -/
theorem btnIsr_may (now : ℤ) (hlocked : (s.state.sensor i).lockSt = .locked)
    (hlate : ¬ktimeToMs (now - (s.state.sensor i).lastBtnTime) < debounceMs)
    (hqueue : s.state.queue = [])
    (h : ∀ s', s'.state.queue = [.lock i] → (s'.state.sensor i).lockPending = false →
      (∀ j ≠ i, (s'.state.sensor j).lockSt = (s.state.sensor j).lockSt) → Q () s') :
    SlotMay (.button i) (btnIsr i) Q s := by
  refine .bind (SlotMay.perform (o := .ktime) now trivial ?_)
  refine .bind (SlotMay.perform (o := .load i .lastBtnTime) (s.state.sensor i).lastBtnTime rfl ?_)
  change SlotMay _ (ite _ _ _) Q _
  rw [if_neg hlate]
  refine .bind (SlotMay.perform (o := .store i .lastBtnTime now) () trivial ?_)
  refine .bind (SlotMay.perform (o := .readLockSt i) .locked ?_ ?_)
  · simpa [SlotOp.Answers, SlotOp.effect, SensorDev.set] using hlocked.symm
  rw [if_pos rfl]
  refine .bind (SlotMay.perform (o := .setLockSt i .unlocking) () trivial ?_)
  refine .bind (SlotMay.perform (o := .setLockPending i false) () trivial ?_)
  refine .bind (SlotMay.perform (o := .queueWork (.lock i)) true ?_
    (.ret (h _ ?_ ?_ fun j hj ↦ ?_)))
  · simp [SlotOp.Answers, SlotOp.effect, hqueue]
  · simp [SlotOp.effect, Driver.queueWork, hqueue]
  · simp [SlotOp.effect]
  · simp [SlotOp.effect, Driver.modify_sensor_of_ne _ _ hj]

/-- The button is pressed at a locked slot, and the bar goes down. -/
theorem exists_released (hthread : c.thread = fun _ ↦ none) (hqueue : c.state.queue = [])
    (hlocked : (c.state.sensor i).lockSt = .locked) :
    ∃ c', slotMachine.Steps c c' ∧ (c'.thread = fun _ ↦ none) ∧ c'.state.queue = []
      ∧ (∀ j ≠ i, (c'.state.sensor j).lockSt = (c.state.sensor j).lockSt)
      ∧ (c'.state.sensor i).lockSt = .waitEmpty := by
  -- long enough after the last press
  have hlate : ¬ktimeToMs ((c.state.sensor i).lastBtnTime + 300000000
      - (c.state.sensor i).lastBtnTime) < debounceMs := by
    rw [show (c.state.sensor i).lastBtnTime + 300000000 - (c.state.sensor i).lastBtnTime = 300000000
      by omega]
    decide
  have hmay : SlotMay (.button i) (btnIsr i) (fun _ s ↦ s.state.queue = [.lock i]
      ∧ (s.state.sensor i).lockPending = false
      ∧ ∀ j ≠ i, (s.state.sensor j).lockSt = (c.state.sensor j).lockSt)
      (c.toSnap.log c.state (.start (.button i) .press)) :=
    btnIsr_may _ hlocked hlate hqueue fun _ hq hp hl ↦ ⟨hq, hp, hl⟩
  obtain ⟨c₁, h₁, hthread₁, hqueue₁, hpending₁, hlock₁⟩ :=
    hmay.steps (congrFun hthread (.button i)) rfl
  rw [hthread] at hthread₁
  obtain ⟨c₂, h₂, hthread₂, hlock₂, hqueue₂, hempty⟩ := exists_work
    (P := fun s ↦ s.state.queue = [] ∧ (s.state.sensor i).lockSt = .waitEmpty)
    (congrFun hthread₁ .worker) hqueue₁ (lockWorkFunc_may hpending₁ fun _ hq h ↦ ⟨hq, h⟩)
  exact ⟨c₂, h₁.trans h₂, hthread₂.trans hthread₁, hqueue₂,
    fun j hj ↦ (hlock₂ j hj).trans (hlock₁ j hj), hempty⟩

end ParkingService.Slots
