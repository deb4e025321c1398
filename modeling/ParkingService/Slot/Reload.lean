import ParkingService.Concurrency.Sessions
import ParkingService.Slot.Lock

/-!
# Reloading the slot driver

`parking_init` starts both slots from `LOCK_FREE` and does not move the bars. `parking_exit` can
begin at any moment: it waits for the timer and the interrupt handlers and lets the work queue run
empty, so a bar that is on its way gets to its end, and so does one whose work item is still queued.
While it waits the driver goes on as before, with fewer and fewer interrupts; when it is done every
thread is idle and nothing is queued. Then each bar is at rest, in the lock state it has come to,
and the next load forgets which.
-/

namespace ParkingService.Slots

open Concurrency

/-! ## The life of the driver -/

/-- As `parking_init` leaves the driver, with the bars where they are found. -/
def Driver.found (position : Slot → ℤ) : Driver :=
  { Driver.init with sensor := fun i ↦ { SensorDev.init with position := position i } }

/-- `parking_exit` is through: no thread is running and the work queue is drained. -/
def Drained (c : SlotConfig) : Prop := (c.thread = fun _ ↦ none) ∧ c.state.queue = []

/-- Loaded and unloaded again and again, with the bars left where they are. -/
def slotLife : Lifecycle Thread Job SlotOp.Resp SlotEvent Driver (Slot → ℤ) where
  machine := slotMachine
  boot := Driver.found
  halt c position := Drained c ∧ ∀ i, (c.state.sensor i).position = position i

abbrev SlotLife := Life Thread Job SlotOp.Resp SlotEvent Driver (Slot → ℤ)

/-- Unloaded only when no slot comes to be locked. -/
def slotLifeUnlocked : Lifecycle Thread Job SlotOp.Resp SlotEvent Driver (Slot → ℤ) :=
  slotLife.onlyIf fun c ↦ ∀ i, (c.state.sensor i).lockSt ≠ .locked

/-! ## A drained driver -/

/-- A bar at rest whose work item is not queued is unlocked unless its slot is locked. -/
theorem Bar.position_eq_zero_iff {b : Bar} (hsettled : b.Settled) (hqueued : ¬b.Queued) :
    b.position = 0 ↔ b.lockSt ≠ .locked := by
  cases b with
  | changing p stage =>
    cases stage with
    | queued => exact absurd trivial hqueued
    | _ => exact hsettled.elim
  | locked => exact iff_of_false (by simp [position, lockSteps]) fun h ↦ h rfl
  | _ => exact iff_of_true rfl fun h ↦ by cases h

/-- When the queue is drained no change of the bar is under way. -/
theorem unlocked_iff_of_drained {c : SlotConfig} (hc : SlotReachable c) (hdrained : Drained c)
    (i : Slot) : (c.state.sensor i).position = 0 ↔ (c.state.sensor i).lockSt ≠ .locked := by
  obtain ⟨hthread, hqueue⟩ := hdrained
  have hholds := lock_holds hc
  obtain ⟨b, hbar, hmatches⟩ := (hholds.1 i).lawful
  have hsettled : b.Settled := hholds.idle_of_none (congrFun hthread _) i b hbar rfl
  have hqueued : ¬b.Queued := by
    intro h
    have hcount := hmatches.queue
    rw [hqueue, if_pos h] at hcount
    cases hcount
  rw [hmatches.position, hmatches.lockSt]
  exact Bar.position_eq_zero_iff hsettled hqueued

/-- In one load that has found the bars unlocked. -/
theorem free_unlocked {c : SlotConfig} (hc : SlotReachable c) (i : Slot) :
    (0 ≤ (c.state.sensor i).position ∧ (c.state.sensor i).position ≤ lockSteps)
      ∧ ((c.state.sensor i).lockSt = .free → (c.state.sensor i).position = 0) := by
  obtain ⟨b, hbar, hmatches⟩ := ((lock_holds hc).1 i).lawful
  rw [hmatches.position, hmatches.lockSt]
  refine ⟨Bar.position_bounds (Bar.turned_le_of_run hbar), fun hfree ↦ ?_⟩
  cases b with
  | locked => cases hfree
  | changing p stage => cases p <;> cases hfree
  | _ => rfl

/-! ## Results -/

/-- **Reloading an unlocked slot.** If the driver is unloaded only when neither slot comes to be
locked, then every load finds the bars unlocked, as its `LOCK_FREE` says, and they never leave their
travel. This is just what it takes: a drained driver leaves a bar unlocked exactly if its slot is
not locked. -/
theorem reloads_keep_bars {x : SlotLife} (h : slotLifeUnlocked.Steps (.off fun _ ↦ 0) x) :
    (∀ position, x = .off position → ∀ i, position i = 0)
      ∧ ∀ c, x = .on c → ∀ i,
        ((0 ≤ (c.state.sensor i).position ∧ (c.state.sensor i).position ≤ lockSteps)
          ∧ ((c.state.sensor i).lockSt = .free → (c.state.sensor i).position = 0))
        ∧ (Drained c →
            ((c.state.sensor i).position = 0 ↔ (c.state.sensor i).lockSt ≠ .locked)) := by
  obtain ⟨hoff, hon⟩ := Lifecycle.steps_induction (G := fun position ↦ position = fun _ ↦ 0) h rfl
    fun {position position' c} hzero hsteps hhalt ↦ by
      obtain ⟨⟨hdrained, hposition⟩, hunlocked⟩ := hhalt
      subst hzero
      funext i
      rw [← hposition i]
      exact (unlocked_iff_of_drained hsteps hdrained i).mpr (hunlocked i)
  refine ⟨fun position hx i ↦ congrFun (hoff position hx) i, fun c hx i ↦ ?_⟩
  obtain ⟨position, rfl, hsteps⟩ := hon c hx
  exact ⟨free_unlocked hsteps i, fun hdrained ↦ unlocked_iff_of_drained hsteps hdrained i⟩

/-- A vehicle is locked in and released, and only then the driver is unloaded: the bar is down, and
it is down when the next load takes the slot for free. -/
theorem reloads_keep_bars_released : ∃ c c', slotLifeUnlocked.Steps (.off fun _ ↦ 0) (.on c)
    ∧ (c.state.sensor 0).lockSt = .locked ∧ (c.state.sensor 0).position ≠ 0
    ∧ slotLifeUnlocked.Steps (.on c) (.on c') ∧ (c'.state.sensor 0).lockSt = .waitEmpty
    ∧ slotLifeUnlocked.Steps (.on c') (.off fun _ ↦ 0)
    ∧ slotLifeUnlocked.Steps (.off fun _ ↦ 0) (.on (.init Driver.init)) := by
  have hvalid : ValidEcho (ktimeToUs (290000 - 0)) := by decide
  have hocc : occupiedOf (echoCm (ktimeToUs (290000 - 0))) ≠ 0 := by decide
  have helapsed : lockTimeoutMs ≤ ktimeToMs (10000000000 - 0) := by decide
  obtain ⟨c, hc, hthread, hqueue, hothers, hlocked⟩ := exists_locked (c := .init .init) (i := 0) rfl
    rfl rfl rfl hvalid hocc helapsed
  obtain ⟨c', hc', hthread', hqueue', hothers', hempty⟩ := exists_released hthread hqueue hlocked
  have hload : slotLifeUnlocked.Steps (.off fun _ ↦ 0) (.on (.init Driver.init)) :=
    .single (.load fun _ ↦ 0)
  have hon : slotLifeUnlocked.Steps (.off fun _ ↦ 0) (.on c) :=
    hload.trans (Lifecycle.steps_of_steps hc)
  have hthen : slotLifeUnlocked.Steps (.on c) (.on c') := Lifecycle.steps_of_steps hc'
  -- the other slot is as it was loaded
  have hunlocked (i : Slot) : (c'.state.sensor i).lockSt ≠ .locked := by
    by_cases hi : i = 0
    · rw [hi, hempty]
      decide
    · rw [hothers' i hi, hothers i hi]
      intro h
      cases h
  have hzero (i : Slot) : (c'.state.sensor i).position = 0 :=
    (((reloads_keep_bars (hon.trans hthen)).2 c' rfl i).2 ⟨hthread', hqueue'⟩).mpr (hunlocked i)
  refine ⟨c, c', hon, hlocked, ?_, hthen, hempty,
    .single (.unload ⟨⟨⟨hthread', hqueue'⟩, hzero⟩, hunlocked⟩), hload⟩
  exact fun hposition ↦
    (((reloads_keep_bars hon).2 c rfl 0).2 ⟨hthread, hqueue⟩).mp hposition hlocked

/-- A vehicle is locked in when the driver is unloaded. The next load takes the slot for free. -/
theorem reload_finds_slot_locked : ∃ c, slotLife.Steps (.off fun _ ↦ 0) (.on c)
    ∧ (c.state.sensor 0).lockSt = .free ∧ (c.state.sensor 0).position = 341 := by
  have hvalid : ValidEcho (ktimeToUs (290000 - 0)) := by decide
  have hocc : occupiedOf (echoCm (ktimeToUs (290000 - 0))) ≠ 0 := by decide
  have helapsed : lockTimeoutMs ≤ ktimeToMs (10000000000 - 0) := by decide
  obtain ⟨c, hc, hthread, hqueue, -, hlocked⟩ :=
    exists_locked (c := .init .init) (i := 0) rfl rfl rfl rfl hvalid hocc helapsed
  obtain ⟨b, hbar, hmatches⟩ := ((lock_holds hc).1 0).lawful
  have hposition : (c.state.sensor 0).position = 341 := by
    rw [hmatches.lockSt] at hlocked
    rw [hmatches.position]
    cases b with
    | locked => rfl
    | changing p stage => cases p <;> cases hlocked
    | _ => cases hlocked
  have hsession : slotLife.Steps (.off fun _ ↦ 0) (.off fun i ↦ (c.state.sensor i).position) :=
    Lifecycle.steps_of_session hc ⟨⟨hthread, hqueue⟩, fun _ ↦ rfl⟩
  exact ⟨_, hsession.tail (.load _), rfl, hposition⟩

end ParkingService.Slots
