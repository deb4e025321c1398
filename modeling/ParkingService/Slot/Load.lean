import ParkingService.Resources.Ledger

/-!
# Loading the slot driver

`parking_init` gets one thing after the other and has one label for each, at which it gives back
what has been got until then. The last one, `err_cdev`, is for a character device that could not be
added: it frees the memory of it. But the calls that make the class and the device jump there too,
and then the character device has been added: its memory is freed while it is registered, and
registered it stays.
-/

namespace ParkingService.Slots

open Resources

/-! ## The code -/

/-- What the kernel gives to the driver: the four arrays of lines as wholes, and the interrupts by
the space. -/
inductive SlotResource
  | gpioList
  | motor1Gpios
  | motor2Gpios
  | btnGpios
  | workqueue
  | irq (i : ℕ)
  | btnIrq (i : ℕ)
  | chrdevRegion
  | cdev
  | cls
  | device
  | timer
  deriving DecidableEq

/-- The calls of the kernel; all but `mod_timer` may fail. -/
inductive SlotCall
  | requestGpioList
  | requestMotor1Gpios
  | requestMotor2Gpios
  | requestBtnGpios
  | createWorkqueue
  | requestIrq (i : ℕ)
  | requestBtnIrq (i : ℕ)
  | allocChrdevRegion
  | cdevAlloc
  | cdevAdd
  | classCreate
  | deviceCreate
  | modTimer
  deriving DecidableEq

/-- `cd_cdev` points to memory that `cdev_alloc` has returned. The memory of a character device that
is deleted is not its concern any more. -/
structure SlotStatics where
  cdCdev : Bool

abbrev SlotSetup := Setup (Ledger SlotResource SlotStatics) SlotCall

def spaces : List ℕ := [0, 1]

section

variable (ok : SlotCall → Bool)

def request (c : SlotCall) (r : SlotResource) : SlotSetup Unit := Ledger.acquire c (ok c) r

def free (r : SlotResource) : SlotSetup Unit := Ledger.release r

/-- `kfree(cd_cdev)`: there has to be such memory, and it must not be in use. -/
def kfreeCdev : SlotSetup Unit := .modify fun s ↦
  { s with sound := s.sound && s.memory.cdCdev && .cdev ∉ s.held, memory := ⟨false⟩ }

def cdevAlloc : SlotSetup Unit := do
  .check .cdevAlloc (ok .cdevAlloc)
  Ledger.store fun _ ↦ ⟨true⟩

/-- A loop that gives back what it has got when it fails. -/
def requestEach (c : ℕ → SlotCall) (r : ℕ → SlotResource) : List ℕ → SlotSetup Unit
  | [] => pure ()
  | i :: is => do
    request ok (c i) (r i)
    (requestEach c r is).unwind (free (r i))

def errGpio : SlotSetup Unit := free .gpioList

def errMotor1Gpio : SlotSetup Unit := do
  free .motor1Gpios
  errGpio

def errMotor2Gpio : SlotSetup Unit := do
  free .motor2Gpios
  errMotor1Gpio

def errBtnGpio : SlotSetup Unit := do
  free .btnGpios
  errMotor2Gpio

def errWq : SlotSetup Unit := do
  free .workqueue
  errBtnGpio

def errIrq : SlotSetup Unit := do
  Setup.each (fun i ↦ free (.irq i)) spaces
  errWq

def errBtnIrq : SlotSetup Unit := do
  Setup.each (fun i ↦ free (.btnIrq i)) spaces
  errIrq

def errChrdev : SlotSetup Unit := do
  free .chrdevRegion
  errBtnIrq

def errCdev : SlotSetup Unit := do
  kfreeCdev
  errChrdev

def parkingInit : SlotSetup Unit := do
  request ok .requestGpioList .gpioList
  (request ok .requestMotor1Gpios .motor1Gpios).unwind errGpio
  (request ok .requestMotor2Gpios .motor2Gpios).unwind errMotor1Gpio
  (request ok .requestBtnGpios .btnGpios).unwind errMotor2Gpio
  (request ok .createWorkqueue .workqueue).unwind errBtnGpio
  (requestEach ok .requestIrq .irq spaces).unwind errWq
  (requestEach ok .requestBtnIrq .btnIrq spaces).unwind errIrq
  (request ok .allocChrdevRegion .chrdevRegion).unwind errBtnIrq
  (cdevAlloc ok).unwind errChrdev
  (request ok .cdevAdd .cdev).unwind errCdev
  -- now `cd_cdev` is registered, and nothing at `err_cdev` takes that back
  (request ok .classCreate .cls).unwind errCdev
  (request ok .deviceCreate .device).unwind do
    free .cls
    errCdev
  Ledger.acquire .modTimer true .timer

def parkingExit : SlotSetup Unit := do
  free .timer
  Setup.each (fun i ↦ free (.irq i)) spaces
  Setup.each (fun i ↦ free (.btnIrq i)) spaces
  free .workqueue
  free .device
  free .cls
  -- `cdev_del`, which frees the memory too
  free .cdev
  free .chrdevRegion
  free .btnGpios
  free .motor2Gpios
  free .motor1Gpios
  free .gpioList

end

def slotModule : Module (SlotCall → Bool) SlotResource SlotStatics SlotCall where
  fresh := ⟨false⟩
  init := parkingInit
  exit := parkingExit

/-! ## What is held at each label -/

/-- What has been got when one comes to a label, in the order of the code. -/
def atGpio : Finset SlotResource := insert .gpioList ∅

def atMotor1Gpio : Finset SlotResource := insert .motor1Gpios atGpio

def atMotor2Gpio : Finset SlotResource := insert .motor2Gpios atMotor1Gpio

def atBtnGpio : Finset SlotResource := insert .btnGpios atMotor2Gpio

def atWq : Finset SlotResource := insert .workqueue atBtnGpio

def atIrq : Finset SlotResource := Ledger.adding .irq atWq spaces

def atBtnIrq : Finset SlotResource := Ledger.adding .btnIrq atIrq spaces

def atChrdev : Finset SlotResource := insert .chrdevRegion atBtnIrq

def atCdev : Finset SlotResource := insert .cdev atChrdev

/-- What a loaded module holds. -/
def slotHoldings : Finset SlotResource := insert .timer (insert .device (insert .cls atCdev))

variable {ok : SlotCall → Bool} {X : Finset SlotResource}
  {E : Ledger SlotResource SlotStatics → Prop}

theorem request_spec (c : SlotCall) {r : SlotResource} (hr : r ∉ X) :
    Setup.Spec (Ledger.Holds X) (request ok c r)
      (fun _ s ↦ ok c = true ∧ Ledger.Holds (insert r X) s)
      fun s ↦ ok c = false ∧ Ledger.Holds X s := Ledger.acquire_holds hr

theorem free_spec {r : SlotResource} (hr : r ∉ X) :
    Setup.Spec (Ledger.Holds (insert r X)) (free r) (fun _ ↦ Ledger.Holds X) E :=
  Ledger.release_holds hr

theorem freeEach_spec {r : ℕ → SlotResource} (hr : Function.Injective r) {is : List ℕ}
    (hnodup : is.Nodup) (hX : ∀ i ∈ is, r i ∉ X) :
    Setup.Spec (Ledger.Holds (Ledger.adding r X is)) (Setup.each (fun i ↦ free (r i)) is)
      (fun _ ↦ Ledger.Holds X) E := by
  induction is with
  | nil => exact .ret (Q := fun _ ↦ Ledger.Holds X)
  | cons i is ih =>
    obtain ⟨hi, hnodup⟩ := List.nodup_cons.mp hnodup
    have hnew := Ledger.notMem_adding hr (hX i List.mem_cons_self) hi
    exact (free_spec hnew).bind fun _ ↦ ih hnodup fun j hj ↦ hX j (List.mem_cons_of_mem _ hj)

/-- A loop gets all or nothing. -/
theorem requestEach_spec {c : ℕ → SlotCall} {r : ℕ → SlotResource} (hr : Function.Injective r)
    {is : List ℕ} (hnodup : is.Nodup) (hX : ∀ i ∈ is, r i ∉ X) :
    Setup.Spec (Ledger.Holds X) (requestEach ok c r is)
      (fun _ s ↦ (∀ i ∈ is, ok (c i)) ∧ Ledger.Holds (Ledger.adding r X is) s)
      fun s ↦ (∃ i ∈ is, ok (c i) = false) ∧ Ledger.Holds X s := by
  induction is generalizing X with
  | nil => exact fun s hs ↦ ⟨fun _ hi ↦ absurd hi List.not_mem_nil, hs⟩
  | cons i is ih =>
    obtain ⟨hi, hnodup⟩ := List.nodup_cons.mp hnodup
    have hnew := hX i List.mem_cons_self
    have hX' : ∀ j ∈ is, r j ∉ insert (r i) X := fun j hj h ↦ by
      rcases Finset.mem_insert.mp h with h | h
      · exact hi (hr h ▸ hj)
      · exact hX j (List.mem_cons_of_mem _ hj) h
    refine Setup.Spec.bind ((request_spec (c i) hnew).weaken (fun _ hs ↦ hs) (fun _ _ hs ↦ hs) ?_)
      fun _ ↦ .assume fun hok ↦ ?_
    · exact fun s hs ↦ ⟨⟨i, List.mem_cons_self, hs.1⟩, hs.2⟩
    · -- What the rest could not get it has given back already.
      refine ((ih hnodup hX').unwind (.assume fun hfail ↦ (free_spec hnew).weaken (fun _ hs ↦ hs) ?_
        fun _ hs ↦ hs)).weaken (fun _ hs ↦ hs) ?_ fun _ hs ↦ hs
      · obtain ⟨j, hj, hfail⟩ := hfail
        exact fun _ s hs ↦ ⟨⟨j, List.mem_cons_of_mem _ hj, hfail⟩, hs⟩
      · rintro - s ⟨hall, hs⟩
        rw [Ledger.adding_insert] at hs
        exact ⟨List.forall_mem_cons.mpr ⟨hok, hall⟩, hs⟩

/-! ## The labels -/

theorem errGpio_spec : Setup.Spec (Ledger.Holds atGpio) errGpio (fun _ ↦ Ledger.Holds ∅) E :=
  free_spec (by decide)

theorem errMotor1Gpio_spec :
    Setup.Spec (Ledger.Holds atMotor1Gpio) errMotor1Gpio (fun _ ↦ Ledger.Holds ∅) E :=
  (free_spec (by decide)).bind fun _ ↦ errGpio_spec

theorem errMotor2Gpio_spec :
    Setup.Spec (Ledger.Holds atMotor2Gpio) errMotor2Gpio (fun _ ↦ Ledger.Holds ∅) E :=
  (free_spec (by decide)).bind fun _ ↦ errMotor1Gpio_spec

theorem errBtnGpio_spec :
    Setup.Spec (Ledger.Holds atBtnGpio) errBtnGpio (fun _ ↦ Ledger.Holds ∅) E :=
  (free_spec (by decide)).bind fun _ ↦ errMotor2Gpio_spec

theorem errWq_spec : Setup.Spec (Ledger.Holds atWq) errWq (fun _ ↦ Ledger.Holds ∅) E :=
  (free_spec (by decide)).bind fun _ ↦ errBtnGpio_spec

theorem errIrq_spec : Setup.Spec (Ledger.Holds atIrq) errIrq (fun _ ↦ Ledger.Holds ∅) E :=
  (freeEach_spec (fun _ _ ↦ SlotResource.irq.inj) (by decide) (by decide)).bind fun _ ↦ errWq_spec

theorem errBtnIrq_spec : Setup.Spec (Ledger.Holds atBtnIrq) errBtnIrq (fun _ ↦ Ledger.Holds ∅) E :=
  (freeEach_spec (fun _ _ ↦ SlotResource.btnIrq.inj) (by decide) (by decide)).bind fun _ ↦
    errIrq_spec

theorem errChrdev_spec : Setup.Spec (Ledger.Holds atChrdev) errChrdev (fun _ ↦ Ledger.Holds ∅) E :=
  (free_spec (by decide)).bind fun _ ↦ errBtnIrq_spec

theorem kfreeCdev_spec (hX : .cdev ∉ X) :
    Setup.Spec (fun s ↦ Ledger.Holds X s ∧ s.memory.cdCdev = true) kfreeCdev
      (fun _ ↦ Ledger.Holds X) E := by
  rintro s ⟨⟨hheld, hsound⟩, hmemory⟩
  refine ⟨hheld, ?_⟩
  show (s.sound && s.memory.cdCdev && decide (.cdev ∉ s.held)) = true
  rw [hsound, hmemory, hheld, Bool.true_and, Bool.true_and]
  exact decide_eq_true hX

theorem errCdev_spec :
    Setup.Spec (fun s ↦ Ledger.Holds atChrdev s ∧ s.memory.cdCdev = true) errCdev
      (fun _ ↦ Ledger.Holds ∅) E :=
  (kfreeCdev_spec (by decide)).bind fun _ ↦ errChrdev_spec

theorem cdevAlloc_spec :
    Setup.Spec (Ledger.Holds X) (cdevAlloc ok)
      (fun _ s ↦ ok .cdevAlloc = true ∧ Ledger.Holds X s ∧ s.memory.cdCdev = true)
      fun s ↦ ok .cdevAlloc = false ∧ Ledger.Holds X s := by
  refine Setup.Spec.check.bind fun _ ↦ ?_
  exact Setup.Spec.modify.weaken (fun s ⟨hok, hs⟩ ↦ ⟨hok, ⟨hs.held, hs.sound⟩, rfl⟩)
    (fun _ _ hs ↦ hs) fun _ hs ↦ hs

theorem cdevAdd_spec :
    Setup.Spec (fun s ↦ Ledger.Holds atChrdev s ∧ s.memory.cdCdev = true)
      (request ok .cdevAdd .cdev) (fun _ s ↦ ok .cdevAdd = true ∧ Ledger.Holds atCdev s)
      fun s ↦ ok .cdevAdd = false ∧ Ledger.Holds atChrdev s ∧ s.memory.cdCdev = true :=
  (Ledger.acquire_spec (Q := fun m ↦ m.cdCdev = true) (by decide)).weaken (fun _ hs ↦ hs)
    (fun _ _ hs ↦ ⟨hs.1, hs.2.1⟩) fun _ hs ↦ hs

/-! Nothing makes up for memory that was freed in use. -/

/-- Something was given back that was not held. -/
def Unsound (s : Ledger SlotResource SlotStatics) : Prop := s.sound = false

theorem free_unsound {r : SlotResource} : Setup.Spec Unsound (free r) (fun _ ↦ Unsound) E :=
  Ledger.release_unsound

theorem freeEach_unsound {r : ℕ → SlotResource} {is : List ℕ} :
    Setup.Spec Unsound (Setup.each (fun i ↦ free (r i)) is) (fun _ ↦ Unsound) E :=
  .each (I := fun _ ↦ Unsound) is fun _ _ _ _ ↦ free_unsound

theorem errBtnGpio_unsound : Setup.Spec Unsound errBtnGpio (fun _ ↦ Unsound) E :=
  free_unsound.bind fun _ ↦ free_unsound.bind fun _ ↦ free_unsound.bind fun _ ↦ free_unsound

theorem errChrdev_unsound : Setup.Spec Unsound errChrdev (fun _ ↦ Unsound) E :=
  free_unsound.bind fun _ ↦ freeEach_unsound.bind fun _ ↦ freeEach_unsound.bind fun _ ↦
    free_unsound.bind fun _ ↦ errBtnGpio_unsound

/-- **The wrong label** for a character device that has been added. -/
theorem errCdev_unsound (hX : .cdev ∈ X) :
    Setup.Spec (Ledger.Holds X) errCdev (fun _ ↦ Unsound) E := by
  refine Setup.Spec.bind (Q := fun _ ↦ Unsound) (fun s hs ↦ ?_) fun _ ↦ errChrdev_unsound
  have hin : .cdev ∈ s.held := hs.held ▸ hX
  show (s.sound && s.memory.cdCdev && decide (.cdev ∉ s.held)) = false
  rw [decide_eq_false (not_not_intro hin), Bool.and_false]

/-! ## Loads and unloads -/

/-- All goes well until the character device is registered. -/
structure Registered (ok : SlotCall → Bool) : Prop where
  gpioList : ok .requestGpioList
  motor1 : ok .requestMotor1Gpios
  motor2 : ok .requestMotor2Gpios
  btn : ok .requestBtnGpios
  workqueue : ok .createWorkqueue
  irq : ∀ i ∈ spaces, ok (.requestIrq i)
  btnIrq : ∀ i ∈ spaces, ok (.requestBtnIrq i)
  region : ok .allocChrdevRegion
  alloc : ok .cdevAlloc
  add : ok .cdevAdd

/-- The class or the device is refused. -/
def Leaks (ok : SlotCall → Bool) : Prop :=
  Registered ok ∧ ¬ (ok .classCreate ∧ ok .deviceCreate)

theorem accounted_of_unsound (hok : Leaks ok) : ∀ s, Unsound s → Ledger.Accounted (Leaks ok) s := by
  intro s hs
  refine ⟨fun hheld ↦ ?_, fun hno ↦ absurd hok hno⟩
  have := hheld.sound
  rw [hs] at this
  cases this

/-- A call once it is registered: if it fails, the memory is freed in use. -/
theorem refused_unwind (hreg : Registered ok) (c : SlotCall) {r : SlotResource} (hr : r ∉ X)
    {undo : SlotSetup Unit}
    (hundo : Setup.Spec (Ledger.Holds X) undo (fun _ ↦ Unsound) Unsound)
    (hc : ok c = false → ¬ (ok .classCreate ∧ ok .deviceCreate)) :
    Setup.Spec (Ledger.Holds X) ((request ok c r).unwind undo)
      (fun _ s ↦ ok c = true ∧ Ledger.Holds (insert r X) s) (Ledger.Accounted (Leaks ok)) :=
  (request_spec c hr).unwind (.assume fun h ↦ hundo.weaken (fun _ hs ↦ hs)
    (fun _ ↦ accounted_of_unsound ⟨hreg, hc h⟩) (accounted_of_unsound ⟨hreg, hc h⟩))

theorem parkingInit_spec :
    Setup.Spec (Ledger.Holds ∅) (parkingInit ok)
      (fun _ s ↦ Ledger.Holds slotHoldings s ∧ True ∧ ¬ Leaks ok)
      (Ledger.Accounted (Leaks ok)) := by
  unfold parkingInit
  refine Setup.Spec.bind ((request_spec .requestGpioList (by decide)).weaken (fun _ hs ↦ hs)
    (fun _ _ hs ↦ hs) fun s hs ↦ Ledger.accounted (fun hl ↦ ?_) s hs.2) fun _ ↦
    .assume fun hgpio ↦ ?_
  · simp [hl.1.gpioList] at hs
  refine (Ledger.accounted_unwind (request_spec .requestMotor1Gpios (by decide)) errGpio_spec
    fun hno hl ↦ by simp [hl.1.motor1] at hno).bind fun _ ↦ .assume fun hmotor1 ↦ ?_
  refine (Ledger.accounted_unwind (request_spec .requestMotor2Gpios (by decide)) errMotor1Gpio_spec
    fun hno hl ↦ by simp [hl.1.motor2] at hno).bind fun _ ↦ .assume fun hmotor2 ↦ ?_
  refine (Ledger.accounted_unwind (request_spec .requestBtnGpios (by decide)) errMotor2Gpio_spec
    fun hno hl ↦ by simp [hl.1.btn] at hno).bind fun _ ↦ .assume fun hbtn ↦ ?_
  refine (Ledger.accounted_unwind (request_spec .createWorkqueue (by decide)) errBtnGpio_spec
    fun hno hl ↦ by simp [hl.1.workqueue] at hno).bind fun _ ↦ .assume fun hwq ↦ ?_
  -- The loops come to their labels with nothing of their own.
  refine (Ledger.accounted_unwind (requestEach_spec (fun _ _ ↦ SlotResource.irq.inj) (by decide)
    (by decide)) errWq_spec fun ⟨i, hi, hno⟩ hl ↦ by simp [hl.1.irq i hi] at hno).bind fun _ ↦
    .assume fun hirq ↦ ?_
  refine (Ledger.accounted_unwind (requestEach_spec (fun _ _ ↦ SlotResource.btnIrq.inj) (by decide)
    (by decide)) errIrq_spec fun ⟨i, hi, hno⟩ hl ↦ by simp [hl.1.btnIrq i hi] at hno).bind fun _ ↦
    .assume fun hbtnIrq ↦ ?_
  refine (Ledger.accounted_unwind (request_spec .allocChrdevRegion (by decide)) errBtnIrq_spec
    fun hno hl ↦ by simp [hl.1.region] at hno).bind fun _ ↦ .assume fun hregion ↦ ?_
  refine (Ledger.accounted_unwind cdevAlloc_spec errChrdev_spec
    fun hno hl ↦ by simp [hl.1.alloc] at hno).bind fun _ ↦ .assume fun halloc ↦ ?_
  refine (Ledger.accounted_unwind cdevAdd_spec errCdev_spec
    fun hno hl ↦ by simp [hl.1.add] at hno).bind fun _ ↦ .assume fun hadd ↦ ?_
  have hreg : Registered ok :=
    ⟨hgpio, hmotor1, hmotor2, hbtn, hwq, hirq, hbtnIrq, hregion, halloc, hadd⟩
  refine (refused_unwind hreg .classCreate (r := .cls) (by decide)
    (errCdev_unsound (X := atCdev) (by decide)) fun hno h ↦ by simp [h.1] at hno).bind fun _ ↦
    .assume fun hcls ↦ ?_
  refine (refused_unwind hreg .deviceCreate (r := .device) (by decide)
    ((free_spec (by decide)).bind fun _ ↦ errCdev_unsound (by decide))
    fun hno h ↦ by simp [h.2] at hno).bind fun _ ↦ .assume fun hdevice ↦ ?_
  refine (Ledger.acquire_spec (Q := fun _ ↦ True) (by decide)).weaken (fun _ hs ↦ ⟨hs, trivial⟩)
    ?_ ?_
  · exact fun _ s hs ↦ ⟨hs.2.1, trivial, fun hl ↦ hl.2 ⟨hcls, hdevice⟩⟩
  · exact fun s hs ↦ absurd hs.1 (by decide)

theorem parkingExit_spec :
    Setup.Spec (Ledger.Holds slotHoldings) parkingExit (fun _ ↦ Ledger.Holds ∅)
      (Ledger.Holds ∅) := by
  -- What is left when the interrupts are gone and the workqueue.
  let rest : Finset SlotResource :=
    insert .device (insert .cls (insert .cdev (insert .chrdevRegion atBtnGpio)))
  let wq : Finset SlotResource := insert .workqueue rest
  have horder : slotHoldings =
      insert .timer (Ledger.adding .irq (Ledger.adding .btnIrq wq spaces) spaces) := by decide
  rw [horder]
  unfold parkingExit
  refine (free_spec (by decide)).bind fun _ ↦ ?_
  refine (freeEach_spec (fun _ _ ↦ SlotResource.irq.inj) (by decide) (by decide)).bind fun _ ↦ ?_
  refine (freeEach_spec (fun _ _ ↦ SlotResource.btnIrq.inj) (by decide) (by decide)).bind fun _ ↦ ?_
  refine (free_spec (by decide)).bind fun _ ↦ (free_spec (by decide)).bind fun _ ↦ ?_
  refine (free_spec (by decide)).bind fun _ ↦ (free_spec (by decide)).bind fun _ ↦ ?_
  exact (free_spec (by decide)).bind fun _ ↦ errBtnGpio_spec

theorem slotModule_accounts : slotModule.Accounts slotHoldings (fun _ ↦ True) Leaks where
  init _ := parkingInit_spec.weaken (fun _ hs ↦ hs.1) (fun _ _ hs ↦ hs) fun _ hs ↦ hs
  exit := parkingExit_spec.weaken (fun _ hs ↦ hs.1) (fun _ _ hs ↦ hs) fun _ hs ↦ hs

/-- **Which runs of the driver leave nothing behind.** -/
theorem slotModule_clean_iff {as : List (Action (SlotCall → Bool))}
    {states : List (System SlotResource SlotStatics)}
    (hrun : slotModule.run .start as = some states) :
    (∀ s ∈ states, Module.Clean s) ↔ ∀ ok, .load ok ∈ as → ¬ Leaks ok :=
  slotModule_accounts.run_iff Module.kept_start (fun _ ↦ Module.Tidy.clean) (fun _ h ↦ h) hrun

/-- A load in which the last request of an interrupt is refused, and one in which all goes well. -/
theorem slotModule_clean_iff_retry :
    let no : SlotCall → Bool := fun c ↦ c ≠ .requestBtnIrq 1
    let yes : SlotCall → Bool := fun _ ↦ true
    ∃ states, slotModule.run .start [.load no, .load yes, .unload] = some states ∧
      ∀ s ∈ states, Module.Clean s := by
  intro no yes
  have hno : ¬ Leaks no := fun hl ↦ absurd (hl.1.btnIrq 1 (by decide)) (by decide)
  have hyes : ¬ Leaks yes := fun hl ↦ hl.2 ⟨rfl, rfl⟩
  obtain ⟨states, hrun⟩ : ∃ states,
      slotModule.run .start [.load no, .load yes, .unload] = some states :=
    Option.isSome_iff_exists.mp (by decide +kernel)
  refine ⟨states, hrun, (slotModule_clean_iff hrun).mpr fun ok hok ↦ ?_⟩
  simp only [List.mem_cons, List.not_mem_nil, or_false, reduceCtorEq,
    Action.load.injEq] at hok
  rcases hok with rfl | rfl
  · exact hno
  · exact hyes

/-- The class is refused: memory is freed in use, and the character device stays registered. -/
theorem refused_class_keeps_cdev :
    let ok : SlotCall → Bool := fun c ↦ c ≠ .classCreate
    ¬ ∀ states, slotModule.run .start [.load ok] = some states →
      ∀ s ∈ states, Module.Clean s := by
  intro ok h
  have hend : (slotModule.run .start [.load ok]).map (List.map fun s ↦
      (s.loaded.isSome, s.sound, decide (.cdev ∈ s.held))) = some [(false, false, true)] := by
    decide +kernel
  obtain ⟨states, hrun, hstates⟩ := Option.map_eq_some_iff.mp hend
  obtain ⟨s, rest, rfl, hs, -⟩ := List.map_eq_cons_iff.mp hstates
  obtain ⟨hloaded, -, hcdev⟩ : s.loaded.isSome = false ∧ s.sound = false ∧
      decide (.cdev ∈ s.held) = true := by simpa using hs
  have hheld := (h _ hrun s List.mem_cons_self).released (by simpa using hloaded)
  exact absurd (hheld ▸ of_decide_eq_true hcdev) (Finset.notMem_empty _)

end ParkingService.Slots
