import ParkingService.Resources.Ledger

/-!
# Loading the gate module

`gate_node_init` unwinds by hand what it has got so far. What `gate_hw_init` gets is left to
`gate_hw_cleanup`, says a comment in the former, but when it fails nobody calls it: the lines that
were requested before stay requested, and the next load finds them busy.
-/

namespace ParkingService.Gate

open Resources

/-! ## The code -/

inductive GateResource
  | deviceNumber
  | cdev
  | cls
  | device
  | gpio (pin : ℕ)
  | irq
  | thread
  deriving DecidableEq

/-- The calls of the kernel that may fail. -/
inductive GateCall
  | allocChrdevRegion
  | cdevAdd
  | classCreate
  | deviceCreate
  | gpioRequest (pin : ℕ)
  | gpioDirectionOutput (pin : ℕ)
  | gpioDirectionInput (pin : ℕ)
  | gpioToIrq
  | requestIrq
  | kthreadRun
  deriving DecidableEq

/-- How the calls of one load end. -/
structure GateCalls where
  ok : GateCall → Bool
  /-- what `gpio_to_irq` returns, negative if it fails -/
  irq : ℤ

structure GateStatics where
  /-- `gpio_allocated`, by the pin -/
  gpioAllocated : ℕ → Bool
  switchIrq : ℤ
  /-- `state_thread` is a thread -/
  stateThread : Bool

def GateStatics.fresh : GateStatics := ⟨fun _ ↦ false, -1, false⟩

def stepperIn1 : ℕ := 5

/-- `STEPPER_IN1` and so on, up to `ULTRASONIC_TRIG_PIN`. -/
def outPins : List ℕ := [stepperIn1, 6, 13, 19, 24, 26, 22, 25, 17]

def ultrasonicEchoPin : ℕ := 27

def switchPin : ℕ := 23

def allPins : List ℕ := outPins ++ [ultrasonicEchoPin, switchPin]

abbrev GateSetup := Setup (Ledger GateResource GateStatics) GateCall

section

variable (k : GateCalls)

def request (c : GateCall) (r : GateResource) : GateSetup Unit := Ledger.acquire c (k.ok c) r

def free (r : GateResource) : GateSetup Unit := Ledger.release r

def gateHwInit : GateSetup Unit := do
  Setup.each (fun pin ↦ do
    request k (.gpioRequest pin) (.gpio pin)
    Ledger.store fun m ↦ { m with gpioAllocated := Function.update m.gpioAllocated pin true })
    allPins
  Setup.each (fun pin ↦ .check (.gpioDirectionOutput pin) (k.ok (.gpioDirectionOutput pin))) outPins
  .check (.gpioDirectionInput ultrasonicEchoPin) (k.ok (.gpioDirectionInput ultrasonicEchoPin))
  .check (.gpioDirectionInput switchPin) (k.ok (.gpioDirectionInput switchPin))
  Ledger.store fun m ↦ { m with switchIrq := k.irq }
  .check .gpioToIrq (0 ≤ k.irq)
  request k .requestIrq .irq

def gateHwCleanup : GateSetup Unit := do
  Setup.when (fun s ↦ 0 ≤ s.memory.switchIrq) (free .irq)
  Setup.each (fun pin ↦ Setup.when (fun s ↦ s.memory.gpioAllocated pin) do
    free (.gpio pin)
    Ledger.store fun m ↦ { m with gpioAllocated := Function.update m.gpioAllocated pin false })
    allPins

/-- What is given back, from one step of `gate_node_init` down. -/
def freeDeviceNumber : GateSetup Unit := free .deviceNumber

def freeCdev : GateSetup Unit := do
  free .cdev
  freeDeviceNumber

def freeClass : GateSetup Unit := do
  free .cls
  freeCdev

def freeDevice : GateSetup Unit := do
  free .device
  freeClass

def gateNodeInit : GateSetup Unit := do
  request k .allocChrdevRegion .deviceNumber
  (request k .cdevAdd .cdev).unwind freeDeviceNumber
  (request k .classCreate .cls).unwind freeCdev
  (request k .deviceCreate .device).unwind freeClass
  -- the lines that `gate_hw_init` has got by then are not given back
  (gateHwInit k).unwind freeDevice
  (request k .kthreadRun .thread).unwind do
    gateHwCleanup
    freeDevice
  Ledger.store fun m ↦ { m with stateThread := true }

def gateNodeExit : GateSetup Unit := do
  Setup.when (fun s ↦ s.memory.stateThread) (free .thread)
  gateHwCleanup
  freeDevice

end

def gateModule : Module GateCalls GateResource GateStatics GateCall where
  fresh := .fresh
  init := gateNodeInit
  exit := gateNodeExit

/-! ## What a load holds -/

/-- Some lines beside other resources. -/
abbrev withLines (X : Finset GateResource) (pins : List ℕ) : Finset GateResource :=
  Ledger.adding .gpio X pins

theorem gpio_injective : Function.Injective GateResource.gpio := fun _ _ ↦ GateResource.gpio.inj

/-- All calls of `gate_hw_init` succeed. -/
structure HwSucceeds (k : GateCalls) : Prop where
  request : ∀ pin ∈ allPins, k.ok (.gpioRequest pin)
  output : ∀ pin ∈ outPins, k.ok (.gpioDirectionOutput pin)
  echo : k.ok (.gpioDirectionInput ultrasonicEchoPin)
  switch : k.ok (.gpioDirectionInput switchPin)
  toIrq : 0 ≤ k.irq
  irq : k.ok .requestIrq

/-- `gate_hw_init` gets a line and fails later. -/
def Leaks (k : GateCalls) : Prop :=
  (k.ok .allocChrdevRegion ∧ k.ok .cdevAdd ∧ k.ok .classCreate ∧ k.ok .deviceCreate) ∧
    k.ok (.gpioRequest stepperIn1) ∧ ¬ HwSucceeds k

/-- What `gate_node_init` gets before it turns to the hardware, beside other resources. -/
def withDevice (Y : Finset GateResource) : Finset GateResource :=
  insert .device (insert .cls (insert .cdev (insert .deviceNumber Y)))

/-- What a loaded module holds. -/
def gateHoldings : Finset GateResource :=
  insert .thread (insert .irq (withLines (withDevice ∅) allPins))

/-- The variables tell `gate_hw_cleanup` of all lines and of the interrupt. -/
structure LinesKnown (m : GateStatics) : Prop where
  lines : ∀ pin ∈ allPins, m.gpioAllocated pin
  irq : 0 ≤ m.switchIrq

variable {k : GateCalls} {X : Finset GateResource}

theorem request_spec (Q : GateStatics → Prop) (c : GateCall) {r : GateResource} (hr : r ∉ X) :
    Setup.Spec (fun s ↦ Ledger.Holds X s ∧ Q s.memory) (request k c r)
      (fun _ s ↦ k.ok c = true ∧ Ledger.Holds (insert r X) s ∧ Q s.memory)
      fun s ↦ k.ok c = false ∧ Ledger.Holds X s ∧ Q s.memory := Ledger.acquire_spec hr

/-- What a failure of `gate_hw_init` leaves: some lines, and none only if the first was refused. -/
def Left (k : GateCalls) (X : Finset GateResource)
    (s : Ledger GateResource GateStatics) : Prop :=
  ¬ HwSucceeds k ∧ ∃ pins, Ledger.Holds (withLines X pins) s ∧
    (pins = [] ↔ k.ok (.gpioRequest stepperIn1) = false)

theorem notMem_others {done rest : List ℕ} {pin : ℕ} (h : allPins = done ++ pin :: rest) :
    pin ∉ done ∧ pin ∉ rest := by
  have hnodup : (done ++ pin :: rest).Nodup := h ▸ by decide
  have := (List.nodup_cons.mp (List.nodup_middle.mp hnodup)).1
  exact ⟨fun hmem ↦ this (List.mem_append_left _ hmem),
    fun hmem ↦ this (List.mem_append_right _ hmem)⟩

/-- All lines have been got. -/
def HasLines (k : GateCalls) (X : Finset GateResource) (s : Ledger GateResource GateStatics) :
    Prop :=
  (∀ pin ∈ allPins, k.ok (.gpioRequest pin)) ∧ Ledger.Holds (withLines X allPins) s ∧
    ∀ pin ∈ allPins, s.memory.gpioAllocated pin

theorem HasLines.left {s : Ledger GateResource GateStatics} (h : HasLines k X s)
    (hfail : ¬ HwSucceeds k) : Left k X s := by
  refine ⟨hfail, allPins, h.2.1, ?_⟩
  have hfirst := h.1 stepperIn1 (by decide)
  simp [hfirst, allPins]

theorem requestLines_spec (hline : ∀ pin, .gpio pin ∉ X) :
    Setup.Spec (Ledger.Holds X)
      (Setup.each (fun pin ↦ do
        request k (.gpioRequest pin) (.gpio pin)
        Ledger.store fun m ↦ { m with gpioAllocated := Function.update m.gpioAllocated pin true })
        allPins)
      (fun _ ↦ HasLines k X) (Left k X) := by
  let I (done : List ℕ) (s : Ledger GateResource GateStatics) : Prop :=
    (∀ pin ∈ done, k.ok (.gpioRequest pin)) ∧ Ledger.Holds (withLines X done) s ∧
      ∀ pin ∈ done, s.memory.gpioAllocated pin
  have hbody : ∀ done pin rest, allPins = done ++ pin :: rest →
      Setup.Spec (I done) (do
        request k (.gpioRequest pin) (.gpio pin)
        Ledger.store fun m ↦ { m with gpioAllocated := Function.update m.gpioAllocated pin true })
        (fun _ ↦ I (done ++ [pin])) (Left k X) := by
    intro done pin rest hsplit
    refine .assume fun hok ↦ ?_
    have hnew : .gpio pin ∉ withLines X done :=
      Ledger.notMem_adding gpio_injective (hline pin) (notMem_others hsplit).1
    have hrequest := request_spec (k := k) (fun m ↦ ∀ p ∈ done, m.gpioAllocated p)
      (.gpioRequest pin) hnew
    refine (hrequest.weaken (fun _ h ↦ h) (fun _ _ h ↦ h) ?_).bind fun _ ↦ ?_
    · rintro s ⟨hpin, hheld, -⟩
      have hmem : pin ∈ allPins := hsplit ▸ List.mem_append_right _ List.mem_cons_self
      -- the lines in `done` stay, and `done` is empty only if this is the first pin
      refine ⟨fun h ↦ ?_, done, hheld, fun hnil ↦ ?_, fun hfirst ↦ ?_⟩
      · have := h.request pin hmem
        rw [hpin] at this
        cases this
      · rw [hnil] at hsplit
        obtain rfl : stepperIn1 = pin := (List.cons.inj hsplit).1
        exact hpin
      · cases done with
        | nil => rfl
        | cons first done =>
          obtain rfl : stepperIn1 = first := (List.cons.inj hsplit).1
          have := hok stepperIn1 List.mem_cons_self
          rw [hfirst] at this
          cases this
    · refine Setup.Spec.modify.weaken ?_ (fun _ _ h ↦ h) fun _ h ↦ h
      rintro s ⟨hpin, hheld, hallocated⟩
      refine ⟨?_, ⟨?_, hheld.sound⟩, ?_⟩
      · simpa [or_imp, forall_and, hpin] using hok
      · exact hheld.held.trans (Ledger.adding_append X pin).symm
      · intro pin' hpin'
        rcases List.mem_append.mp hpin' with h | h
        · by_cases hne : pin' = pin
          · simp [hne]
          · simpa [Function.update_of_ne hne] using hallocated pin' h
        · simp [List.mem_singleton.mp h]
  exact (Setup.Spec.each allPins hbody).weaken (fun s hs ↦ ⟨by simp, hs, by simp⟩) (fun _ _ h ↦ h)
    fun _ h ↦ h

/-- A call that gets nothing, once all lines have been got. -/
theorem check_spec {c : GateCall} {ok : Bool} (h : HwSucceeds k → ok = true) :
    Setup.Spec (HasLines k X) (.check c ok) (fun _ s ↦ ok = true ∧ HasLines k X s) (Left k X) := by
  refine Setup.Spec.check.weaken (fun _ h ↦ h) (fun _ _ h ↦ h) ?_
  rintro s ⟨hok, hs⟩
  refine hs.left fun hsucceeds ↦ ?_
  rw [h hsucceeds] at hok
  cases hok

theorem directOutputs_spec :
    Setup.Spec (HasLines k X)
      (Setup.each (fun pin ↦
        .check (.gpioDirectionOutput pin) (k.ok (.gpioDirectionOutput pin))) outPins :
        GateSetup Unit)
      (fun _ s ↦ (∀ pin ∈ outPins, k.ok (.gpioDirectionOutput pin)) ∧ HasLines k X s)
      (Left k X) := by
  let I (done : List ℕ) (s : Ledger GateResource GateStatics) : Prop :=
    (∀ pin ∈ done, k.ok (.gpioDirectionOutput pin)) ∧ HasLines k X s
  refine (Setup.Spec.each (I := I) outPins ?_).weaken (fun s hs ↦ ⟨by simp, hs⟩)
    (fun _ _ h ↦ h) fun _ h ↦ h
  intro done pin rest hsplit
  refine .assume fun hok ↦ (check_spec fun h ↦ h.output pin ?_).weaken (fun _ h ↦ h) ?_ fun _ h ↦ h
  · exact hsplit ▸ List.mem_append_right _ List.mem_cons_self
  · rintro - s ⟨hpin, hs⟩
    refine ⟨fun pin' hpin' ↦ ?_, hs⟩
    rcases List.mem_append.mp hpin' with h | h
    · exact hok pin' h
    · exact List.mem_singleton.mp h ▸ hpin

theorem gateHwInit_spec (hline : ∀ pin, .gpio pin ∉ X) (hirq : .irq ∉ X) :
    Setup.Spec (Ledger.Holds X) (gateHwInit k)
      (fun _ s ↦ HwSucceeds k ∧ Ledger.Holds (insert .irq (withLines X allPins)) s ∧
        LinesKnown s.memory)
      (Left k X) := by
  unfold gateHwInit
  refine (requestLines_spec hline).bind fun _ ↦ ?_
  refine directOutputs_spec.bind fun _ ↦ .assume fun hout ↦ ?_
  refine (check_spec fun h ↦ h.echo).bind fun _ ↦ .assume fun hecho ↦ ?_
  refine (check_spec fun h ↦ h.switch).bind fun _ ↦ .assume fun hswitch ↦ ?_
  have hstore : Setup.Spec (HasLines k X)
      (Ledger.store fun m ↦ { m with switchIrq := k.irq } : GateSetup Unit)
      (fun _ s ↦ HasLines k X s ∧ s.memory.switchIrq = k.irq) (Left k X) := by
    refine Setup.Spec.modify.weaken ?_ (fun _ _ h ↦ h) fun _ h ↦ h
    rintro s ⟨hreq, hheld, hallocated⟩
    exact ⟨⟨hreq, ⟨hheld.held, hheld.sound⟩, hallocated⟩, rfl⟩
  refine hstore.bind fun _ ↦ ?_
  refine (Setup.Spec.check.weaken (fun _ h ↦ h) (fun _ _ h ↦ h) ?_).bind fun _ ↦
    .assume fun hirqOk ↦ ?_
  · rintro s ⟨hirqOk, hs, -⟩
    exact hs.left fun h ↦ of_decide_eq_false hirqOk h.toIrq
  have hrequest := request_spec (k := k) (X := withLines X allPins)
    (fun m ↦ LinesKnown m ∧ ∀ pin ∈ allPins, k.ok (.gpioRequest pin)) .requestIrq (r := .irq) ?_
  · refine hrequest.weaken ?_ ?_ ?_
    · rintro s ⟨⟨hreq, hheld, hallocated⟩, hswitchIrq⟩
      exact ⟨hheld, ⟨hallocated, hswitchIrq ▸ of_decide_eq_true hirqOk⟩, hreq⟩
    · rintro - s ⟨hirq, hheld, hknown, hreq⟩
      exact ⟨⟨hreq, hout, hecho, hswitch, of_decide_eq_true hirqOk, hirq⟩, hheld, hknown⟩
    · rintro s ⟨hirq, hheld, hknown, hreq⟩
      refine HasLines.left ⟨hreq, hheld, hknown.lines⟩ fun h ↦ ?_
      rw [h.irq] at hirq
      cases hirq
  · rw [Ledger.mem_adding]
    rintro (h | ⟨pin, -, h⟩)
    · exact hirq h
    · cases h

/-! ## What is given back -/

variable {Y : Finset GateResource} {E : Ledger GateResource GateStatics → Prop}

theorem free_spec {r : GateResource} (hr : r ∉ Y) :
    Setup.Spec (Ledger.Holds (insert r Y)) (free r) (fun _ ↦ Ledger.Holds Y) E :=
  Ledger.release_holds hr

theorem freeDeviceNumber_spec (hY : .deviceNumber ∉ Y) :
    Setup.Spec (Ledger.Holds (insert .deviceNumber Y)) freeDeviceNumber (fun _ ↦ Ledger.Holds Y)
      E :=
  free_spec hY

theorem freeCdev_spec (hY : .deviceNumber ∉ Y) (hY' : .cdev ∉ Y) :
    Setup.Spec (Ledger.Holds (insert .cdev (insert .deviceNumber Y))) freeCdev
      (fun _ ↦ Ledger.Holds Y) E :=
  (free_spec (by simp [hY'])).bind fun _ ↦ freeDeviceNumber_spec hY

theorem freeClass_spec (hY : .deviceNumber ∉ Y) (hY' : .cdev ∉ Y) (hY'' : .cls ∉ Y) :
    Setup.Spec (Ledger.Holds (insert .cls (insert .cdev (insert .deviceNumber Y)))) freeClass
      (fun _ ↦ Ledger.Holds Y) E :=
  (free_spec (by simp [hY''])).bind fun _ ↦ freeCdev_spec hY hY'

theorem freeDevice_spec (hY : ∀ r ∈ Y, r ∉ withDevice ∅) :
    Setup.Spec (Ledger.Holds (withDevice Y)) freeDevice (fun _ ↦ Ledger.Holds Y) E := by
  have hnot : ∀ r ∈ withDevice ∅, r ∉ Y := fun r hr h ↦ hY r h hr
  refine (free_spec ?_).bind fun _ ↦
    freeClass_spec (hnot _ (by decide)) (hnot _ (by decide)) (hnot _ (by decide))
  simp [hnot .device (by decide)]

/-- Some lines are to be given back, and the variables know of them. -/
def ToFree (X : Finset GateResource) (pins : List ℕ) (s : Ledger GateResource GateStatics) : Prop :=
  Ledger.Holds (withLines X pins) s ∧ ∀ pin ∈ pins, s.memory.gpioAllocated pin

theorem gateHwCleanup_spec (hline : ∀ pin, .gpio pin ∉ X) (hirq : .irq ∉ X) :
    Setup.Spec (fun s ↦ Ledger.Holds (insert .irq (withLines X allPins)) s ∧ LinesKnown s.memory)
      gateHwCleanup (fun _ ↦ Ledger.Holds X) E := by
  have hirq' : .irq ∉ withLines X allPins := by
    rw [Ledger.mem_adding]
    rintro (h | ⟨pin, -, h⟩)
    · exact hirq h
    · cases h
  have hbody : ∀ done pin rest, allPins = done ++ pin :: rest →
      Setup.Spec (ToFree X (allPins.drop done.length))
        (Setup.when (fun s ↦ s.memory.gpioAllocated pin) (do
          free (.gpio pin)
          Ledger.store fun m ↦
            { m with gpioAllocated := Function.update m.gpioAllocated pin false }))
        (fun _ ↦ ToFree X (allPins.drop (done ++ [pin]).length)) E := by
    intro done pin rest hsplit
    have hdrop : allPins.drop done.length = pin :: rest := by rw [hsplit, List.drop_left]
    have hdrop' : allPins.drop (done ++ [pin]).length = rest := by simp [hsplit]
    have hnew : .gpio pin ∉ withLines X rest :=
      Ledger.notMem_adding gpio_injective (hline pin) (notMem_others hsplit).2
    rw [hdrop, hdrop']
    refine .when (fun s hs ↦ hs.2 pin List.mem_cons_self) ?_
    refine (Ledger.release_spec (Q := fun m : GateStatics ↦ ∀ p ∈ rest, m.gpioAllocated p)
      hnew).weaken (fun s hs ↦ ⟨hs.1, fun p hp ↦ hs.2 p (List.mem_cons_of_mem _ hp)⟩)
      (fun _ _ h ↦ h) (fun _ h ↦ h) |>.bind fun _ ↦ ?_
    refine Setup.Spec.modify.weaken ?_ (fun _ _ h ↦ h) fun _ h ↦ h
    rintro s ⟨hheld, hallocated⟩
    refine ⟨⟨hheld.held, hheld.sound⟩, fun p hp ↦ ?_⟩
    have hne : p ≠ pin := fun h ↦ (notMem_others hsplit).2 (h ▸ hp)
    simpa [Function.update_of_ne hne] using hallocated p hp
  refine (Setup.Spec.when (fun s hs ↦ decide_eq_true hs.2.irq)
    (Ledger.release_spec hirq')).bind fun _ ↦ ?_
  refine (Setup.Spec.each (I := fun done ↦ ToFree X (allPins.drop done.length)) allPins
    hbody).weaken (fun s hs ↦ ⟨hs.1, hs.2.lines⟩) (fun _ s hs ↦ ?_)
    fun _ h ↦ h
  have hheld := hs.1
  rwa [List.drop_length] at hheld

/-! ## Loads and unloads -/

theorem withLines_withDevice (pins : List ℕ) :
    withLines (withDevice ∅) pins = withDevice (withLines ∅ pins) := by
  simp only [withDevice, Ledger.adding_insert]

theorem freeDevice_lines (pins : List ℕ) :
    Setup.Spec (Ledger.Holds (withLines (withDevice ∅) pins)) freeDevice
      (fun _ ↦ Ledger.Holds (withLines ∅ pins)) E := by
  rw [withLines_withDevice]
  refine freeDevice_spec fun r hr ↦ ?_
  rcases Ledger.mem_adding.mp hr with h | ⟨pin, -, rfl⟩
  · exact absurd h (Finset.notMem_empty r)
  · simp [withDevice]

theorem accounted_of_left
    (hdev : k.ok .allocChrdevRegion ∧ k.ok .cdevAdd ∧ k.ok .classCreate ∧ k.ok .deviceCreate) :
    Setup.Spec (Left k (withDevice ∅)) freeDevice (fun _ ↦ Ledger.Accounted (Leaks k))
      (Ledger.Accounted (Leaks k)) := by
  rintro s ⟨hfail, pins, hheld, hpins⟩
  have hfree := freeDevice_lines (E := Ledger.Accounted (Leaks k)) pins s hheld
  split at hfree
  · rename_i s' _
    have hempty : Ledger.Holds ∅ s' ↔ pins = [] := by
      rw [← Ledger.adding_eq_empty (f := GateResource.gpio)]
      exact ⟨fun h ↦ hfree.held.symm.trans h.held, fun h ↦ h ▸ hfree⟩
    show _ ↔ _
    rw [hempty, hpins]
    refine ⟨fun hfirst hleak ↦ ?_, fun hno ↦ ?_⟩
    · have := hleak.2.1
      rw [hfirst] at this
      cases this
    · by_contra hfirst
      exact hno ⟨hdev, by simpa using hfirst, hfail⟩
  · exact hfree

/-- A step before the hardware. -/
theorem device_step_spec (c : GateCall) {r : GateResource} (hr : r ∉ X) {undo : GateSetup Unit}
    (hundo : Setup.Spec (Ledger.Holds X) undo (fun _ ↦ Ledger.Holds ∅) (Ledger.Holds ∅))
    (hc : k.ok c = false → ¬ Leaks k) :
    Setup.Spec (Ledger.Holds X) ((request k c r).unwind undo)
      (fun _ s ↦ k.ok c = true ∧ Ledger.Holds (insert r X) s) (Ledger.Accounted (Leaks k)) :=
  Ledger.accounted_unwind (Ledger.acquire_holds hr) hundo hc

theorem gateNodeInit_spec :
    Setup.Spec (Ledger.Holds ∅) (gateNodeInit k)
      (fun _ s ↦ Ledger.Holds gateHoldings s ∧ (LinesKnown s.memory ∧ s.memory.stateThread) ∧
        ¬ Leaks k)
      (Ledger.Accounted (Leaks k)) := by
  unfold gateNodeInit
  refine Setup.Spec.bind ((Ledger.acquire_holds (Finset.notMem_empty _)).weaken
    (fun _ hs ↦ hs) (fun _ _ hs ↦ hs) fun s hs ↦ Ledger.accounted (fun hl ↦ ?_) s hs.2) fun _ ↦
    .assume fun hnumber ↦ ?_
  · simp [hl.1.1] at hs
  refine (device_step_spec .cdevAdd (by decide) (freeDeviceNumber_spec (by decide))
    fun hok hl ↦ by simp [hl.1.2.1] at hok).bind fun _ ↦ .assume fun hcdev ↦ ?_
  refine (device_step_spec .classCreate (by decide) (freeCdev_spec (by decide) (by decide))
    fun hok hl ↦ by simp [hl.1.2.2.1] at hok).bind fun _ ↦ .assume fun hcls ↦ ?_
  refine (device_step_spec .deviceCreate (by decide)
    (freeClass_spec (by decide) (by decide) (by decide))
    fun hok hl ↦ by simp [hl.1.2.2.2] at hok).bind fun _ ↦ .assume fun hdevice ↦ ?_
  have hdev := And.intro hnumber (And.intro hcdev (And.intro hcls hdevice))
  refine ((gateHwInit_spec (X := withDevice ∅) (by simp [withDevice]) (by decide)).unwind
    (accounted_of_left hdev)).bind fun _ ↦ .assume fun hhw ↦ ?_
  -- from here on `gate_hw_cleanup` knows of everything
  have hk : ¬ Leaks k := fun hl ↦ hl.2.2 hhw
  have hthread : .thread ∉ insert .irq (withLines (withDevice ∅) allPins) := by
    simp [Ledger.mem_adding, withDevice]
  refine (Ledger.accounted_unwind (request_spec LinesKnown .kthreadRun hthread)
    ((gateHwCleanup_spec (by simp [withDevice]) (by decide)).bind fun _ ↦ freeDevice_lines [])
    fun _ ↦ hk).bind fun _ ↦ .assume fun _ ↦ ?_
  refine Setup.Spec.modify.weaken ?_ (fun _ _ hs ↦ hs) fun _ hs ↦ hs
  rintro s ⟨hheld, hknown⟩
  exact ⟨⟨hheld.held, hheld.sound⟩, ⟨⟨hknown.lines, hknown.irq⟩, rfl⟩, hk⟩

theorem gateNodeExit_spec :
    Setup.Spec
      (fun s ↦ Ledger.Holds gateHoldings s ∧ LinesKnown s.memory ∧ s.memory.stateThread)
      gateNodeExit (fun _ ↦ Ledger.Holds ∅) (Ledger.Holds ∅) := by
  unfold gateNodeExit
  have hthread : .thread ∉ insert .irq (withLines (withDevice ∅) allPins) := by
    simp [Ledger.mem_adding, withDevice]
  refine (Setup.Spec.when (fun _ hs ↦ hs.2.2) ((Ledger.release_spec (Q := LinesKnown)
    hthread).weaken (fun _ hs ↦ ⟨hs.1, hs.2.1⟩) (fun _ _ hs ↦ hs) fun _ hs ↦ hs)).bind fun _ ↦ ?_
  refine (gateHwCleanup_spec (by simp [withDevice]) (by decide)).bind fun _ ↦ ?_
  exact freeDevice_lines []

theorem gateModule_accounts :
    gateModule.Accounts gateHoldings (fun m ↦ LinesKnown m ∧ m.stateThread) Leaks where
  init _ := gateNodeInit_spec.weaken (fun _ hs ↦ hs.1) (fun _ _ hs ↦ hs) fun _ hs ↦ hs
  exit := gateNodeExit_spec

/-- **Which runs of the module leave nothing behind.** -/
theorem gateModule_tidy_iff {as : List (Action GateCalls)}
    {states : List (System GateResource GateStatics)}
    (hrun : gateModule.run .start as = some states) :
    (∀ s ∈ states, Module.Tidy gateHoldings s) ↔ ∀ k, .load k ∈ as → ¬ Leaks k :=
  gateModule_accounts.run_iff Module.kept_start (fun _ h ↦ h) (fun _ ↦ Module.Tidy.clean) hrun

/-- The thread is refused, then all goes well, then the first line is refused, and all goes well
again: the two failed loads give back what they got. -/
theorem gateModule_tidy_iff_failed :
    let k : GateCalls := { ok := fun _ ↦ true, irq := 40 }
    let noThread : GateCalls := { k with ok := fun c ↦ c ≠ .kthreadRun }
    let noLine : GateCalls := { k with ok := fun c ↦ c ≠ .gpioRequest stepperIn1 }
    let as : List (Action GateCalls) :=
      [.load noThread, .load k, .unload, .load noLine, .load k]
    ∃ states, gateModule.run .start as = some states ∧
      ∀ s ∈ states, Module.Tidy gateHoldings s := by
  intro k noThread noLine as
  have hk : ¬ Leaks k := fun hl ↦
    hl.2.2 ⟨fun _ _ ↦ rfl, fun _ _ ↦ rfl, rfl, rfl, by decide, rfl⟩
  have hnoThread : ¬ Leaks noThread := fun hl ↦
    hl.2.2 ⟨fun _ _ ↦ rfl, fun _ _ ↦ rfl, rfl, rfl, by decide, rfl⟩
  have hnoLine : ¬ Leaks noLine := fun hl ↦ by simpa [noLine] using hl.2.1
  obtain ⟨states, hrun⟩ : ∃ states, gateModule.run .start as = some states :=
    Option.isSome_iff_exists.mp (by decide +kernel)
  refine ⟨states, hrun, (gateModule_tidy_iff hrun).mpr fun k' hk' ↦ ?_⟩
  simp only [as, List.mem_cons, List.not_mem_nil, or_false, reduceCtorEq, false_or,
    Action.load.injEq] at hk'
  obtain rfl | rfl | rfl | rfl := hk'
  · exact hnoThread
  · exact hk
  · exact hnoLine
  · exact hk

/-- The interrupt of the button is refused, and all lines stay requested. -/
theorem refused_irq_keeps_lines :
    let k : GateCalls := { ok := fun c ↦ c ≠ .requestIrq, irq := 40 }
    ¬ ∀ states, gateModule.run .start [.load k] = some states →
      ∀ s ∈ states, Module.Tidy gateHoldings s := by
  intro k h
  have hend : (gateModule.run .start [.load k]).map (List.map fun s ↦
      (s.loaded.isSome, decide (.gpio stepperIn1 ∈ s.held))) = some [(false, true)] := by
    decide +kernel
  obtain ⟨states, hrun, hstates⟩ := Option.map_eq_some_iff.mp hend
  obtain ⟨s, rest, rfl, hs, -⟩ := List.map_eq_cons_iff.mp hstates
  obtain ⟨hloaded, hline⟩ := Prod.mk.inj hs
  have hheld := (h _ hrun s List.mem_cons_self).held
  rw [hloaded] at hheld
  exact absurd (hheld ▸ of_decide_eq_true hline) (Finset.notMem_empty _)

end ParkingService.Gate
