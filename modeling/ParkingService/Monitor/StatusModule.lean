import ParkingService.Monitor.StatusDevice
import ParkingService.Resources.Ledger

/-!
# Loading the status module

`rpi3_status_init` asks for five things, and each of its labels gives back what has been got when
one comes to it; `rpi3_status_exit` gives back all five in the opposite order. Unlike the other two
drivers it leaves nothing behind, whatever call of the kernel fails.

The text lives in the image of the module, so it begins anew with every load. Loads, unloads and the
calls in between make one run, and `statusRun_keeps` says what such a run comes to: what is held,
and that the text is the text of the calls since the last load.
-/

namespace ParkingService.Monitor

open Resources
open Text (Buffer cString)

/-! ## The code -/

/-- What the kernel gives to the module. -/
inductive StatusResource
  | chrdevRegion
  | cdev
  | cls
  | device
  | procEntry
  deriving DecidableEq

/-- The calls of the kernel that may fail. -/
inductive StatusRequest
  | allocChrdevRegion
  | cdevAdd
  | classCreate
  | deviceCreate
  | procCreate
  deriving DecidableEq

/-- The variable of the module that matters is `status_buf`. -/
abbrev StatusSetup := Setup (Ledger StatusResource Buffer) StatusRequest

section

variable (ok : StatusRequest → Bool)

def requestStatus (c : StatusRequest) (r : StatusResource) : StatusSetup Unit :=
  Ledger.acquire c (ok c) r

def freeStatus (r : StatusResource) : StatusSetup Unit := Ledger.release r

def unregisterChrdev : StatusSetup Unit := freeStatus .chrdevRegion

def deleteCdev : StatusSetup Unit := do
  freeStatus .cdev
  unregisterChrdev

def destroyClass : StatusSetup Unit := do
  freeStatus .cls
  deleteCdev

def destroyDevice : StatusSetup Unit := do
  freeStatus .device
  destroyClass

def rpi3StatusInit : StatusSetup Unit := do
  requestStatus ok .allocChrdevRegion .chrdevRegion
  (requestStatus ok .cdevAdd .cdev).unwind unregisterChrdev
  (requestStatus ok .classCreate .cls).unwind deleteCdev
  (requestStatus ok .deviceCreate .device).unwind destroyClass
  (requestStatus ok .procCreate .procEntry).unwind destroyDevice

def rpi3StatusExit : StatusSetup Unit := do
  freeStatus .procEntry
  freeStatus .device
  freeStatus .cls
  freeStatus .cdev
  freeStatus .chrdevRegion

end

def statusModule : Module (StatusRequest → Bool) StatusResource Buffer StatusRequest where
  fresh := statusBuf
  init := rpi3StatusInit
  exit := rpi3StatusExit

/-- What can happen to the module. -/
inductive StatusAction
  | load (ok : StatusRequest → Bool)
  | unload
  | call (c : StatusCall)

/-- A call only comes through while the module is loaded. -/
def statusStep (s : System StatusResource Buffer) :
    StatusAction → Option (System StatusResource Buffer)
  | .load ok => statusModule.step s (.load ok)
  | .unload => statusModule.step s .unload
  | .call (.write c) => s.loaded.map fun b ↦ { s with loaded := some (rpi3StatusWrite b c).1 }
  | .call .read => s.loaded.map fun _ ↦ s

/-- What these actions, of which the last one comes first, lead to. -/
def statusRun : List StatusAction → Option (System StatusResource Buffer)
  | [] => some .start
  | a :: as => (statusRun as).bind (statusStep · a)

/-- The calls since the last load, of which the last one comes first. -/
def callsSinceLoad : List StatusAction → List StatusCall
  | .call c :: as => c :: callsSinceLoad as
  | _ => []

/-! ## What is held at each label -/

def atUnregisterChrdev : Finset StatusResource := insert .chrdevRegion ∅

def atDeleteCdev : Finset StatusResource := insert .cdev atUnregisterChrdev

def atDestroyClass : Finset StatusResource := insert .cls atDeleteCdev

def atDestroyDevice : Finset StatusResource := insert .device atDestroyClass

/-- What a loaded module holds. -/
def statusHoldings : Finset StatusResource := insert .procEntry atDestroyDevice

section

variable {ok : StatusRequest → Bool} {X : Finset StatusResource} {Q : Buffer → Prop}
  {E : Ledger StatusResource Buffer → Prop} {undo : StatusSetup Unit}

/-- A request, and what is undone if it is refused. -/
theorem requestStatus_spec (c : StatusRequest) {r : StatusResource} (hr : r ∉ X)
    (hundo : Setup.Spec (Ledger.Holds X) undo (fun _ ↦ Ledger.Holds ∅) (Ledger.Holds ∅)) :
    Setup.Spec (fun s ↦ Ledger.Holds X s ∧ Q s.memory) ((requestStatus ok c r).unwind undo)
      (fun _ s ↦ Ledger.Holds (insert r X) s ∧ Q s.memory) (Ledger.Holds ∅) :=
  ((Ledger.acquire_spec hr).weaken (fun _ hs ↦ hs) (fun _ _ hs ↦ hs.2)
    fun _ hs ↦ hs.2.1).unwind hundo

theorem freeStatus_spec {r : StatusResource} (hr : r ∉ X) :
    Setup.Spec (Ledger.Holds (insert r X)) (freeStatus r) (fun _ ↦ Ledger.Holds X) E :=
  Ledger.release_holds hr

theorem unregisterChrdev_spec :
    Setup.Spec (Ledger.Holds atUnregisterChrdev) unregisterChrdev (fun _ ↦ Ledger.Holds ∅) E :=
  freeStatus_spec (by decide)

theorem deleteCdev_spec :
    Setup.Spec (Ledger.Holds atDeleteCdev) deleteCdev (fun _ ↦ Ledger.Holds ∅) E :=
  (freeStatus_spec (by decide)).bind fun _ ↦ unregisterChrdev_spec

theorem destroyClass_spec :
    Setup.Spec (Ledger.Holds atDestroyClass) destroyClass (fun _ ↦ Ledger.Holds ∅) E :=
  (freeStatus_spec (by decide)).bind fun _ ↦ deleteCdev_spec

theorem destroyDevice_spec :
    Setup.Spec (Ledger.Holds atDestroyDevice) destroyDevice (fun _ ↦ Ledger.Holds ∅) E :=
  (freeStatus_spec (by decide)).bind fun _ ↦ destroyClass_spec

/-- All or nothing, and the text is not touched. -/
theorem rpi3StatusInit_spec :
    Setup.Spec (fun s ↦ Ledger.Holds ∅ s ∧ Q s.memory) (rpi3StatusInit ok)
      (fun _ s ↦ Ledger.Holds statusHoldings s ∧ Q s.memory) (Ledger.Holds ∅) := by
  refine Setup.Spec.bind ((Ledger.acquire_spec (by decide)).weaken (fun _ hs ↦ hs)
    (fun _ _ hs ↦ hs.2) fun _ hs ↦ hs.2.1) fun _ ↦ ?_
  refine (requestStatus_spec .cdevAdd (by decide) unregisterChrdev_spec).bind fun _ ↦ ?_
  refine (requestStatus_spec .classCreate (by decide) deleteCdev_spec).bind fun _ ↦ ?_
  refine (requestStatus_spec .deviceCreate (by decide) destroyClass_spec).bind fun _ ↦ ?_
  exact requestStatus_spec .procCreate (by decide) destroyDevice_spec

theorem rpi3StatusExit_spec :
    Setup.Spec (Ledger.Holds statusHoldings) rpi3StatusExit (fun _ ↦ Ledger.Holds ∅) E :=
  (freeStatus_spec (by decide)).bind fun _ ↦ destroyDevice_spec

end

theorem statusModule_accounts {Ready : Buffer → Prop} (h : Ready statusBuf) :
    statusModule.Accounts statusHoldings Ready fun _ ↦ False where
  init _ := rpi3StatusInit_spec.weaken (fun _ hs ↦ ⟨hs.1, by rw [hs.2]; exact h⟩)
    (fun _ _ hs ↦ ⟨hs.1, hs.2, id⟩) (Ledger.accounted id)
  exit := rpi3StatusExit_spec.weaken (fun _ hs ↦ hs.1) (fun _ _ hs ↦ hs) fun _ hs ↦ hs

/-! ## Every run -/

/-- What holds after each action. -/
structure StatusKept (calls : List StatusCall) (s : System StatusResource Buffer) : Prop where
  tidy : Module.Tidy statusHoldings s
  text : ∀ b, s.loaded = some b → b = deviceAfter calls

namespace StatusKept

variable {calls : List StatusCall} {s s' : System StatusResource Buffer}

/-- A load finds the text of the image, whatever was written before. -/
theorem load {ok : StatusRequest → Bool} (hs : StatusKept calls s)
    (h : statusModule.step s (.load ok) = some s') : StatusKept [] s' := by
  have hnone : s.loaded = none := by
    cases hloaded : s.loaded with
    | none => rfl
    | some b =>
      rw [Module.step, hloaded] at h
      cases h
  have hkept : Module.Kept statusHoldings (· = statusBuf) s :=
    ⟨hs.tidy, fun b hb ↦ by rw [hnone] at hb; cases hb⟩
  have haccounts : statusModule.Accounts statusHoldings (· = statusBuf) fun _ ↦ False :=
    statusModule_accounts rfl
  obtain ⟨htidy, htext⟩ := (haccounts.load hkept h).2 id
  exact ⟨htidy, htext⟩

theorem unload (hs : StatusKept calls s) (h : statusModule.step s .unload = some s') :
    StatusKept [] s' := by
  have hkept : Module.Kept statusHoldings (fun _ ↦ True) s := ⟨hs.tidy, fun _ _ ↦ trivial⟩
  have htidy := ((statusModule_accounts trivial).unload hkept h).tidy
  refine ⟨htidy, fun b hb ↦ ?_⟩
  rw [Module.step] at h
  split at h
  · obtain rfl := Option.some.inj h
    cases hb
  · cases h

theorem call {c : StatusCall} (hs : StatusKept calls s) (h : statusStep s (.call c) = some s') :
    StatusKept (c :: calls) s' := by
  cases c with
  | write c =>
    obtain ⟨b, hb, rfl⟩ := Option.map_eq_some_iff.mp h
    refine ⟨⟨?_, hs.tidy.sound⟩, fun b' hb' ↦ ?_⟩
    · have hheld := hs.tidy.held
      rw [hb] at hheld
      exact hheld
    · obtain rfl := Option.some.inj hb'
      rw [hs.text b hb]
      rfl
  | read =>
    obtain ⟨b, -, rfl⟩ := Option.map_eq_some_iff.mp h
    exact ⟨hs.tidy, hs.text⟩

end StatusKept

theorem statusRun_kept {as : List StatusAction} {s : System StatusResource Buffer}
    (h : statusRun as = some s) : StatusKept (callsSinceLoad as) s := by
  induction as generalizing s with
  | nil =>
    obtain rfl := Option.some.inj h
    exact ⟨⟨rfl, rfl⟩, fun b hb ↦ by cases hb⟩
  | cons a as ih =>
    obtain ⟨s₀, hs₀, hstep⟩ := Option.bind_eq_some_iff.mp h
    cases a with
    | load ok => exact (ih hs₀).load hstep
    | unload => exact (ih hs₀).unload hstep
    | call c => exact (ih hs₀).call hstep

/-- **The life of the status module.** After any loads, of which any call of the kernel may have
failed, unloads, writes and reads, the module holds all it has asked for if it is loaded and nothing
otherwise, and nothing was given back that was not held. What is shown while it is loaded is what
the last write since it was loaded has copied, or the text it begins with. -/
theorem statusRun_keeps {as : List StatusAction} {s : System StatusResource Buffer}
    (h : statusRun as = some s) :
    s.sound = true ∧ s.held = (if s.loaded.isSome then statusHoldings else ∅)
      ∧ ∀ b, s.loaded = some b →
        rpi3StatusProcShow b = cString (lastCopied (callsSinceLoad as)) := by
  have hkept := statusRun_kept h
  refine ⟨hkept.tidy.sound, hkept.tidy.held, fun b hb ↦ ?_⟩
  rw [hkept.text b hb]
  exact rpi3StatusProcShow_deviceAfter _

/-- The class is refused, the module is loaded again, written to, unloaded and loaded once more. -/
theorem statusRun_keeps_reload : ∃ s, statusRun
    [.load fun _ ↦ true, .unload, .call (.write ⟨[88], 1⟩), .load fun _ ↦ true,
      .load fun c ↦ decide (c ≠ .classCreate)] = some s
    ∧ s.held = statusHoldings ∧ ∀ b, s.loaded = some b →
      rpi3StatusProcShow b = cString initialStatus := by
  obtain ⟨s, hs⟩ : ∃ s, statusRun [.load fun _ ↦ true, .unload, .call (.write ⟨[88], 1⟩),
      .load fun _ ↦ true, .load fun c ↦ decide (c ≠ .classCreate)] = some s := ⟨_, rfl⟩
  obtain ⟨-, hheld, htext⟩ := statusRun_keeps hs
  have hloaded : s.loaded.isSome := by
    obtain rfl := Option.some.inj hs
    rfl
  rw [if_pos hloaded] at hheld
  exact ⟨s, hs, hheld, htext⟩

end ParkingService.Monitor
