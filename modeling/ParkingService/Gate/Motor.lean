import ParkingService.Concurrency.Mutex
import ParkingService.Gate.UserNode

/-!
# One motor, two threads

Both threads of the user-space gate node open the gate, the main thread closes it, and only
`gate_open` keeps `gate_mutex` while the motor turns. That is enough: a gate that is closed is only
moved by the thread that holds the mutex, a gate that is open only by the main thread, and a status
is written only when the arm has come to the end it names. `Orderly` says this of one act of the
controller, and `motor_safe` says it of all of them, however the two threads are interleaved. It
does not matter for the motor whether an update of `sys_state` is lost.

Nobody waits for the mutex for long either: `gate_mutex_released` counts the operations its holder
may perform before it lets go of it.
-/

namespace ParkingService.UserNode

open Concurrency

/-! ## Acts of the controller -/

/-- The operation of the controller that a label is about. -/
def ctlOp? : NodeLabel → Option CtlOp
  | .op _ (.inl o) _ => some o
  | _ => none

/-- Where the arm is when the gate has this status. -/
def GateStatus.rest : GateStatus → ℤ
  | .closed => 0
  | .open => stepperGateSteps

theorem GateStatus.eq_open {g : GateStatus} (h : g ≠ .closed) : g = .open := by
  cases g with
  | closed => exact absurd rfl h
  | _ => rfl

/-- What the acts of the controller come to: who holds `gate_mutex`, who has made a step since the
motor was last switched off, and the controller itself. -/
structure Duty where
  owner : Option NodeThread
  driver : Option NodeThread
  controller : Controller

/-- How the threads keep out of each other's way. -/
def Orderly (d : Duty) (t : NodeThread) : CtlOp → Prop
  | .lockGate => d.owner = none
  | .unlockGate | .readGate => d.owner = some t
  | .writeGate g =>
    d.owner = some t ∧ d.driver = none ∧ d.controller.currentState ≠ g
      ∧ d.controller.position = g.rest ∧ (g = .closed → t = .main)
  | .stepperStep _ =>
    (d.driver = none ∨ d.driver = some t)
      ∧ if d.controller.currentState = .closed then d.owner = some t else t = .main
  | .deenergize => d.driver = some t

instance (d : Duty) (t : NodeThread) : ∀ o, Decidable (Orderly d t o)
  | .lockGate => inferInstanceAs (Decidable (d.owner = none))
  | .unlockGate | .readGate => inferInstanceAs (Decidable (d.owner = some t))
  | .writeGate _ => inferInstanceAs (Decidable (_ ∧ _))
  | .stepperStep _ => inferInstanceAs (Decidable (_ ∧ _))
  | .deenergize => inferInstanceAs (Decidable (d.driver = some t))

namespace Duty

def init : Duty := ⟨none, none, .init⟩

def next (d : Duty) (t : NodeThread) (o : CtlOp) : Duty where
  owner := match o with
    | .lockGate => some t
    | .unlockGate => none
    | _ => d.owner
  driver := match o with
    | .stepperStep _ => some t
    | .deenergize => none
    | _ => d.driver
  controller := o.effect d.controller

end Duty

/-- The duty, and whether all acts so far were orderly. -/
structure DutyHistory extends Duty where
  orderly : Bool

namespace DutyHistory

def init : DutyHistory := ⟨.init, true⟩

def next (h : DutyHistory) : Option NodeThread → CtlOp → DutyHistory
  | some t, o => ⟨h.toDuty.next t o, h.orderly && decide (Orderly h.toDuty t o)⟩
  | none, _ => h

def of (tr : List NodeLabel) : DutyHistory :=
  tr.foldl (fun h l ↦ (ctlOp? l).elim h (h.next l.by?)) init

variable {tr : List NodeLabel} {l : NodeLabel} {o : CtlOp}

theorem of_append_of_none (ho : ctlOp? l = none) : of (tr ++ [l]) = of tr := by
  simp [of, ho]

theorem of_append_of_some (ho : ctlOp? l = some o) :
    of (tr ++ [l]) = (of tr).next l.by? o := by
  simp [of, ho]

end DutyHistory

/-- A label is an orderly act, or none of the controller. -/
def InOrder (pre : List NodeLabel) (l : NodeLabel) : Prop :=
  ∀ t o, l.by? = some t → ctlOp? l = some o → Orderly (DutyHistory.of pre).toDuty t o

theorem by?_of_ctlOp {l : NodeLabel} {o : CtlOp} (ho : ctlOp? l = some o) :
    ∃ t, l.by? = some t := by
  cases l with
  | op t o r => exact ⟨t, rfl⟩
  | _ => cases ho

/-- What `orderly` records. -/
theorem DutyHistory.orderly_iff (tr : List NodeLabel) :
    (DutyHistory.of tr).orderly = true ↔ Always InOrder tr := by
  induction tr using List.reverseRecOn with
  | nil => exact iff_of_true rfl always_nil
  | append_singleton tr l ih =>
    rw [always_append_singleton, ← ih]
    cases ho : ctlOp? l with
    | none =>
      have hl : InOrder tr l := fun t o _ h ↦ by simp [ho] at h
      rw [of_append_of_none ho, and_iff_left hl]
    | some o =>
      obtain ⟨t, ht⟩ := by?_of_ctlOp ho
      rw [of_append_of_some ho, ht, next, Bool.and_eq_true_iff, decide_eq_true_iff]
      refine and_congr_right fun _ ↦ ⟨fun h t' o' ht' ho' ↦ ?_, fun h ↦ h t o ht ho⟩
      obtain rfl : t = t' := Option.some.inj (ht.symm.trans ht')
      obtain rfl : o = o' := Option.some.inj (ho.symm.trans ho')
      exact h

/-! ## The board -/

/-- What holds at every moment. -/
structure Duty.Sound (d : Duty) : Prop where
  mutex : d.controller.gateMutex = d.owner.isSome
  nonneg : 0 ≤ d.controller.position
  le : d.controller.position ≤ stepperGateSteps
  phase : d.controller.currentStep = d.controller.position % 8
  off : d.driver = none →
    d.controller.pins = .off ∧ ∃ g : GateStatus, d.controller.position = g.rest
  closed : d.controller.currentState = .closed → d.owner = none →
    d.driver = none ∧ d.controller.position = 0

/-- The history and the controller as it really is. -/
structure MotorBoard extends DutyHistory where
  actual : Controller

namespace MotorBoard

def next (b : MotorBoard) (u : Option NodeThread) (o : CtlOp) : MotorBoard :=
  ⟨b.toDutyHistory.next u o, o.effect b.actual⟩

def ofSnap (s : NodeSnap) : MotorBoard := ⟨.of s.trace, s.state.controller⟩

structure Sound (b : MotorBoard) : Prop where
  agree : b.controller = b.actual
  orderly : b.orderly = true
  duty : b.toDuty.Sound

/-- What a sound board says of an act. -/
theorem Sound.orderly_of_next {b : MotorBoard} {u : NodeThread} {o : CtlOp}
    (h : (b.next (some u) o).Sound) : Orderly b.toDuty u o := by
  have horderly : (b.orderly && decide (Orderly b.toDuty u o)) = true := h.orderly
  exact of_decide_eq_true (Bool.and_eq_true_iff.mp horderly).2

theorem Sound.next {b : MotorBoard} {t : NodeThread} {o : CtlOp} (h : b.Sound)
    (ho : Orderly b.toDuty t o) (hd : (b.toDuty.next t o).Sound) :
    (b.next (some t) o).Sound where
  agree := congrArg o.effect h.agree
  orderly := Bool.and_eq_true_iff.mpr ⟨h.orderly, decide_eq_true ho⟩
  duty := hd

end MotorBoard

theorem controller_of_emits {s x : Node} {l : NodeLabel} (hx : nodeMachine.Emits s l x) :
    x.controller = (ctlOp? l).elim s.controller fun o ↦ o.effect s.controller := by
  cases l with
  | start t j =>
    obtain ⟨p, hentry⟩ := hx
    cases t <;> obtain ⟨-, rfl⟩ := Prod.mk.inj (Option.some.inj hentry) <;> rfl
  | op t o r =>
    cases o with
    | inl o =>
      obtain ⟨c, hc, rfl⟩ := Option.map_eq_some_iff.mp hx
      exact (Option.some.inj (Option.ite_none_right_eq_some.mp hc).2).symm
    | inr o =>
      obtain ⟨-, hx⟩ := Option.ite_none_right_eq_some.mp hx
      obtain rfl := Option.some.inj hx
      cases o <;> rfl
  | ext e => exact e.elim

def motorBoard : Board nodeMachine CtlOp MotorBoard where
  act? := ctlOp?
  view := MotorBoard.ofSnap
  next := MotorBoard.next
  view_of_none {s l x} hx ho := by
    rw [MotorBoard.ofSnap, MotorBoard.ofSnap, Snap.log_trace, DutyHistory.of_append_of_none ho,
      Snap.log_state, controller_of_emits hx, ho]
    rfl
  view_of_some {s l x o} hx ho := by
    rw [MotorBoard.ofSnap, Snap.log_trace, DutyHistory.of_append_of_some ho, Snap.log_state,
      controller_of_emits hx, ho]
    rfl

abbrev motorOutline : Outline nodeMachine := motorBoard.outline MotorBoard.Sound

/-! ## Assertions -/

section Assertions

variable {t u : NodeThread} {d : Duty} {o : CtlOp} {g : GateStatus} {x : ℤ} {moving : Bool}

/-- What orderly acts of the other thread cannot falsify. -/
def Stable (t : NodeThread) (P : Duty → Prop) : Prop :=
  ∀ d u o, Orderly d u o → u ≠ t → P d → P (d.next u o)

def ensure (t : NodeThread) {P : Duty → Prop} (h : Stable t P) : motorOutline.Assertion t :=
  motorBoard.assert _ t (fun b ↦ P b.toDuty) fun b u o _ hnext hu hP ↦ by
    cases u with
    | none => exact hP
    | some u => exact h b.toDuty u o hnext.orderly_of_next (fun h ↦ hu (congrArg some h)) hP

theorem ensure_about {P : Duty → Prop} {h : Stable t P} : Board.About (ensure t h) :=
  Board.about_assert

/-- Between two calls: to the main thread, an open gate is at rest. -/
def Duty.Away (t : NodeThread) (d : Duty) : Prop :=
  t = .main → d.controller.currentState = .open →
    d.driver = none ∧ d.controller.position = GateStatus.open.rest

/-- Thread `t` holds `gate_mutex` and has left everything at rest. -/
def Duty.Inside (t : NodeThread) (d : Duty) : Prop :=
  d.owner = some t ∧ d.Away t
    ∧ (d.controller.currentState = .closed → d.driver = none ∧ d.controller.position = 0)

/-- Thread `t` has looked at the gate and found it so. -/
def Duty.Found (t : NodeThread) (g : GateStatus) (d : Duty) : Prop :=
  d.Inside t ∧ d.controller.currentState = g

/-- The arm is at `x`, and it is for thread `t` to move it. -/
def Duty.Drives (t : NodeThread) (g : GateStatus) (x : ℤ) (moving : Bool) (d : Duty) : Prop :=
  d.controller.currentState = g ∧ d.controller.position = x
    ∧ d.driver = (if moving then some t else none)
    ∧ if g = .closed then d.owner = some t else t = .main

theorem away_stable : Stable t (Duty.Away t) := by
  intro d u o ho hu h ht hopen
  cases o with
  | writeGate g =>
    obtain ⟨-, hdriver, -, hposition, -⟩ := ho
    obtain rfl : g = .open := hopen
    exact ⟨hdriver, hposition⟩
  | stepperStep direction =>
    -- the other thread moves a closed gate only
    have hopen : d.controller.currentState = .open := hopen
    have hmain := ho.2
    rw [hopen, if_neg (by decide)] at hmain
    exact absurd (hmain.trans ht.symm) hu
  | deenergize => exact absurd ho (by simp [Orderly, (h ht hopen).1])
  | _ => exact h ht hopen

theorem Stable.and {P Q : Duty → Prop} (hP : Stable t P) (hQ : Stable t Q) :
    Stable t fun d ↦ P d ∧ Q d :=
  fun d u o ho hu h ↦ ⟨hP d u o ho hu h.1, hQ d u o ho hu h.2⟩

theorem owner_stable : Stable t fun d ↦ d.owner = some t := by
  intro d u o ho hu howner
  cases o with
  | lockGate => cases (show d.owner = none from ho).symm.trans howner
  | unlockGate => exact absurd (Option.some.inj (ho.symm.trans howner)) hu
  | _ => exact howner

theorem inside_stable : Stable t (Duty.Inside t) := by
  intro d u o ho hu h
  obtain ⟨howner, haway, hclosed⟩ := h
  have hother : d.owner ≠ some u := fun h ↦ hu (Option.some.inj (h.symm.trans howner))
  refine ⟨owner_stable d u o ho hu howner, away_stable d u o ho hu haway, fun hstate ↦ ?_⟩
  cases o with
  | writeGate g => exact absurd ho.1 hother
  | stepperStep direction =>
    have hstate : d.controller.currentState = .closed := hstate
    have howns := ho.2
    rw [if_pos hstate] at howns
    exact absurd howns hother
  | deenergize => exact absurd ho (by simp [Orderly, (hclosed hstate).1])
  | _ => exact hclosed hstate

theorem found_stable : Stable t (Duty.Found t g) := by
  intro d u o ho hu h
  obtain ⟨hinside, hstate⟩ := h
  refine ⟨inside_stable d u o ho hu hinside, ?_⟩
  cases o with
  | writeGate g => exact absurd (Option.some.inj (ho.1.symm.trans hinside.1)) hu
  | _ => exact hstate

/-- The other thread leaves a closed gate alone, since it does not hold `gate_mutex`, and an open
one, since it is not the main thread. -/
theorem drives_stable : Stable t (Duty.Drives t g x moving) := by
  intro d u o ho hu h
  obtain ⟨rfl, hposition, hdriver, hby⟩ := h
  have howner : d.controller.currentState = .closed → d.owner ≠ some u := fun hg h ↦ by
    rw [if_pos hg] at hby
    exact hu (Option.some.inj (h.symm.trans hby))
  have hmain : d.controller.currentState ≠ .closed → u ≠ .main := fun hg h ↦ by
    rw [if_neg hg] at hby
    exact hu (h.trans hby.symm)
  have hnot : d.driver ≠ some u := fun h ↦ by
    cases moving with
    | true => exact hu (Option.some.inj (h.symm.trans hdriver))
    | false => cases h.symm.trans hdriver
  cases o with
  | lockGate =>
    refine ⟨rfl, hposition, hdriver, ?_⟩
    split_ifs at hby ⊢
    · cases (show d.owner = none from ho).symm.trans hby
    · exact hby
  | unlockGate =>
    refine ⟨rfl, hposition, hdriver, ?_⟩
    split_ifs at hby ⊢
    · exact absurd ho (howner ‹_›)
    · exact hby
  | readGate => exact ⟨rfl, hposition, hdriver, hby⟩
  | writeGate g =>
    obtain ⟨howns, -, hstate, -, hclosed⟩ := ho
    have hopen : d.controller.currentState ≠ .closed := fun h ↦ howner h howns
    refine absurd (hclosed ?_) (hmain hopen)
    by_contra hg
    exact hstate ((GateStatus.eq_open hopen).trans (GateStatus.eq_open hg).symm)
  | stepperStep direction =>
    have howns := ho.2
    split_ifs at howns with hstate
    · exact absurd howns (howner hstate)
    · exact absurd howns (hmain hstate)
  | deenergize => exact absurd ho hnot

def away (t : NodeThread) : motorOutline.Assertion t := ensure t away_stable

def inside (t : NodeThread) : motorOutline.Assertion t := ensure t inside_stable

def found (t : NodeThread) (g : GateStatus) : motorOutline.Assertion t :=
  ensure t (found_stable (g := g))

def drives (t : NodeThread) (g : GateStatus) (x : ℤ) (moving : Bool) :
    motorOutline.Assertion t :=
  ensure t (P := Duty.Drives t g x moving) drives_stable

end Assertions

/-! ## Rules -/

section Rules

variable {t : NodeThread} {g : GateStatus} {x : ℤ} {moving : Bool} {P : Duty → Prop}
  {hP : Stable t P}

/-- One act of a thread. -/
theorem act_rule {o : CtlOp} {Q : o.Resp → Duty → Prop} {hQ : ∀ r, Stable t (Q r)}
    (h : ∀ d r, d.Sound → P d → o.Answers r d.controller →
      Orderly d t o ∧ (d.next t o).Sound ∧ Q r (d.next t o)) :
    motorOutline.Triple t (ensure t hP) (ctlPerform o).inl fun r ↦ ensure t (hQ r) := by
  refine Board.act (W := motorBoard) (o := .inl o) (fun _ ↦ o) (fun _ ↦ rfl)
    fun s r x hsound hs hexec hview ↦ ?_
  obtain ⟨c, hc, -⟩ := Option.map_eq_some_iff.mp hexec
  have hanswers : o.Answers r s.state.controller := (Option.ite_none_right_eq_some.mp hc).1
  have hagree : (DutyHistory.of s.trace).controller = s.state.controller := hsound.agree
  rw [← hagree] at hanswers
  obtain ⟨ho, hd, hr⟩ := h _ r hsound.duty hs hanswers
  exact ⟨hsound.next ho hd, show Q r (motorBoard.view _).toDuty from hview ▸ hr⟩

/-- Operations that are none of the controller. -/
def Apart : NodeOp → Prop
  | .inl _ => False
  | .inr _ => True

theorem apart_rule {α : Type} {p : NodeProg α} (hp : p.Uses Apart) :
    motorOutline.Triple t (ensure t hP) p fun _ ↦ ensure t hP :=
  Board.quiet_program ensure_about hp fun o ho r ↦ by
    cases o with
    | inl o => exact ho.elim
    | inr o => rfl

/-! ### The mutex -/

theorem lock_rule :
    motorOutline.Triple t (away t) (ctlPerform .lockGate).inl fun _ ↦ inside t := by
  refine act_rule fun d r hd haway hfree ↦ ?_
  have howner : d.owner = none := by
    have hfree : d.controller.gateMutex = false := hfree
    rwa [hd.mutex, Option.isSome_eq_false_iff, Option.isNone_iff_eq_none] at hfree
  refine ⟨howner, ⟨rfl, hd.nonneg, hd.le, hd.phase, hd.off, fun _ h ↦ by cases h⟩, rfl, haway, ?_⟩
  exact fun h ↦ hd.closed h howner

theorem read_rule :
    motorOutline.Triple t (inside t) (ctlPerform .readGate).inl fun g ↦ found t g := by
  refine act_rule fun d g hd hinside hg ↦ ?_
  exact ⟨hinside.1, ⟨hd.mutex, hd.nonneg, hd.le, hd.phase, hd.off, hd.closed⟩, hinside, hg.symm⟩

/-- Whatever holds of a gate left at rest, thread `t` may let go of it. -/
theorem unlock_rule {Q : Duty → Prop} (hQ : Stable t Q) (hinside : ∀ d, P d → d.Inside t)
    (h : ∀ d, P d → Q (d.next t .unlockGate)) :
    motorOutline.Triple t (ensure t hP) (ctlPerform .unlockGate).inl fun _ ↦ ensure t hQ := by
  refine act_rule fun d r hd hPd _ ↦ ?_
  obtain ⟨howner, haway, hclosed⟩ := hinside d hPd
  refine ⟨howner, ⟨rfl, hd.nonneg, hd.le, hd.phase, hd.off, fun h _ ↦ hclosed h⟩, h d hPd⟩

/-! ### The motor -/

/-- One step towards `x + direction`. -/
theorem step_rule {direction : ℤ} (hdirection : direction = 1 ∨ direction = -1)
    (hx : 0 ≤ x + direction) (hle : x + direction ≤ stepperGateSteps) :
    motorOutline.Triple t (drives t g x moving) (ctlPerform (.stepperStep direction)).inl
      fun _ ↦ drives t g (x + direction) true := by
  refine act_rule fun d r hd hdrives _ ↦ ?_
  obtain ⟨rfl, rfl, hdriver, hby⟩ := hdrives
  have horderly : d.driver = none ∨ d.driver = some t := by
    cases moving with
    | true => exact .inr hdriver
    | false => exact .inl hdriver
  refine ⟨⟨horderly, hby⟩, ⟨hd.mutex, hx, hle, ?_, (nomatch ·), fun hclosed howner ↦ ?_⟩,
    rfl, rfl, rfl, hby⟩
  · -- the sequence keeps up with the arm, in either direction
    change (d.controller.currentStep + direction + 8).tmod 8
      = (d.controller.position + direction) % 8
    rw [hd.phase, Int.tmod_eq_emod_of_nonneg (by omega)]
    omega
  · have hclosed : d.controller.currentState = .closed := hclosed
    rw [if_pos hclosed] at hby
    cases (show d.owner = none from howner).symm.trans hby

/-- A movement within the travel of the arm. -/
theorem stepperMove_rule {steps : ℤ} (hsteps : steps ≠ 0) (hx : 0 ≤ x)
    (hle : x ≤ stepperGateSteps) (hx' : 0 ≤ x + steps) (hle' : x + steps ≤ stepperGateSteps) :
    motorOutline.Triple t (drives t g x moving) (stepperMove steps).inl
      fun _ ↦ drives t g (x + steps) true := by
  rw [stepperMove, Prog.inl_times]
  generalize hdirection : (if 0 < steps then 1 else -1 : ℤ) = direction
  have hcases : direction = 1 ∧ steps = steps.natAbs
      ∨ direction = -1 ∧ steps = -steps.natAbs := by
    split_ifs at hdirection <;> omega
  have hdirection : direction = 1 ∨ direction = -1 := hcases.imp And.left And.left
  have hend : x + (steps.natAbs : ℕ) * direction = x + steps := by
    obtain ⟨rfl, hcount⟩ | ⟨rfl, hcount⟩ := hcases <;> omega
  have hstep : ∀ i < steps.natAbs, motorOutline.Triple t
      (drives t g (x + (i : ℕ) * direction) (moving || decide (0 < i)))
      (ctlPerform (.stepperStep direction)).inl
      fun _ ↦ drives t g (x + ((i + 1 : ℕ) : ℤ) * direction) (moving || decide (0 < i + 1)) := by
    intro i hi
    have hnext : x + (i : ℕ) * direction + direction = x + ((i + 1 : ℕ) : ℤ) * direction := by
      obtain ⟨rfl, -⟩ | ⟨rfl, -⟩ := hcases <;> omega
    have hwithin : 0 ≤ x + (i : ℕ) * direction + direction
        ∧ x + (i : ℕ) * direction + direction ≤ stepperGateSteps := by
      obtain ⟨rfl, hcount⟩ | ⟨rfl, hcount⟩ := hcases <;> omega
    rw [← hnext, decide_eq_true i.succ_pos, Bool.or_true]
    exact step_rule hdirection hwithin.1 hwithin.2
  have hloop := Outline.Triple.times
    (A := fun i ↦ drives t g (x + (i : ℕ) * direction) (moving || decide (0 < i))) _ hstep
  have hstart : x + ((0 : ℕ) : ℤ) * direction = x := by omega
  have hmoved : (moving || decide (0 < steps.natAbs)) = true := by
    rw [decide_eq_true (Int.natAbs_pos.mpr hsteps), Bool.or_true]
  rw [hend, hmoved, hstart, decide_eq_false (Nat.lt_irrefl 0), Bool.or_false] at hloop
  exact hloop

theorem deenergize_rule {e : GateStatus} (hx : x = e.rest) :
    motorOutline.Triple t (drives t g x true) stepperDeenergize.inl fun _ ↦ drives t g x false := by
  refine act_rule (o := .deenergize) fun d r hd hdrives _ ↦ ?_
  obtain ⟨rfl, rfl, hdriver, hby⟩ := hdrives
  refine ⟨hdriver, ⟨hd.mutex, hd.nonneg, hd.le, hd.phase, fun _ ↦ ⟨rfl, e, hx⟩, ?_⟩,
    rfl, rfl, rfl, hby⟩
  intro hclosed howner
  exact ⟨rfl, (hd.closed hclosed howner).2⟩

/-- The status may be written when the arm is where it says. -/
theorem writeGate_rule {e : GateStatus} (hg : g ≠ e) (hx : x = e.rest)
    (ht : e = .closed → t = .main) (howner : ∀ d, P d → d.owner = some t)
    (hdrives : ∀ d, P d → d.Drives t g x false) :
    motorOutline.Triple t (ensure t hP) (ctlPerform (.writeGate e)).inl fun _ ↦ inside t := by
  refine act_rule fun d r hd hPd _ ↦ ?_
  obtain ⟨hstate, hposition, hdriver, -⟩ := hdrives d hPd
  have hx : d.controller.position = e.rest := hposition.trans hx
  refine ⟨⟨howner d hPd, hdriver, hstate.trans_ne hg, hx, ht⟩,
    ⟨hd.mutex, hd.nonneg, hd.le, hd.phase, hd.off, ?_⟩, howner d hPd, ?_, ?_⟩
  · intro _ h
    cases (howner d hPd).symm.trans h
  · rintro - rfl
    exact ⟨hdriver, hx⟩
  · rintro rfl
    exact ⟨hdriver, hx⟩

end Rules

/-! ## The threads -/

section Threads

variable {t : NodeThread}

/-- To leave with what was found. -/
theorem leave_rule : motorOutline.Triple t (inside t) (ctlPerform .unlockGate).inl fun _ ↦ away t :=
  unlock_rule away_stable (fun _ h ↦ h) fun _ h ↦ h.2.1

/-- A gate that is found closed is for the finder to open. -/
theorem Duty.Found.drives {d : Duty} (h : d.Found t .closed) : d.Drives t .closed 0 false := by
  obtain ⟨⟨howner, -, hclosed⟩, hstate⟩ := h
  obtain ⟨hdriver, hposition⟩ := hclosed hstate
  exact ⟨hstate, hposition, hdriver, howner⟩

/-- A gate that is found open is for the main thread to close. -/
theorem Duty.Found.drives_main {d : Duty} (h : d.Found .main .open) :
    d.Drives .main .open stepperGateSteps false := by
  obtain ⟨⟨-, haway, -⟩, hstate⟩ := h
  obtain ⟨hdriver, hposition⟩ := haway rfl hstate
  exact ⟨hstate, hposition, hdriver, rfl⟩

/-- The gate is opened by the thread that finds it closed, and nobody else moves it meanwhile. -/
theorem gateOpen_rule : motorOutline.Triple t (away t) gateOpen.inl fun _ ↦ away t := by
  refine .bind_inl lock_rule fun _ ↦ .bind_inl read_rule fun g ↦ ?_
  split_ifs with hg
  · exact unlock_rule away_stable (fun _ h ↦ h.1) fun _ h ↦ h.1.2.1
  · obtain rfl : g = .closed := by
      by_contra hclosed
      exact hg (GateStatus.eq_open hclosed)
    refine .pre (P := drives t .closed 0 false) (fun _ _ h ↦ Duty.Found.drives h) ?_
    refine .bind_inl (stepperMove_rule (by decide) (by decide) (by decide) (by decide) (by decide))
      fun _ ↦ ?_
    refine .bind_inl (deenergize_rule (e := .open) rfl) fun _ ↦ ?_
    refine .bind_inl (writeGate_rule (e := .open) (by decide) rfl (nomatch ·) ?_ fun _ h ↦ h)
      fun _ ↦ leave_rule
    exact fun d h ↦ h.2.2.2

theorem Duty.Drives.away {d : Duty} (h : d.Drives .main .open stepperGateSteps false) :
    d.Away .main :=
  fun _ _ ↦ ⟨h.2.2.1, h.2.1⟩

theorem undoClose_rule {done : ℕ} (hpos : 0 < done) (hdone : done ≤ stepperGateSteps) :
    motorOutline.Triple .main (drives .main .open (stepperGateSteps - done) true)
      (undoClose done).inl fun _ ↦ away .main := by
  refine .bind_inl (stepperMove_rule (by omega) (by omega) (by omega) (by omega) (by omega))
    fun _ ↦ ?_
  rw [Int.sub_add_cancel]
  refine .bind_inl (deenergize_rule (e := .open) rfl) fun _ ↦ ?_
  exact .ret fun _ _ h ↦ Duty.Drives.away h

/-- The main thread holds `gate_mutex` again, to write that the gate is closed. -/
theorem relock_rule {x : ℤ} :
    motorOutline.Triple t (drives t .open x false) (ctlPerform .lockGate).inl
      fun _ ↦ ensure t (P := fun d ↦ d.owner = some t ∧ d.Drives t .open x false)
        (owner_stable.and drives_stable) := by
  refine act_rule fun d r hd hdrives hfree ↦ ?_
  have howner : d.owner = none := by
    have hfree : d.controller.gateMutex = false := hfree
    rwa [hd.mutex, Option.isSome_eq_false_iff, Option.isNone_iff_eq_none] at hfree
  obtain ⟨hstate, hposition, hdriver, hby⟩ := hdrives
  exact ⟨howner, ⟨rfl, hd.nonneg, hd.le, hd.phase, hd.off, fun _ h ↦ by cases h⟩, rfl,
    hstate, hposition, hdriver, hby⟩

theorem finishClose_rule :
    motorOutline.Triple .main (drives .main .open 0 true) finishClose.inl fun _ ↦ away .main := by
  refine .bind_inl (deenergize_rule (e := .closed) rfl) fun _ ↦ .bind_inl relock_rule fun _ ↦ ?_
  refine .bind_inl (writeGate_rule (e := .closed) (by decide) rfl (fun _ ↦ rfl) (fun _ h ↦ h.1)
    fun _ h ↦ h.2) fun _ ↦ ?_
  exact .bind_inl leave_rule fun _ ↦ .ret fun _ _ h ↦ h

theorem add_batch_le {done : ℕ} (h : done < stepperGateSteps) :
    done + batch done ≤ stepperGateSteps := by
  rw [batch]
  split_ifs <;> omega

/-- From any batch on: the arm is as far from open as steps have been made. -/
theorem closeFrom_rule {check : NodeProg Bool} (hcheck : check.Uses Apart) {done : ℕ}
    (hdone : done ≤ stepperGateSteps) :
    motorOutline.Triple .main (drives .main .open (stepperGateSteps - done) (decide (0 < done)))
      (closeFrom (some check) done) fun _ ↦ away .main := by
  induction hleft : stepperGateSteps - done using Nat.strong_induction_on generalizing done with
  | _ left ih =>
    rw [closeFrom]
    split_ifs with hlt
    · have hpos := batch_pos hlt
      have hbatch : done + batch done ≤ stepperGateSteps := add_batch_le hlt
      have hrest := ih (stepperGateSteps - (done + batch done)) (by omega) hbatch rfl
      rw [decide_eq_true (by omega : 0 < done + batch done)] at hrest
      have hmove : motorOutline.Triple .main
          (drives .main .open (stepperGateSteps - done) (decide (0 < done)))
          (stepperMove (-batch done)).inl
          fun _ ↦ drives .main .open (stepperGateSteps - (done + batch done : ℕ)) true := by
        rw [show (stepperGateSteps : ℤ) - (done + batch done : ℕ)
          = stepperGateSteps - done + -batch done by omega]
        exact stepperMove_rule (by omega) (by omega) (by omega) (by omega) (by omega)
      refine .bind hmove fun _ ↦ .ite (fun _ ↦ ?_) fun _ ↦ hrest
      refine .bind (apart_rule hcheck) fun b ↦ ?_
      cases b with
      | true => exact undoClose_rule (by omega) hbatch
      | false => exact hrest
    · obtain rfl : done = stepperGateSteps := by omega
      rw [decide_eq_true (by decide), Int.sub_self]
      exact finishClose_rule

theorem gateCloseInterruptible_rule {check : NodeProg Bool} (hcheck : check.Uses Apart) :
    motorOutline.Triple .main (away .main) (gateCloseInterruptible (some check))
      fun _ ↦ away .main := by
  refine .bind lock_rule fun _ ↦ .bind read_rule fun g ↦ ?_
  cases g with
  | closed =>
    refine .bind (unlock_rule away_stable (fun _ h ↦ h.1) fun _ h ↦ h.1.2.1) fun _ ↦ ?_
    exact .ret fun _ _ h ↦ h
  | _ =>
    -- once the mutex is free again, it is being the main thread that keeps others away
    refine .bind (unlock_rule drives_stable (fun _ h ↦ h.1) fun d h ↦
      show d.Drives .main .open stepperGateSteps false from Duty.Found.drives_main h) fun _ ↦ ?_
    exact closeFrom_rule hcheck (Nat.zero_le stepperGateSteps)

theorem perform_apart (o : MainOp) : (nodePerform o).Uses Apart := ⟨trivial, fun _ ↦ trivial⟩

theorem ultrasonicMeasureCm_apart : ultrasonicMeasureCm.Uses Apart :=
  Prog.uses_bind (perform_apart _) fun echo ↦ by cases echo <;> trivial

theorem nextPhase_apart : nextPhase.Uses Apart :=
  Prog.uses_bind (perform_apart _) fun _ ↦ Prog.uses_bind (perform_apart _) fun _ ↦ trivial

theorem closeVehicleCheck_apart : closeVehicleCheck.Uses Apart := by
  refine Prog.uses_bind nextPhase_apart fun phase ↦ ?_
  refine Prog.uses_bind (perform_apart _) fun _ ↦ Prog.uses_bind ?_ fun d ↦ ?_
  · exact ultrasonicMeasureCm_apart
  · refine Prog.uses_ite (fun _ ↦ trivial) fun _ ↦ Prog.uses_bind (perform_apart _) fun flag ↦ ?_
    exact Prog.uses_ite (fun _ ↦ Prog.uses_bind (perform_apart _) fun _ ↦ trivial) fun _ ↦ trivial

/-- Operations of `main.c` do nothing to the gate. -/
theorem perform_rule (o : MainOp) :
    motorOutline.Triple t (away t) (nodePerform o) fun _ ↦ away t :=
  apart_rule (perform_apart o)

theorem closeOr_away (reopened : SystemState) :
    motorOutline.Triple .main (away .main) (closeOr reopened) fun _ ↦ away .main := by
  refine .bind (perform_rule _) fun _ ↦ ?_
  refine .bind (gateCloseInterruptible_rule closeVehicleCheck_apart) fun r ↦ .ite (fun _ ↦ ?_)
    fun _ ↦ ?_
  · exact .bind (perform_rule _) fun now ↦ .bind (perform_rule _) fun _ ↦ perform_rule _
  · exact .bind (perform_rule _) fun _ ↦ perform_rule _

theorem closeAfter_away (delaySec now : ℤ) (reopened : SystemState) :
    motorOutline.Triple .main (away .main) (closeAfter delaySec reopened now)
      fun _ ↦ away .main := by
  refine .bind (perform_rule _) fun stateTimer ↦ .ite (fun _ ↦ closeOr_away _) fun _ ↦ ?_
  exact .ret fun _ _ h ↦ h

theorem dispatch_away (s : SystemState) (dist : ℚ) (now : ℤ) :
    motorOutline.Triple .main (away .main) (dispatch s dist now) fun _ ↦ away .main := by
  have stay : motorOutline.Triple .main (away .main) (.ret ()) fun _ ↦ away .main :=
    .ret fun _ _ h ↦ h
  cases s with
  | idle =>
    refine .ite (fun _ ↦ .bind (perform_rule _) fun _ ↦ .bind gateOpen_rule fun _ ↦ ?_) fun _ ↦ stay
    exact .bind (perform_rule _) fun _ ↦ perform_rule _
  | entryDetected | exitVehicleDetected => exact .ite (fun _ ↦ perform_rule _) fun _ ↦ stay
  | entryWaiting | exitRequested | exitVehicleWaiting =>
    exact .ite (fun _ ↦ perform_rule _) fun _ ↦ closeAfter_away _ _ _

theorem signal_apart : signal.Uses Apart := by
  refine Prog.uses_bind (perform_apart _) fun curS ↦ Prog.uses_ite (fun _ ↦ ?_) fun _ ↦ ?_
  · exact Prog.uses_bind nextPhase_apart fun phase ↦
      Prog.uses_bind (perform_apart _) fun _ ↦ perform_apart _
  · exact Prog.uses_bind (perform_apart _) fun _ ↦
      Prog.uses_bind (perform_apart _) fun _ ↦ perform_apart _

theorem mainPass_away : motorOutline.Triple .main (away .main) mainPass fun _ ↦ away .main := by
  refine .bind (apart_rule ultrasonicMeasureCm_apart) fun dist ↦ .bind (perform_rule _) fun r ↦ ?_
  exact .bind (dispatch_away r.1 dist r.2) fun _ ↦ apart_rule signal_apart

theorem onSwitchPress_away :
    motorOutline.Triple .switch (away .switch) onSwitchPress fun _ ↦ away .switch := by
  refine .bind (perform_rule _) fun s ↦ .ite (fun _ ↦ perform_rule _) fun _ ↦ ?_
  refine .ite (fun _ ↦ perform_rule _) fun _ ↦ .ite (fun _ ↦ ?_) fun _ ↦ .ret fun _ _ h ↦ h
  refine .bind (perform_rule _) fun _ ↦ .bind gateOpen_rule fun _ ↦ ?_
  exact .bind (perform_rule _) fun _ ↦ perform_rule _

theorem motorOutline_valid : motorOutline.Valid away := by
  refine Board.valid (fun {_ e} ↦ e.elim) (fun _ _ ↦ rfl) (fun _ ↦ ensure_about) ?_
  intro t j s p x hentry
  cases t with
  | main =>
    obtain ⟨rfl, -⟩ := Prod.mk.inj (Option.some.inj hentry)
    exact mainPass_away
  | switch =>
    obtain ⟨rfl, -⟩ := Prod.mk.inj (Option.some.inj hentry)
    exact onSwitchPress_away

theorem motorSound_of_reachable {c : NodeConfig} (hc : NodeReachable c) :
    (MotorBoard.ofSnap c.toSnap).Sound
      ∧ ∀ t, c.thread t = none → (DutyHistory.of c.trace).toDuty.Away t := by
  have hinit : Duty.init.Sound :=
    ⟨rfl, Int.le_refl 0, by decide, rfl, fun _ ↦ ⟨rfl, .closed, rfl⟩,
      fun _ _ ↦ ⟨rfl, rfl⟩⟩
  exact Board.sound motorOutline_valid ⟨rfl, rfl, hinit⟩ (fun _ _ h ↦ by cases h) hc

end Threads

/-! ## Waiting for the mutex -/

/-- What the operations of the controller have to do with `gate_mutex`. -/
def CtlOp.use : CtlOp → LockUse
  | .lockGate => .lock
  | .unlockGate => .unlock
  | _ => .other

/-- Only taking the mutex may have to wait. -/
theorem CtlOp.exists_answer (o : CtlOp) (s : Controller)
    (hfree : o.use = .lock → s.gateMutex = false) : ∃ r, o.Answers r s := by
  cases o with
  | lockGate => exact ⟨(), hfree rfl⟩
  | readGate => exact ⟨s.currentState, rfl⟩
  | _ => exact ⟨(), trivial⟩

theorem MainOp.exists_answer (o : MainOp) (s : Node) : ∃ r, o.Answers r s := by
  cases o with
  | measure => exact ⟨none, trivial⟩
  | copyState => exact ⟨s.sysState, rfl⟩
  | copyStateNow => exact ⟨(s.sysState, 0), rfl⟩
  | writeStateNow x => exact ⟨(0 : ℤ), trivial⟩
  | loadTimer => exact ⟨s.stateTimer, rfl⟩
  | time => exact ⟨(0 : ℤ), trivial⟩
  | loadCloseFlag => exact ⟨s.switchCloseFlag, rfl⟩
  | loadPhase => exact ⟨s.buzzerPhase, rfl⟩
  | _ => exact ⟨(), trivial⟩

/-- `gate_mutex`. -/
def gateMutex : Mutex nodeMachine where
  use
    | .inl o => o.use
    | .inr _ => .other
  held s := s.controller.gateMutex
  exec {o r s x} hx := by
    cases o with
    | inl o =>
      obtain ⟨c, hc, rfl⟩ := Option.map_eq_some_iff.mp hx
      obtain ⟨hanswers, hc⟩ := Option.ite_none_right_eq_some.mp hc
      obtain rfl := Option.some.inj hc
      refine ⟨by cases o <;> rfl, fun hlock ↦ ?_⟩
      cases o with
      | lockGate => exact hanswers
      | _ => cases hlock
    | inr o =>
      obtain ⟨-, hx⟩ := Option.ite_none_right_eq_some.mp hx
      obtain rfl := Option.some.inj hx
      exact ⟨by cases o <;> rfl, (nomatch ·)⟩
  entry {t j s p x} hx := by
    cases t <;> obtain ⟨-, rfl⟩ := Prod.mk.inj (Option.some.inj hx) <;> rfl
  ext {e} := e.elim
  ready o s hfree := by
    cases o with
    | inl o =>
      obtain ⟨r, hr⟩ := o.exists_answer s.controller hfree
      exact ⟨r, _, Option.map_eq_some_iff.mpr ⟨_, if_pos hr, rfl⟩⟩
    | inr o =>
      obtain ⟨r, hr⟩ := o.exists_answer s
      exact ⟨r, _, if_pos hr⟩

/-- What `gate_open` does with the mutex held: it looks at the gate, opens it, switches the motor
off, writes what it has done and lets go. -/
def holding : ℕ := stepperGateSteps + 4

/-- To let go of the mutex, with something left of the budget or nothing. -/
theorem unlock_bracketed (n : ℕ) :
    (ctlPerform .unlockGate).Bracketed CtlOp.use holding (some (n + 1)) fun _ b ↦ b = none :=
  Prog.bracketed_call rfl

theorem gateOpen_bracketed : gateOpen.Bracketed CtlOp.use holding none fun _ b ↦ b = none := by
  refine .bind (Prog.bracketed_call (d := some (stepperGateSteps + 4)) rfl) ?_
  rintro - - rfl
  refine .bind (Prog.bracketed_call (d := some (stepperGateSteps + 3)) rfl) ?_
  rintro g - rfl
  split_ifs
  · exact unlock_bracketed _
  · refine .bind (Prog.bracketed_times (o := CtlOp.stepperStep 1) rfl stepperGateSteps 3) ?_
    rintro - - rfl
    refine .bind (Prog.bracketed_call (o := CtlOp.deenergize) (d := some 2) rfl) ?_
    rintro - - rfl
    refine .bind (Prog.bracketed_call (d := some 1) rfl) ?_
    rintro - - rfl
    exact unlock_bracketed 0

theorem finishClose_bracketed :
    finishClose.Bracketed CtlOp.use holding none fun _ b ↦ b = none := by
  refine .bind (Prog.bracketed_call (o := CtlOp.deenergize) (d := none) rfl) ?_
  rintro - - rfl
  refine .bind (Prog.bracketed_call (d := some (stepperGateSteps + 4)) rfl) ?_
  rintro - - rfl
  refine .bind (Prog.bracketed_call (d := some (stepperGateSteps + 3)) rfl) ?_
  rintro - - rfl
  refine .bind (unlock_bracketed _) ?_
  rintro - - rfl
  rfl

/-- Programs of this kind leave the mutex as they find it: free. -/
def Fair {α : Type} (p : NodeProg α) : Prop :=
  p.Bracketed gateMutex.use holding none fun _ b ↦ b = none

section Fair

variable {α β : Type}

theorem Fair.bind {p : NodeProg α} {f : α → NodeProg β} (hp : Fair p) (hf : ∀ a, Fair (f a)) :
    Fair (p >>= f) := by
  refine Prog.Bracketed.bind hp ?_
  rintro a - rfl
  exact hf a

theorem Fair.ite {c : Prop} [Decidable c] {p q : NodeProg α} (hp : Fair p) (hq : Fair q) :
    Fair (if c then p else q) := by
  split
  · exact hp
  · exact hq

theorem fair_ret (a : α) : Fair (.ret a) := rfl

theorem fair_apart {p : NodeProg α} (hp : p.Uses Apart) : Fair p :=
  Prog.Uses.bracketed (hp.mono fun o ho ↦ by
    cases o with
    | inl o => exact ho.elim
    | inr o => rfl)

theorem fair_perform (o : MainOp) : Fair (nodePerform o) := fair_apart (perform_apart o)

theorem fair_inl {p : CtlProg α} (hp : p.Bracketed CtlOp.use holding none fun _ b ↦ b = none) :
    Fair p.inl :=
  hp.inl fun _ ↦ rfl

theorem stepperMove_uses (steps : ℤ) : (stepperMove steps).Uses fun o ↦ o.use = .other := by
  refine Prog.uses_times ?_ _
  exact ⟨rfl, fun _ ↦ trivial⟩

theorem undoClose_uses (done : ℕ) : (undoClose done).Uses fun o ↦ o.use = .other :=
  Prog.uses_bind (stepperMove_uses _) fun _ ↦ ⟨rfl, fun _ ↦ trivial⟩

theorem closeFrom_fair {check : NodeProg Bool} (hcheck : Fair check) (done : ℕ) :
    Fair (closeFrom (some check) done) := by
  induction hleft : stepperGateSteps - done using Nat.strong_induction_on generalizing done with
  | _ left ih =>
    rw [closeFrom]
    split_ifs with hlt
    · have hpos := batch_pos hlt
      have hrest := ih (stepperGateSteps - (done + batch done)) (by omega) (done + batch done) rfl
      refine .bind (fair_inl (stepperMove_uses _).bracketed) fun _ ↦ .ite ?_ hrest
      exact .bind hcheck fun b ↦ .ite (fair_inl (undoClose_uses _).bracketed) hrest
    · exact fair_inl finishClose_bracketed

theorem gateCloseInterruptible_fair {check : NodeProg Bool} (hcheck : Fair check) :
    Fair (gateCloseInterruptible (some check)) := by
  refine Prog.Bracketed.bind (Prog.bracketed_call (o := Sum.inl CtlOp.lockGate)
    (d := some (stepperGateSteps + 4)) rfl) ?_
  rintro - - rfl
  refine Prog.Bracketed.bind (Prog.bracketed_call (o := Sum.inl CtlOp.readGate)
    (d := some (stepperGateSteps + 3)) rfl) ?_
  rintro g - rfl
  refine Prog.Bracketed.bind (Prog.bracketed_call (o := Sum.inl CtlOp.unlockGate)
    (d := none) rfl) ?_
  rintro - - rfl
  exact Fair.ite (fair_ret 0) (closeFrom_fair hcheck 0)

theorem closeOr_fair (reopened : SystemState) : Fair (closeOr reopened) := by
  refine .bind (fair_perform _) fun _ ↦ ?_
  refine .bind (gateCloseInterruptible_fair (fair_apart closeVehicleCheck_apart)) fun r ↦ .ite ?_ ?_
  · exact .bind (fair_perform _) fun now ↦ .bind (fair_perform _) fun _ ↦ fair_perform _
  · exact .bind (fair_perform _) fun _ ↦ fair_perform _

theorem closeAfter_fair (delaySec now : ℤ) (reopened : SystemState) :
    Fair (closeAfter delaySec reopened now) :=
  .bind (fair_perform _) fun _ ↦ .ite (closeOr_fair _) (fair_ret _)

theorem dispatch_fair (s : SystemState) (dist : ℚ) (now : ℤ) : Fair (dispatch s dist now) := by
  cases s with
  | idle =>
    refine .ite (.bind (fair_perform _) fun _ ↦ .bind (fair_inl gateOpen_bracketed) fun _ ↦ ?_)
      (fair_ret _)
    exact .bind (fair_perform _) fun _ ↦ fair_perform _
  | entryDetected | exitVehicleDetected => exact .ite (fair_perform _) (fair_ret _)
  | entryWaiting | exitRequested | exitVehicleWaiting =>
    exact .ite (fair_perform _) (closeAfter_fair _ _ _)

theorem mainPass_fair : Fair mainPass := by
  refine .bind (fair_apart ultrasonicMeasureCm_apart) fun dist ↦ .bind (fair_perform _) fun r ↦ ?_
  exact .bind (dispatch_fair r.1 dist r.2) fun _ ↦ fair_apart signal_apart

theorem onSwitchPress_fair : Fair onSwitchPress := by
  refine .bind (fair_perform _) fun s ↦ .ite (fair_perform _) ?_
  refine .ite (fair_perform _) (.ite ?_ (fair_ret _))
  refine .bind (fair_perform _) fun _ ↦ .bind (fair_inl gateOpen_bracketed) fun _ ↦ ?_
  exact .bind (fair_perform _) fun _ ↦ fair_perform _

end Fair

theorem gateMutex_respected : gateMutex.Respected holding := by
  intro t p j s x hentry
  cases t with
  | main =>
    obtain ⟨rfl, -⟩ := Prod.mk.inj (Option.some.inj hentry)
    exact mainPass_fair
  | switch =>
    obtain ⟨rfl, -⟩ := Prod.mk.inj (Option.some.inj hentry)
    exact onSwitchPress_fair

/-! ## Every run -/

/-- What the motor of the user-space gate node is promised. -/
structure MotorSafe (c : NodeConfig) : Prop where
  /-- every act keeps the rules -/
  inOrder : Always InOrder c.trace
  /-- the arm stays within its travel -/
  travel : 0 ≤ c.state.controller.position ∧ c.state.controller.position ≤ stepperGateSteps
  /-- the index into the sequence is the position of the arm, so it is an index -/
  phase : c.state.controller.currentStep = c.state.controller.position % 8
  /-- a motor that nobody drives is off, at one end of its travel -/
  off : (DutyHistory.of c.trace).driver = none →
    c.state.controller.pins = .off ∧ ∃ g : GateStatus, c.state.controller.position = g.rest
  /-- who finds the gate closed under `gate_mutex` finds the arm at rest there -/
  closed : c.state.controller.gateMutex = false → c.state.controller.currentState = .closed →
    (DutyHistory.of c.trace).driver = none ∧ c.state.controller.position = 0
  /-- between two passes of the loop the arm is where the gate says, if `gate_mutex` is free -/
  rest : c.state.controller.gateMutex = false → c.thread .main = none →
    (DutyHistory.of c.trace).driver = none
      ∧ c.state.controller.position = c.state.controller.currentState.rest

/-- **The motor is safe.** However the two threads are interleaved, and whether or not they lose
updates of `sys_state`: one thread at a time drives the motor, within the travel of the arm, and the
gate is reported closed or open where it is. -/
theorem motor_safe {c : NodeConfig} (hc : NodeReachable c) : MotorSafe c := by
  obtain ⟨hsound, haway⟩ := motorSound_of_reachable hc
  have hagree : (DutyHistory.of c.trace).controller = c.state.controller := hsound.agree
  have hduty : (DutyHistory.of c.trace).toDuty.Sound := hsound.duty
  have hfree : c.state.controller.gateMutex = false → (DutyHistory.of c.trace).owner = none := by
    intro h
    rwa [← hagree, hduty.mutex, Option.isSome_eq_false_iff, Option.isNone_iff_eq_none] at h
  rw [← hagree] at hfree
  constructor
  case inOrder => exact (DutyHistory.orderly_iff c.trace).mp hsound.orderly
  all_goals rw [← hagree]
  case travel => exact ⟨hduty.nonneg, hduty.le⟩
  case phase => exact hduty.phase
  case off => exact hduty.off
  case closed => exact fun hmutex hclosed ↦ hduty.closed hclosed (hfree hmutex)
  case rest =>
    intro hmutex hidle
    by_cases hclosed : (DutyHistory.of c.trace).controller.currentState = .closed
    · rw [hclosed]
      exact hduty.closed hclosed (hfree hmutex)
    · rw [GateStatus.eq_open hclosed]
      exact haway .main hidle rfl (GateStatus.eq_open hclosed)

/-- A press has asked for an opening, and the arm has made its first step. -/
theorem opening_reachable : ∃ c : NodeConfig, NodeReachable c
    ∧ c.state.controller.currentState = .closed ∧ c.state.controller.position = 1
    ∧ (DutyHistory.of c.trace).driver = some .switch
    ∧ gateMutex.owner c.trace = some .switch := by
  refine ⟨_, .tail (.tail (.tail (.tail (.tail (.single (.start (t := .switch) (j := ()) rfl rfl))
    (.op (t := .switch) (o := .inr .copyState) (r := SystemState.idle) rfl rfl))
    (.op (t := .switch) (o := .inr (.writeStateNow .exitRequested)) (r := (0 : ℤ)) rfl rfl))
    (.op (t := .switch) (o := .inl .lockGate) (r := ()) rfl rfl))
    (.op (t := .switch) (o := .inl .readGate) (r := GateStatus.closed) rfl rfl))
    (.op (t := .switch) (o := .inl (.stepperStep 1)) (r := ()) rfl rfl), rfl, rfl, rfl, rfl⟩

/-- In the middle of that opening. -/
theorem motor_safe_opening : ∃ c : NodeConfig, MotorSafe c
    ∧ c.state.controller.currentState = .closed ∧ c.state.controller.position = 1
    ∧ (DutyHistory.of c.trace).driver = some .switch := by
  obtain ⟨c, hc, hstate, hposition, hdriver, -⟩ := opening_reachable
  exact ⟨c, motor_safe hc, hstate, hposition, hdriver⟩

/-- **`gate_mutex` is given back.** A thread that cannot go on is about to take the mutex, and the
other one holds it. Whoever holds it can go on, and after 1028 of its operations at most, whatever
the other thread does meanwhile, has given it back: no press and no vehicle waits for ever. -/
theorem gate_mutex_released {c : NodeConfig} (hc : NodeReachable c) :
    (∀ t o k, c.thread t = some (.op o k) → (∃ r x, nodeMachine.exec o r c.state = some x)
      ∨ o = .inl .lockGate ∧ ∃ u, u ≠ t ∧ gateMutex.owner c.trace = some u)
    ∧ ∀ u, gateMutex.owner c.trace = some u →
      (∃ o k r x, c.thread u = some (.op o k) ∧ nodeMachine.exec o r c.state = some x)
      ∧ ∀ c', nodeMachine.Steps c c' → (∃ l ∈ c'.since c.toSnap, gateMutex.Releases u l)
        ∨ Mutex.opsOf u (c'.since c.toSnap) < 1028 := by
  have hsound : gateMutex.Sound holding c :=
    (Mutex.Sound.init Node.init rfl).steps gateMutex_respected hc
  refine ⟨fun t o k hthread ↦ ?_, fun u hu ↦ ⟨hsound.holder_ready hu, fun c' ↦ hsound.released hu⟩⟩
  refine (hsound.waits hthread).imp_right (And.imp_left fun huse ↦ ?_)
  rcases o with o | o
  · cases o with
    | lockGate => rfl
    | _ => cases huse
  · cases huse

/-- The switch thread holds the mutex, and the main thread may have to wait. -/
theorem gate_mutex_released_opening : ∃ c : NodeConfig, gateMutex.owner c.trace = some .switch
    ∧ ∀ c', nodeMachine.Steps c c' → (∃ l ∈ c'.since c.toSnap, gateMutex.Releases .switch l)
      ∨ Mutex.opsOf .switch (c'.since c.toSnap) < 1028 := by
  obtain ⟨c, hc, -, -, -, howner⟩ := opening_reachable
  exact ⟨c, howner, ((gate_mutex_released hc).2 .switch howner).2⟩

end ParkingService.UserNode
