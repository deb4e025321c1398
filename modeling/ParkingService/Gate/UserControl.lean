import ParkingService.Gate.Control
import ParkingService.Gate.UserNode

/-!
# The automaton of the user-space gate node

`node_follows_law`: as long as no update of `sys_state` is lost, the two threads of the user-space
node together follow the automaton of `Gate.Control`, by a law of their own. A press happens when it
is written. A pass happens when its thread has copied the state, unless it lets a vehicle in: until
that is written, a press may come first. What the main thread has copied is then still there when it
writes, so that what happens in between cannot matter.

`nodes_agree` puts the two nodes side by side. As long as the time gone by fits an `int`, they
differ in exactly two situations (`pass_same_iff`), and two runs without them, to which the same has
happened, are in the same state.
-/

namespace ParkingService.UserNode

open Concurrency

/-! ## What has happened -/

/-- The node looks at the sensor first, and compares time differences as they are. -/
def nodeLaw : Law := ⟨false, true, id⟩

/-- The operations that the state machine goes by, with their answers. -/
inductive ControlAct
  | measure (echoUs : Option ℤ)
  | copy (s : SystemState)
  | copyNow (s : SystemState) (now : ℤ)
  | write (s : SystemState) (timer : Option ℤ)
  | writeNow (s : SystemState) (now : ℤ)
  | time (now : ℤ)

def controlAct? : NodeLabel → Option ControlAct
  | .op _ (.inr .measure) r => some (.measure r)
  | .op _ (.inr .copyState) s => some (.copy s)
  | .op _ (.inr .copyStateNow) r => some (.copyNow r.1 r.2)
  | .op _ (.inr (.writeState s timer)) _ => some (.write s timer)
  | .op _ (.inr (.writeStateNow s)) now => some (.writeNow s now)
  | .op _ (.inr .time) now => some (.time now)
  | _ => none

/-- What an act does about `sys_state`. -/
def ControlAct.state? : ControlAct → Option StateAct
  | .copy s | .copyNow s _ => some (.copy s)
  | .write s _ | .writeNow s _ => some (.write s)
  | .measure _ | .time _ => none

/-- Where in a pass the main thread is. -/
inductive PassStage
  | fresh
  | measured (dist : ℚ)
  /-- it is going to let a vehicle in -/
  | entering (now : ℤ)
  | decided
  deriving DecidableEq

structure NodeLog where
  stage : PassStage
  events : List ControlEvent

namespace NodeLog

def init : NodeLog := ⟨.fresh, []⟩

/-- One more act of the main thread. -/
def main (g : NodeLog) (a : ControlAct) : NodeLog :=
  match g.stage, a with
  | .fresh, .measure echoUs => { g with stage := .measured (cmOf echoUs) }
  | .measured d, .copyNow s now =>
    if s = .idle ∧ glance (vehicleDetectCm : ℚ) d = .near then { g with stage := .entering now }
    else ⟨.decided, .pass (glance (vehicleDetectCm : ℚ) d) now none :: g.events⟩
  | .entering now, .write _ _ => ⟨.decided, .pass .near now none :: g.events⟩
  | .decided, .time t => { g with events := amend t g.events }
  | .decided, .copy _ => { g with stage := .fresh }
  | _, _ => g

def next (g : NodeLog) : Option NodeThread → ControlAct → NodeLog
  | some .main, a => g.main a
  | some .switch, .writeNow _ now => { g with events := .press now :: g.events }
  | _, _ => g

def of (tr : List NodeLabel) : NodeLog :=
  tr.foldl (fun g l ↦ (controlAct? l).elim g (g.next l.by?)) init

end NodeLog

/-- What has happened to the node, newest first. -/
def nodeEvents (tr : List NodeLabel) : List ControlEvent := (NodeLog.of tr).events

/-- What a distance means to the node. -/
theorem glance_eq_near {d : ℚ} : glance (vehicleDetectCm : ℚ) d = .near ↔ InRange d := by
  rw [glance, InRange]
  split_ifs with hneg haway hpos
  · exact iff_of_false (by decide) fun h ↦ Rat.not_le.mpr h.1 (Rat.le_of_lt hneg)
  · exact iff_of_false (by decide) fun h ↦ Rat.not_le.mpr haway h.2
  · exact iff_of_true rfl ⟨hpos, Rat.not_lt.mp haway⟩
  · exact iff_of_false (by decide) fun h ↦ hpos h.1

theorem glance_eq_gone {d : ℚ} : glance (vehicleDetectCm : ℚ) d = .away
    ∨ glance (vehicleDetectCm : ℚ) d = .lost ↔ Gone d := by
  rw [glance, Gone]
  split_ifs <;> simp [*]

/-! ## The board -/

/-- The history of `sys_state`, its timer, the log, and whether all writes of the switch thread were
of the kind that starts the timer. -/
structure NodeBoard extends StateBoard where
  stateTimer : ℤ
  log : NodeLog
  timed : Bool

namespace NodeBoard

def next (b : NodeBoard) : Option NodeThread → ControlAct → NodeBoard
  | none, _ => b
  | some t, a =>
    { toStateBoard := a.state?.elim b.toStateBoard (b.toStateBoard.next (some t))
      stateTimer := match a with
        | .write _ timer => timer.getD b.stateTimer
        | .writeNow _ now => now
        | _ => b.stateTimer
      log := b.log.next (some t) a
      timed := match t, a with
        | .switch, .write _ _ => false
        | _, _ => b.timed }

def timedNext (timed : Bool) : NodeLabel → Bool
  | .op .switch (.inr (.writeState _ _)) _ => false
  | _ => timed

def ofSnap (s : NodeSnap) : NodeBoard :=
  ⟨.ofSnap s, s.state.stateTimer, .of s.trace, s.trace.foldl timedNext true⟩

/-- Every write is one that its thread makes from what it has copied, in the way of its thread. -/
def Sound (b : NodeBoard) : Prop := b.toStateBoard.Sound ∧ b.timed = true

end NodeBoard

theorem stateAct_eq (l : NodeLabel) : stateAct? l = (controlAct? l).bind ControlAct.state? := by
  cases l with
  | op t o r =>
    cases o with
    | inl o => rfl
    | inr o => cases o <;> rfl
  | _ => rfl

theorem by?_of_controlAct {l : NodeLabel} {a : ControlAct} (ha : controlAct? l = some a) :
    ∃ t, l.by? = some t := by
  cases l with
  | op t o r => exact ⟨t, rfl⟩
  | _ => cases ha

theorem timedNext_eq {l : NodeLabel} {t : NodeThread} (ht : l.by? = some t) (timed : Bool) :
    NodeBoard.timedNext timed l = match t, controlAct? l with
      | .switch, some (.write _ _) => false
      | _, _ => timed := by
  cases l with
  | op u o r =>
    obtain rfl := Option.some.inj ht
    cases o with
    | inl o => cases u <;> rfl
    | inr o => cases u <;> cases o <;> rfl
  | start u j =>
    obtain rfl := Option.some.inj ht
    cases u <;> rfl
  | ext e => exact e.elim

theorem stateTimer_of_emits {s x : Node} {l : NodeLabel} (hx : nodeMachine.Emits s l x) :
    x.stateTimer = match controlAct? l with
      | some (.write _ timer) => timer.getD s.stateTimer
      | some (.writeNow _ now) => now
      | _ => s.stateTimer := by
  cases l with
  | start t j =>
    obtain ⟨p, hentry⟩ := hx
    cases t <;> obtain ⟨-, rfl⟩ := Prod.mk.inj (Option.some.inj hentry) <;> rfl
  | op t o r =>
    cases o with
    | inl o =>
      obtain ⟨c, -, rfl⟩ := Option.map_eq_some_iff.mp hx
      rfl
    | inr o =>
      obtain ⟨-, hx⟩ := Option.ite_none_right_eq_some.mp hx
      obtain rfl := Option.some.inj hx
      cases o <;> rfl
  | ext e => exact e.elim

def nodeBoard : Board nodeMachine ControlAct NodeBoard where
  act? := controlAct?
  view := NodeBoard.ofSnap
  next := NodeBoard.next
  view_of_none {s l x} hx ha := by
    have hstate : stateAct? l = none := by rw [stateAct_eq, ha]; rfl
    have hboard : StateBoard.ofSnap (s.log x l) = StateBoard.ofSnap s :=
      stateBoard.view_of_none hx hstate
    have htimed : NodeBoard.timedNext (s.trace.foldl NodeBoard.timedNext true) l
        = s.trace.foldl NodeBoard.timedNext true := by
      cases ht : l.by? with
      | some t =>
        rw [timedNext_eq ht, ha]
        cases t <;> rfl
      | none =>
        cases l with
        | ext e => exact e.elim
        | _ => cases ht
    rw [NodeBoard.ofSnap, hboard, Snap.log_state, stateTimer_of_emits hx, ha, Snap.log_trace]
    simp [NodeLog.of, ha, NodeBoard.ofSnap, htimed]
  view_of_some {s l x a} hx ha := by
    obtain ⟨t, ht⟩ := by?_of_controlAct ha
    have hact : stateAct? l = a.state? := by rw [stateAct_eq, ha]; rfl
    have hboard : StateBoard.ofSnap (s.log x l)
        = a.state?.elim (StateBoard.ofSnap s) ((StateBoard.ofSnap s).next (some t)) := by
      rw [← ht]
      cases hstate : a.state? with
      | none => exact stateBoard.view_of_none hx (hact.trans hstate)
      | some y => exact stateBoard.view_of_some hx (hact.trans hstate)
    rw [NodeBoard.ofSnap, hboard, Snap.log_state, stateTimer_of_emits hx, ha, Snap.log_trace, ht]
    simp only [NodeLog.of, List.foldl_append, List.foldl_cons, List.foldl_nil, ha,
      Option.elim_some, timedNext_eq ht, ht]
    cases t <;> cases a <;> rfl

abbrev nodeOutline : Outline nodeMachine := nodeBoard.outline NodeBoard.Sound

/-! ## Assertions -/

namespace NodeBoard

/-- As long as no update is lost, the events have led the automaton to where the node is. -/
def Follows (b : NodeBoard) : Prop :=
  b.fresh = true → nodeLaw.run b.log.events = some ⟨b.sysState, b.stateTimer⟩

/-- The same, with the main thread at this stage of its pass. -/
def At (g : PassStage) (b : NodeBoard) : Prop := b.log.stage = g ∧ b.Follows

/-- The pass of the main thread is logged, and what comes of it is still to be written. The timer is
`since`, if it has been looked at. -/
def Ahead (s : SystemState) (since : Option ℤ) (seen : Glance) (now : ℤ) (undone : Option ℤ)
    (b : NodeBoard) : Prop :=
  b.log.stage = .decided ∧ (b.fresh = true → b.sysState = s ∧ (∀ t ∈ since, b.stateTimer = t)
    ∧ ∃ es, b.log.events = .pass seen now undone :: es
      ∧ nodeLaw.run es = some ⟨s, b.stateTimer⟩)

/-- What there is when the main thread has copied `s` at time `now`, a distance `d` measured. -/
def Copied (d : ℚ) (s : SystemState) (now : ℤ) (b : NodeBoard) : Prop :=
  if s = .idle then
    if glance (vehicleDetectCm : ℚ) d = .near then b.At (.entering now) else b.At .decided
  else b.Ahead s none (glance (vehicleDetectCm : ℚ) d) now none

variable {b : NodeBoard} {u : Option NodeThread} {a : ControlAct}

/-- What others than the main thread do about the board: nothing that counts, or an accepted press,
which finds the gate idle if no update is lost. -/
theorem next_other (hu : u ≠ some .main) (h : b.Sound) (hb : (b.next u a).Sound) :
    (b.next u a).log.stage = b.log.stage
      ∧ ((b.next u a).fresh = b.fresh ∧ (b.next u a).log.events = b.log.events
          ∧ (b.next u a).sysState = b.sysState ∧ (b.next u a).stateTimer = b.stateTimer
        ∨ ((b.next u a).fresh = true → b.fresh = true ∧ b.sysState = .idle)
          ∧ ∃ now, (b.next u a).log.events = .press now :: b.log.events
            ∧ (b.next u a).sysState = .exitRequested ∧ (b.next u a).stateTimer = now) := by
  rcases u with _ | _ | _
  · exact ⟨rfl, .inl ⟨rfl, rfl, rfl, rfl⟩⟩
  · exact absurd rfl hu
  cases a with
  | measure | time | copy | copyNow => exact ⟨rfl, .inl ⟨rfl, rfl, rfl, rfl⟩⟩
  | write => exact absurd hb.2 (by simp [next])
  | writeNow s now =>
    have hsound : (b.toStateBoard.next (some .switch) (.write s)).Sound := hb.1
    obtain ⟨hs, hfresh⟩ := hsound.of_write
    obtain ⟨hcopied, rfl⟩ := mem_transitions_switch.mp hs
    refine ⟨rfl, .inr ⟨fun hnext ↦ ?_, now, rfl, rfl, rfl⟩⟩
    obtain ⟨hbefore, hvalue⟩ := hfresh hnext
    exact ⟨hbefore, h.1.value.symm.trans (hvalue.symm.trans hcopied)⟩

/-- What no other thread than `t` can falsify. -/
def Stable (t : NodeThread) (P : NodeBoard → Prop) : Prop :=
  ∀ b u a, b.Sound → (b.next u a).Sound → u ≠ some t → P b → P (b.next u a)

theorem Stable.and {t : NodeThread} {P Q : NodeBoard → Prop} (hP : Stable t P) (hQ : Stable t Q) :
    Stable t fun b ↦ P b ∧ Q b :=
  fun b u a h hb hu hPQ ↦ ⟨hP b u a h hb hu hPQ.1, hQ b u a h hb hu hPQ.2⟩

theorem pending_stable {t : NodeThread} {s : SystemState} :
    Stable t fun b ↦ b.toStateBoard.Pending t s := by
  intro b u a _ hb hu hp
  cases u with
  | none => exact hp
  | some u =>
    cases hstate : a.state? with
    | none => simpa [next, hstate] using hp
    | some y =>
      have hnext : (b.next (some u) a).toStateBoard = b.toStateBoard.next (some u) y := by
        simp [next, hstate]
      rw [hnext]
      exact hp.next (hnext ▸ hb.1) hu

theorem at_stable {g : PassStage} : Stable .main (At g) := by
  intro b u a h hb hu hat
  obtain ⟨hstage, hnext⟩ := next_other hu h hb
  refine ⟨hstage.trans hat.1, fun hfresh ↦ ?_⟩
  obtain ⟨hbefore, hevents, hstate, htimer⟩ | ⟨hbefore, now, hevents, hstate, htimer⟩ := hnext
  · rw [hevents, hstate, htimer]
    exact hat.2 (hbefore ▸ hfresh)
  · -- an idle gate accepts the press
    obtain ⟨hb, hidle⟩ := hbefore hfresh
    rw [hevents, hstate, htimer, Law.run, hat.2 hb]
    exact if_pos hidle

theorem ahead_stable {s : SystemState} (hs : s ≠ .idle) (since : Option ℤ) (seen : Glance) (now : ℤ)
    (undone : Option ℤ) : Stable .main (Ahead s since seen now undone) := by
  intro b u a h hb hu hahead
  obtain ⟨hstage, hnext⟩ := next_other hu h hb
  refine ⟨hstage.trans hahead.1, fun hfresh ↦ ?_⟩
  obtain ⟨hbefore, hevents, hstate, htimer⟩ | ⟨hbefore, -⟩ := hnext
  · rw [hevents, hstate, htimer]
    exact hahead.2 (hbefore ▸ hfresh)
  · obtain ⟨hb, hidle⟩ := hbefore hfresh
    exact absurd ((hahead.2 hb).1.symm.trans hidle) hs

theorem copied_stable (d : ℚ) (s : SystemState) (now : ℤ) : Stable .main (Copied d s now) := by
  intro b u a h hb hu hcopied
  rw [Copied] at hcopied ⊢
  split_ifs at hcopied ⊢ with hs
  · exact at_stable b u a h hb hu hcopied
  · exact at_stable b u a h hb hu hcopied
  · exact ahead_stable hs _ _ _ _ b u a h hb hu hcopied

/-! ## Rules -/

def hold (t : NodeThread) {P : NodeBoard → Prop} (h : Stable t P) : nodeOutline.Assertion t :=
  nodeBoard.assert _ t P h

theorem hold_about {t : NodeThread} {P : NodeBoard → Prop} {h : Stable t P} :
    Board.About (hold t h) :=
  Board.about_assert

/-- What an answer says about the board it is given at. -/
def Told (b : NodeBoard) : (o : MainOp) → o.Resp → Prop
  | .copyState, r => r = b.sysState
  | .copyStateNow, r => r.1 = b.sysState
  | .loadTimer, r => r = b.stateTimer
  | _, _ => True

theorem told_of_answers {o : MainOp} {r : o.Resp} {s : NodeSnap} (h : o.Answers r s.state) :
    (ofSnap s).Told o r := by
  cases o <;> first | exact h | trivial

section Rules

variable {t : NodeThread} {P : NodeBoard → Prop} {hP : Stable t P} {α : Type}

theorem act_rule {o : MainOp} {Q : o.Resp → NodeBoard → Prop} {hQ : ∀ r, Stable t (Q r)}
    (f : o.Resp → ControlAct) (hf : ∀ r, controlAct? (.op t (.inr o) r) = some (f r))
    (h : ∀ b r, b.Sound → P b → b.Told o r →
      (b.next (some t) (f r)).Sound ∧ Q r (b.next (some t) (f r))) :
    nodeOutline.Triple t (hold t hP) (nodePerform o) fun r ↦ hold t (hQ r) := by
  refine Board.act (W := nodeBoard) (o := .inr o) f hf fun s r x hsound hs hexec hview ↦ ?_
  obtain ⟨hnext, hr⟩ := h _ r hsound hs
    (told_of_answers (Option.ite_none_right_eq_some.mp hexec).1)
  exact ⟨hnext, show Q r (nodeBoard.view _) from hview ▸ hr⟩

/-- Operations that the board does not know of. -/
def Unwatched (o : NodeOp) : Prop := ∀ t r, controlAct? (.op t o r) = none

theorem unwatched_rule {p : NodeProg α} (hp : p.Uses Unwatched) :
    nodeOutline.Triple t (hold t hP) p fun _ ↦ hold t hP :=
  Board.quiet_program hold_about hp fun _ ho r ↦ ho t r

theorem unwatched_inl (p : CtlProg α) : (p.inl : NodeProg α).Uses Unwatched :=
  Prog.uses_inl (Prog.uses_of_forall (fun _ _ _ ↦ rfl) p)

theorem unwatched_perform {o : MainOp} (ho : Unwatched (.inr o)) :
    (nodePerform o).Uses Unwatched :=
  ⟨ho, fun _ ↦ trivial⟩

/-- The timer is looked at. -/
theorem loadTimer_rule {Q : ℤ → NodeBoard → Prop} {hQ : ∀ r, Stable t (Q r)}
    (h : ∀ b, P b → Q b.stateTimer b) :
    nodeOutline.Triple t (hold t hP) (nodePerform .loadTimer) fun r ↦ hold t (hQ r) := by
  refine Board.quiet (W := nodeBoard) (o := .inr .loadTimer) (fun _ ↦ rfl)
    fun s r x _ hs hexec hview ↦ ?_
  obtain rfl : r = (ofSnap s).stateTimer :=
    told_of_answers (o := .loadTimer) (Option.ite_none_right_eq_some.mp hexec).1
  exact show Q _ (nodeBoard.view _) from hview ▸ h _ hs

end Rules

/-! ### While a pass is logged -/

/-- Operations that leave the board alone once the pass is logged: the measurements of a close count
no more. -/
def Plain : NodeOp → Prop
  | .inr .copyState | .inr .copyStateNow | .inr (.writeState _ _) | .inr (.writeStateNow _)
  | .inr .time => False
  | _ => True

theorem next_measure {e : Option ℤ} (hb : b.log.stage = .decided) :
    b.next (some .main) (.measure e) = b := by
  obtain ⟨board, timer, ⟨stage, events⟩, timed⟩ := b
  obtain rfl : stage = .decided := hb
  rfl

theorem plain_rule {P : NodeBoard → Prop} {hP : Stable .main P} {α : Type} {p : NodeProg α}
    (hstage : ∀ b, P b → b.log.stage = .decided) (hp : p.Uses Plain) :
    nodeOutline.Triple .main (hold .main hP) p fun _ ↦ hold .main hP := by
  refine .frame hp fun o ho s r x hs hPs hexec _ ↦ ?_
  have hview : nodeBoard.view (s.log x (.op .main o r)) = nodeBoard.view s := by
    cases ha : controlAct? (.op .main o r) with
    | none => exact nodeBoard.view_of_none hexec ha
    | some a =>
      obtain ⟨e, rfl⟩ : ∃ e, a = .measure e := by
        cases o with
        | inl o => cases ha
        | inr o =>
          cases o <;> first | exact ho.elim | exact ⟨_, (Option.some.inj ha).symm⟩ | cases ha
      rw [nodeBoard.view_of_some (l := .op .main o r) hexec ha]
      exact next_measure (hstage _ hPs)
  exact ⟨show Sound _ from hview ▸ hs.2, show P _ from hview ▸ hPs⟩

theorem plain_perform {o : MainOp} (ho : Plain (.inr o)) : (nodePerform o).Uses Plain :=
  ⟨ho, fun _ ↦ trivial⟩

theorem closeVehicleCheck_plain : closeVehicleCheck.Uses Plain := by
  refine Prog.uses_bind (Prog.uses_bind (plain_perform trivial) fun phase ↦
    Prog.uses_bind (plain_perform trivial) fun _ ↦ trivial) fun phase ↦ ?_
  refine Prog.uses_bind (plain_perform trivial) fun _ ↦ Prog.uses_bind ?_ fun d ↦ ?_
  · exact Prog.uses_bind (plain_perform trivial) fun echo ↦ by cases echo <;> trivial
  · refine Prog.uses_ite (fun _ ↦ trivial) fun _ ↦ Prog.uses_bind (plain_perform trivial) fun b ↦ ?_
    exact Prog.uses_ite (fun _ ↦ Prog.uses_bind (plain_perform trivial) fun _ ↦ trivial) fun _ ↦
      trivial

theorem gateCloseInterruptible_plain :
    (gateCloseInterruptible (some closeVehicleCheck)).Uses Plain :=
  gateCloseInterruptible_uses (fun _ ↦ trivial) closeVehicleCheck_plain

/-! ### The main thread -/

section Main

variable {d : ℚ} {s y : SystemState} {since undone timer : Option ℤ} {seen : Glance} {now : ℤ}

/-- What a pass makes of the state, if the timer is as it has been read. -/
def Makes (s : SystemState) (since : Option ℤ) (seen : Glance) (now : ℤ) (undone : Option ℤ)
    (y : SystemState) (timer : Option ℤ) : Prop :=
  ∀ t, (∀ t' ∈ since, t = t') → nodeLaw.pass seen now undone ⟨s, t⟩ = ⟨y, timer.getD t⟩

/-- A pass that makes nothing of the state is over. -/
theorem Ahead.settled (h : b.Ahead s since seen now undone)
    (hmakes : Makes s since seen now undone s none) : b.At .decided := by
  refine ⟨h.1, fun hfresh ↦ ?_⟩
  obtain ⟨rfl, hsince, es, hevents, hrun⟩ := h.2 hfresh
  rw [hevents, Law.run, hrun]
  exact congrArg some (hmakes _ hsince)

/-- The main thread writes what the pass makes of the state. -/
theorem Ahead.written (h : b.Ahead s since seen now undone)
    (hmakes : Makes s since seen now undone y timer) :
    (b.next (some .main) (.write y timer)).At .decided := by
  have hlog : (b.next (some .main) (.write y timer)).log = b.log := by
    obtain ⟨board, timer, ⟨stage, events⟩, timed⟩ := b
    obtain rfl : stage = .decided := h.1
    rfl
  refine ⟨by rw [hlog]; exact h.1, fun hfresh ↦ ?_⟩
  have hbefore : b.fresh = true := (Bool.and_eq_true_iff.mp hfresh).1
  obtain ⟨rfl, hsince, es, hevents, hrun⟩ := h.2 hbefore
  rw [hlog, hevents, Law.run, hrun]
  exact congrArg some (hmakes _ hsince)

theorem Sound.write_main (h : b.Sound) (hp : b.toStateBoard.Pending .main s)
    (hy : y ∈ loopTransitions s) : (b.next (some .main) (.write y timer)).Sound :=
  ⟨h.1.write hp hy, h.2⟩

/-! #### Assertions of the main thread -/

/-- Between the decisions of the main thread. -/
def stands (g : PassStage) : nodeOutline.Assertion .main := hold .main (at_stable (g := g))

/-- The main thread has copied `s`, and the pass is logged. -/
def ahead (hs : s ≠ .idle) (since : Option ℤ) (seen : Glance) (now : ℤ) (undone : Option ℤ) :
    nodeOutline.Assertion .main :=
  hold .main ((ahead_stable hs since seen now undone).and (pending_stable (t := .main) (s := s)))

/-- A write that ends a pass. -/
theorem write_rule (hs : s ≠ .idle) (hy : y ∈ loopTransitions s)
    (hmakes : Makes s since seen now undone y timer) :
    nodeOutline.Triple .main (ahead hs since seen now undone) (nodePerform (.writeState y timer))
      fun _ ↦ stands .decided :=
  act_rule (o := .writeState y timer) (fun _ ↦ .write y timer) (fun _ ↦ rfl)
    fun _ _ hb h _ ↦ ⟨hb.write_main h.2 hy, h.1.written hmakes⟩

theorem stay_rule (hs : s ≠ .idle) (hmakes : Makes s since seen now undone s none) :
    nodeOutline.Triple .main (ahead hs since seen now undone) (.ret ())
      fun _ ↦ stands .decided :=
  .ret fun _ _ h ↦ Ahead.settled h.1 hmakes

/-- After the write there is nothing left to do that counts. -/
theorem rest_rule {p : NodeProg Unit} (hp : p.Uses Unwatched) :
    nodeOutline.Triple .main (stands .decided) p fun _ ↦ stands .decided :=
  unwatched_rule hp

/-- The clock says when the close was undone. -/
theorem time_rule (hs : s ≠ .idle) :
    nodeOutline.Triple .main (ahead hs since seen now undone) (nodePerform .time)
      fun t ↦ ahead hs since seen now (some t) := by
  refine act_rule (o := .time) .time (fun _ ↦ rfl) fun b t hb h _ ↦ ⟨hb, ?_, h.2⟩
  obtain ⟨⟨hstage, hfollows⟩, -⟩ := h
  obtain ⟨board, timer, ⟨stage, events⟩, timed⟩ := b
  obtain rfl : stage = .decided := hstage
  refine ⟨rfl, fun hfresh ↦ ?_⟩
  obtain ⟨hsys, hsince, es, hevents, hrun⟩ := hfollows hfresh
  obtain rfl : events = _ := hevents
  exact ⟨hsys, hsince, es, rfl, hrun⟩

theorem loadTimer_ahead (hs : s ≠ .idle) :
    nodeOutline.Triple .main (ahead hs none seen now none) (nodePerform .loadTimer)
      fun t ↦ ahead hs (some t) seen now none := by
  refine loadTimer_rule fun b h ↦ ⟨⟨h.1.1, fun hfresh ↦ ?_⟩, h.2⟩
  obtain ⟨hsys, -, hes⟩ := h.1.2 hfresh
  exact ⟨hsys, fun t ht ↦ Option.some.inj ht, hes⟩

/-! #### The branches -/

theorem closeOr_rule (hs : s ≠ .idle) {reopened : SystemState}
    (hreopened : reopened ∈ loopTransitions s) (hidle : .idle ∈ loopTransitions s)
    (hundone : ∀ t, Makes s since seen now (some t) reopened (some t))
    (hclosed : Makes s since seen now none .idle none) :
    nodeOutline.Triple .main (ahead hs since seen now none) (closeOr reopened)
      fun _ ↦ stands .decided := by
  refine .bind (unwatched_rule (unwatched_perform fun _ _ ↦ rfl)) fun _ ↦ ?_
  refine .bind (plain_rule (fun _ h ↦ h.1.1) gateCloseInterruptible_plain) fun r ↦
    .ite (fun _ ↦ .bind (time_rule hs) fun t ↦ ?_) fun _ ↦ ?_
  · exact .bind (write_rule hs hreopened (hundone t)) fun _ ↦
      rest_rule (unwatched_perform fun _ _ ↦ rfl)
  · exact .bind (write_rule hs hidle hclosed) fun _ ↦ rest_rule (unwatched_perform fun _ _ ↦ rfl)

/-- A close when the time is up. -/
theorem closeAfter_rule (hs : s ≠ .idle) {reopened : SystemState} {delaySec : ℤ}
    (hreopened : reopened ∈ loopTransitions s) (hidle : .idle ∈ loopTransitions s)
    (hpass : ∀ undone t, nodeLaw.pass seen now undone ⟨s, t⟩
      = if delaySec ≤ now - t then Law.close reopened undone ⟨s, t⟩ else ⟨s, t⟩) :
    nodeOutline.Triple .main (ahead hs none seen now none) (closeAfter delaySec reopened now)
      fun _ ↦ stands .decided := by
  refine .bind (loadTimer_ahead hs) fun stateTimer ↦ .ite (fun hup ↦ ?_) fun hup ↦ stay_rule hs ?_
  · refine closeOr_rule hs hreopened hidle (fun t t' ht' ↦ ?_) fun t' ht' ↦ ?_
    · obtain rfl := ht' stateTimer rfl
      exact (hpass _ _).trans (if_pos hup)
    · obtain rfl := ht' stateTimer rfl
      exact (hpass _ _).trans (if_pos hup)
  · intro t' ht'
    obtain rfl := ht' stateTimer rfl
    exact (hpass _ _).trans (if_neg hup)

theorem whenDetected_rule (hs : s ≠ .idle) {waiting : SystemState}
    (hwaiting : waiting ∈ loopTransitions s)
    (hpass : ∀ t, nodeLaw.pass (glance (vehicleDetectCm : ℚ) d) now none ⟨s, t⟩
      = if Gone d then ⟨waiting, now⟩ else ⟨s, t⟩) :
    nodeOutline.Triple .main (ahead hs none (glance (vehicleDetectCm : ℚ) d) now none)
      (whenDetected waiting d now) fun _ ↦ stands .decided := by
  refine .ite (fun hgone ↦ write_rule hs hwaiting fun t _ ↦ ?_) fun hgone ↦
    stay_rule hs fun t _ ↦ ?_
  · exact (hpass t).trans (if_pos hgone)
  · exact (hpass t).trans (if_neg hgone)

/-- The three states that look at the sensor before they look at the clock. -/
theorem closing_rule (hs : s ≠ .idle) (timer : Option ℤ) {delaySec : ℤ}
    {back reopened : SystemState} (hback : back ∈ loopTransitions s)
    (hreopened : reopened ∈ loopTransitions s) (hidle : .idle ∈ loopTransitions s)
    (hpass : ∀ undone t, nodeLaw.pass (glance (vehicleDetectCm : ℚ) d) now undone ⟨s, t⟩
      = if InRange d then ⟨back, timer.getD t⟩
        else if delaySec ≤ now - t then Law.close reopened undone ⟨s, t⟩ else ⟨s, t⟩) :
    nodeOutline.Triple .main (ahead hs none (glance (vehicleDetectCm : ℚ) d) now none)
      (if InRange d then nodePerform (.writeState back timer) else closeAfter delaySec reopened now)
      fun _ ↦ stands .decided := by
  refine .ite (fun hd ↦ write_rule hs hback fun t _ ↦ ?_) fun hd ↦
    closeAfter_rule hs hreopened hidle fun undone t ↦ ?_
  · exact (hpass none t).trans (if_pos hd)
  · exact (hpass undone t).trans (if_neg hd)

theorem waiting_pass {detected : SystemState} (undone : Option ℤ) (t : ℤ) :
    nodeLaw.waiting detected (glance (vehicleDetectCm : ℚ) d) now undone ⟨s, t⟩
      = if InRange d then ⟨detected, now⟩
        else if entryCloseDelaySec ≤ now - t then Law.close detected undone ⟨s, t⟩ else ⟨s, t⟩ := by
  by_cases hd : InRange d
  · have hwait : ¬(nodeLaw.Expired entryCloseDelaySec now ⟨s, t⟩
        ∧ (nodeLaw.clockFirst = true ∨ glance (vehicleDetectCm : ℚ) d ≠ .near)) := by
      simp [nodeLaw, glance_eq_near.mpr hd]
    rw [Law.waiting, if_neg hwait, if_pos (glance_eq_near.mpr hd), if_pos hd]
  · have hnear : glance (vehicleDetectCm : ℚ) d ≠ .near := fun h ↦ hd (glance_eq_near.mp h)
    rw [Law.waiting, if_neg hnear, if_neg hd]
    exact if_congr (and_iff_left (.inr hnear)) rfl rfl

/-- Whatever has been copied but `STATE_IDLE`. -/
theorem dispatch_ahead (hs : s ≠ .idle) :
    nodeOutline.Triple .main (ahead hs none (glance (vehicleDetectCm : ℚ) d) now none)
      (dispatch s d now) fun _ ↦ stands .decided := by
  cases s with
  | idle => exact absurd rfl hs
  | entryDetected | exitVehicleDetected =>
    refine whenDetected_rule hs (by decide) fun t ↦ if_congr ?_ rfl rfl
    simpa [nodeLaw] using glance_eq_gone
  | entryWaiting | exitVehicleWaiting =>
    exact closing_rule hs (some now) (by decide) (by decide) (by decide) waiting_pass
  | exitRequested =>
    refine closing_rule hs none (by decide) (by decide) (by decide) fun undone t ↦ ?_
    exact if_congr glance_eq_near rfl rfl

/-! #### One pass -/

theorem measure_rule : nodeOutline.Triple .main (stands .fresh) ultrasonicMeasureCm
    fun d ↦ stands (.measured d) := by
  have hmeasure : nodeOutline.Triple .main (stands .fresh) (nodePerform .measure)
      fun e ↦ stands (.measured (cmOf e)) := by
    refine act_rule (o := .measure) .measure (fun _ ↦ rfl) fun b e hb h _ ↦ ⟨hb, ?_⟩
    obtain ⟨board, timer, ⟨stage, events⟩, timed⟩ := b
    obtain rfl : stage = .fresh := h.1
    exact ⟨rfl, h.2⟩
  refine .bind hmeasure fun e ↦ ?_
  cases e with
  | none => exact .ret fun _ _ h ↦ h
  | some echoUs => exact .ret fun _ _ h ↦ h

/-- What the main thread has copied, at what time, and what it knows then. -/
def hasCopied (d : ℚ) (s : SystemState) (now : ℤ) : nodeOutline.Assertion .main :=
  hold .main ((copied_stable d s now).and (pending_stable (t := .main) (s := s)))

theorem copyStateNow_rule : nodeOutline.Triple .main (stands (.measured d))
    (nodePerform .copyStateNow) fun r ↦ hasCopied d r.1 r.2 := by
  refine act_rule (o := .copyStateNow) (fun r ↦ .copyNow r.1 r.2) (fun _ ↦ rfl)
    fun b r hb h htold ↦ ?_
  obtain ⟨s, now⟩ := r
  obtain rfl : s = b.sysState := htold
  obtain ⟨hsound, hpending⟩ := hb.1.copy (t := .main)
  refine ⟨⟨hsound, hb.2⟩, ?_, hpending⟩
  obtain ⟨board, timer, ⟨stage, events⟩, timed⟩ := b
  obtain rfl : stage = .measured d := h.1
  have hfollows : board.fresh = true → nodeLaw.run events = some ⟨board.sysState, timer⟩ := h.2
  have hnext {g : NodeLog}
      (hg : NodeLog.main ⟨.measured d, events⟩ (.copyNow board.sysState now) = g) :
      NodeBoard.next ⟨board, timer, ⟨.measured d, events⟩, timed⟩ (some .main)
          (.copyNow board.sysState now)
        = ⟨board.next (some .main) (.copy board.sysState), timer, g, timed⟩ :=
    congrArg (fun g ↦ NodeBoard.mk _ timer g timed) hg
  rw [Copied]
  split_ifs with hidle hnear
  · -- the vehicle will be let in, but a press may still come first
    rw [hnext (if_pos ⟨hidle, hnear⟩)]
    exact ⟨rfl, hfollows⟩
  · rw [hnext (if_neg fun h ↦ hnear h.2)]
    refine ⟨rfl, fun hfresh ↦ ?_⟩
    have hidle : board.sysState = .idle := hidle
    change nodeLaw.run (_ :: events) = some ⟨board.sysState, timer⟩
    rw [Law.run, hfollows hfresh, hidle]
    exact congrArg some (if_neg hnear)
  · rw [hnext (if_neg fun h ↦ hidle h.1)]
    exact ⟨rfl, fun hfresh ↦ ⟨rfl, fun _ h ↦ absurd h (Option.not_mem_none _), events, rfl,
      hfollows hfresh⟩⟩

/-- The vehicle is let in. -/
theorem enter_rule (hd : InRange d) : nodeOutline.Triple .main (hasCopied d .idle now)
    (nodePerform (.writeState .entryDetected (some now))) fun _ ↦ stands .decided := by
  refine act_rule (o := .writeState .entryDetected (some now))
    (fun _ ↦ .write .entryDetected (some now)) (fun _ ↦ rfl) fun b _ hb h _ ↦ ?_
  have hsound : (b.next (some .main) (.write .entryDetected (some now))).Sound :=
    hb.write_main h.2 (by decide)
  refine ⟨hsound, ?_⟩
  have hat : b.At (.entering now) := by
    have hcopied := h.1
    rwa [Copied, if_pos rfl, if_pos (glance_eq_near.mpr hd)] at hcopied
  obtain ⟨hs, hfound⟩ := StateBoard.Sound.of_write (x := .entryDetected) (u := .main) hsound.1
  obtain ⟨board, timer, ⟨stage, events⟩, timed⟩ := b
  obtain rfl : stage = .entering now := hat.1
  refine ⟨rfl, fun hfresh ↦ ?_⟩
  -- the write finds what has been copied
  obtain ⟨hbefore, hvalue⟩ := hfound hfresh
  have hidle : board.sysState = .idle := hb.1.value.symm.trans (hvalue.symm.trans h.2.1)
  change nodeLaw.run (.pass .near now none :: events) = some ⟨.entryDetected, now⟩
  rw [Law.run, show nodeLaw.run events = some ⟨board.sysState, timer⟩ from hat.2 hbefore, hidle]
  rfl

theorem whenIdle_rule : nodeOutline.Triple .main (hasCopied d .idle now) (whenIdle d now)
    fun _ ↦ stands .decided := by
  refine .ite (fun hd ↦ .bind (enter_rule hd) fun _ ↦ rest_rule ?_) fun hd ↦ .ret fun b _ h ↦ ?_
  · refine Prog.uses_bind (unwatched_inl _) fun _ ↦ ?_
    exact Prog.uses_bind (unwatched_perform fun _ _ ↦ rfl) fun _ ↦
      unwatched_perform fun _ _ ↦ rfl
  · have hcopied : (nodeBoard.view b).Copied d .idle now := h.1
    rwa [Copied, if_pos rfl, if_neg fun h ↦ hd (glance_eq_near.mp h)] at hcopied

theorem dispatch_rule (s : SystemState) : nodeOutline.Triple .main (hasCopied d s now)
    (dispatch s d now) fun _ ↦ stands .decided := by
  by_cases hs : s = .idle
  · subst hs
    exact whenIdle_rule
  · refine .pre (P := ahead hs none (glance (vehicleDetectCm : ℚ) d) now none)
      (fun b _ h ↦ ⟨?_, h.2⟩) (dispatch_ahead hs)
    have hcopied : (nodeBoard.view b).Copied d s now := h.1
    rwa [Copied, if_neg hs] at hcopied

theorem signal_rule : nodeOutline.Triple .main (stands .decided) signal
    fun _ ↦ stands .fresh := by
  have hcopy : nodeOutline.Triple .main (stands .decided) (nodePerform .copyState)
      fun _ ↦ stands .fresh := by
    refine act_rule (o := .copyState) .copy (fun _ ↦ rfl) fun b s hb h htold ↦ ?_
    obtain rfl : s = b.sysState := htold
    refine ⟨⟨(hb.1.copy (t := .main)).1, hb.2⟩, ?_⟩
    obtain ⟨board, timer, ⟨stage, events⟩, timed⟩ := b
    obtain rfl : stage = .decided := h.1
    exact ⟨rfl, h.2⟩
  have hquiet {o : MainOp} (ho : Unwatched (.inr o)) := unwatched_perform ho
  refine .bind hcopy fun curS ↦ unwatched_rule (Prog.uses_ite (fun _ ↦ ?_) fun _ ↦ ?_)
  · refine Prog.uses_bind (Prog.uses_bind (hquiet fun _ _ ↦ rfl) fun phase ↦
      Prog.uses_bind (hquiet fun _ _ ↦ rfl) fun _ ↦ trivial) fun phase ↦ ?_
    exact Prog.uses_bind (hquiet fun _ _ ↦ rfl) fun _ ↦ hquiet fun _ _ ↦ rfl
  · exact Prog.uses_bind (hquiet fun _ _ ↦ rfl) fun _ ↦
      Prog.uses_bind (hquiet fun _ _ ↦ rfl) fun _ ↦ hquiet fun _ _ ↦ rfl

theorem mainPass_rule :
    nodeOutline.Triple .main (stands .fresh) mainPass fun _ ↦ stands .fresh := by
  refine .bind measure_rule fun d ↦ .bind copyStateNow_rule fun r ↦ ?_
  exact .bind (dispatch_rule r.1) fun _ ↦ signal_rule

end Main

/-! ### The switch thread -/

theorem onSwitchPress_rule : nodeOutline.Triple .switch .top onSwitchPress fun _ ↦ .top := by
  have hrest {p : NodeProg Unit} {P : nodeOutline.Assertion .switch} (hp : p.Uses Unwatched) :
      nodeOutline.Triple .switch P p fun _ ↦ .top :=
    .pre (fun _ _ _ ↦ trivial) (Board.quiet_program Board.about_top hp fun _ ho r ↦ ho .switch r)
  have hdone : Stable .switch fun _ ↦ True := fun _ _ _ _ _ _ _ ↦ trivial
  have hcopy : nodeOutline.Triple .switch .top (nodePerform .copyState)
      fun s ↦ hold .switch (pending_stable (t := .switch) (s := s)) := by
    refine .pre (P := hold .switch hdone) (fun _ _ _ ↦ trivial)
      (act_rule (o := .copyState) .copy (fun _ ↦ rfl) fun b s hb _ htold ↦ ?_)
    obtain rfl : s = b.sysState := htold
    obtain ⟨hsound, hpending⟩ := hb.1.copy (t := .switch)
    exact ⟨⟨hsound, hb.2⟩, hpending⟩
  have hset : (nodePerform (.storeCloseFlag true)).Uses Unwatched :=
    unwatched_perform fun _ _ ↦ rfl
  refine .bind hcopy fun s ↦ .ite (fun _ ↦ hrest hset) fun _ ↦ .ite (fun _ ↦ hrest hset) fun _ ↦
    .ite (fun hs ↦ ?_) fun _ ↦ hrest trivial
  have hwrite : nodeOutline.Triple .switch (hold .switch (pending_stable (t := .switch) (s := s)))
      (nodePerform (.writeStateNow .exitRequested)) fun _ ↦ hold .switch hdone :=
    act_rule (o := .writeStateNow .exitRequested) (.writeNow .exitRequested) (fun _ ↦ rfl)
      fun b now hb hp _ ↦
        ⟨⟨hb.1.write hp (mem_transitions_switch.mpr ⟨hs, rfl⟩), hb.2⟩, trivial⟩
  refine .bind hwrite fun _ ↦ hrest ?_
  refine Prog.uses_bind (unwatched_inl _) fun _ ↦ ?_
  exact Prog.uses_bind (unwatched_perform fun _ _ ↦ rfl) fun _ ↦ unwatched_perform fun _ _ ↦ rfl

/-! ## Every run -/

def idle : (t : NodeThread) → nodeOutline.Assertion t
  | .main => stands .fresh
  | .switch => .top

theorem nodeOutline_valid : nodeOutline.Valid idle := by
  refine Board.valid (fun {_ e} ↦ e.elim) (fun _ _ ↦ rfl) (fun t ↦ ?_) ?_
  · cases t with
    | main => exact hold_about (h := at_stable)
    | switch => exact Board.about_top
  · intro t j s p x hentry
    cases t with
    | main =>
      obtain ⟨rfl, -⟩ := Prod.mk.inj (Option.some.inj hentry)
      exact mainPass_rule
    | switch =>
      obtain ⟨rfl, -⟩ := Prod.mk.inj (Option.some.inj hentry)
      exact onSwitchPress_rule

/-- Between two passes, the board is as the main thread leaves it. -/
theorem at_of_reachable {c : NodeConfig} (hc : NodeReachable c) (hmain : c.thread .main = none) :
    (ofSnap c.toSnap).At .fresh := by
  have hinit : (nodeBoard.view ⟨Node.init, []⟩).Sound := ⟨⟨rfl, rfl, rfl⟩, rfl⟩
  have hidle : ∀ t, idle t ⟨Node.init, []⟩ := by
    intro t
    cases t with
    | main => exact ⟨rfl, fun _ ↦ rfl⟩
    | switch => trivial
  obtain ⟨-, hthreads⟩ := Board.sound nodeOutline_valid hinit hidle hc
  exact hthreads .main hmain

end NodeBoard

/-- **The user-space node follows the automaton.** In every run that loses no update, between two
passes of the loop, `sys_state` and `state_timer` are what the presses and the passes so far make of
the automaton, whatever the switch thread is doing. -/
theorem node_follows_law {c : NodeConfig} (hc : NodeReachable c)
    (hundisturbed : Always Undisturbed c.trace) (hmain : c.thread .main = none) :
    nodeLaw.run (nodeEvents c.trace) = some ⟨c.state.sysState, c.state.stateTimer⟩ :=
  (NodeBoard.at_of_reachable hc hmain).2 ((StateHistory.records c.trace).2.mpr hundisturbed)

/-! ### Jobs that nothing interrupts -/

theorem controlAct_of_silent {l : NodeLabel} (h : Silent l) : controlAct? l = none := by
  rcases l with _ | ⟨_, o | o, _⟩ | _
  · rfl
  · rfl
  · cases o <;> first | rfl | exact h.elim
  · rfl

namespace NodeLog

variable {tr tr' tr'' : List NodeLabel}

theorem of_append_silent (h : ∀ l ∈ tr', Silent l) : of (tr ++ tr') = of tr := by
  induction tr' using List.reverseRecOn with
  | nil => rw [List.append_nil]
  | append_singleton tr' l ih =>
    obtain ⟨hbefore, hl⟩ := List.forall_mem_append.mp h
    rw [← List.append_assoc, of, List.foldl_append, List.foldl_cons,
      controlAct_of_silent (hl l (by simp))]
    exact ih hbefore

/-- A pass that writes is one pass of the automaton, whether it lets a vehicle in or not. -/
theorem of_passed (hstage : (of tr).stage = .fresh) (s : SystemState) (echo : Option ℤ) (now : ℤ)
    (x : SystemState) (timer : Option ℤ) (htr' : ∀ l ∈ tr', Silent l)
    (htr'' : ∀ l ∈ tr'', Silent l) : of (tr ++ passed s echo now x timer tr' tr'')
      = ⟨.fresh, .pass (glance (vehicleDetectCm : ℚ) (cmOf echo)) now none :: (of tr).events⟩ := by
  have hwrite : of (tr ++ [.start .main (), .op .main (.inr .measure) echo,
      .op .main (.inr .copyStateNow) (s, now), .op .main (.inr (.writeState x timer)) ()])
      = ⟨.decided,
        .pass (glance (vehicleDetectCm : ℚ) (cmOf echo)) now none :: (of tr).events⟩ := by
    rw [of, List.foldl_append]
    change (((of tr).main (.measure echo)).main (.copyNow s now)).main (.write x timer) = _
    by_cases hentering : s = .idle ∧ glance (vehicleDetectCm : ℚ) (cmOf echo) = .near
    · simp [main, hstage, hentering]
    · simp [main, hstage, hentering]
  have hsplit : tr ++ passed s echo now x timer tr' tr''
      = tr ++ [.start .main (), .op .main (.inr .measure) echo,
          .op .main (.inr .copyStateNow) (s, now), .op .main (.inr (.writeState x timer)) ()]
        ++ tr' ++ [.op .main (.inr .copyState) x] ++ tr'' := by simp [passed]
  rw [hsplit, of_append_silent htr'', of, List.foldl_append]
  change (of (tr ++ _ ++ tr')).main (.copy x) = _
  rw [of_append_silent htr', hwrite]
  rfl

end NodeLog

/-- What has happened in the run of `exists_exit`. -/
theorem exit_run : ∃ c : NodeConfig, NodeReachable c ∧ Always Undisturbed c.trace
    ∧ c.thread .main = none ∧ c.state.sysState = .exitVehicleDetected
    ∧ c.state.controller.currentState = .open
    ∧ nodeEvents c.trace = [.pass .near 5 none, .press 3, .pass .lost 0 none] := by
  obtain ⟨c, tr₁, tr₂, tr₃, tr₄, hc, hundisturbed, hmain, hstate, hopen, htr, h₁, h₂, h₃, h₄⟩ :=
    exists_exit
  have hpressed : NodeLog.of (stillPassed 0 ++ tr₁ ++ (pressed 3 ++ tr₂))
      = ⟨.fresh, [.press 3, .pass .lost 0 none]⟩ := by
    have hstill : NodeLog.of (stillPassed 0 ++ tr₁) = ⟨.fresh, [.pass .lost 0 none]⟩ :=
      NodeLog.of_append_silent h₁
    rw [← List.append_assoc, NodeLog.of_append_silent h₂, NodeLog.of, List.foldl_append]
    change ((NodeLog.of (stillPassed 0 ++ tr₁)).next (some .switch) (.copy .idle)).next
      (some .switch) (.writeNow .exitRequested 3) = _
    rw [hstill]
    rfl
  refine ⟨c, hc, hundisturbed, hmain, hstate, hopen, ?_⟩
  rw [nodeEvents, htr, NodeLog.of_passed (by rw [hpressed]) _ _ _ _ _ h₃ h₄, hpressed,
    glance_eq_near.mpr inRange_cm]

/-- What has happened in the run of `exists_visit`. -/
theorem entry_run : ∃ c : NodeConfig, NodeReachable c ∧ Always Undisturbed c.trace
    ∧ c.thread .main = none ∧ c.state.sysState = .entryWaiting
    ∧ c.state.controller.currentState = .open
    ∧ .op .switch (.inr (.storeCloseFlag true)) () ∈ c.trace
    ∧ nodeEvents c.trace = [.pass .lost 7 none, .pass .near 0 none] := by
  obtain ⟨c, tr₁, tr₂, tr₃, tr₄, hc, hundisturbed, hmain, hstate, hopen, htr, h₁, h₂, h₃, h₄⟩ :=
    exists_visit
  have hpressed : NodeLog.of (passed .idle (some 290) 0 .entryDetected (some 0) tr₁ tr₂
      ++ pressedEntry) = ⟨.fresh, [.pass .near 0 none]⟩ := by
    have hfresh : (NodeLog.of []).stage = .fresh := rfl
    have hpass := NodeLog.of_passed hfresh .idle (some 290) 0 .entryDetected (some 0) h₁ h₂
    rw [glance_eq_near.mpr inRange_cm, List.nil_append] at hpass
    rw [NodeLog.of, List.foldl_append]
    exact hpass
  have hlost : glance (vehicleDetectCm : ℚ) (cmOf none) = .lost := by decide +kernel
  refine ⟨c, hc, hundisturbed, hmain, hstate, hopen, ?_, ?_⟩
  · simp [htr, pressedEntry]
  · rw [nodeEvents, htr, NodeLog.of_passed (by rw [hpressed]) _ _ _ _ _ h₃ h₄, hpressed, hlost]

/-- A vehicle is let in, and the button is pressed meanwhile; and, in another run, a press lets one
out. -/
theorem node_follows_law_visit :
    (∃ c : NodeConfig, NodeReachable c ∧ c.state.controller.currentState = .open
      ∧ nodeEvents c.trace = [.pass .lost 7 none, .pass .near 0 none]
      ∧ .op .switch (.inr (.storeCloseFlag true)) () ∈ c.trace
      ∧ nodeLaw.run (nodeEvents c.trace) = some ⟨c.state.sysState, c.state.stateTimer⟩)
    ∧ ∃ c : NodeConfig, NodeReachable c ∧ c.state.controller.currentState = .open
      ∧ nodeEvents c.trace = [.pass .near 5 none, .press 3, .pass .lost 0 none]
      ∧ nodeLaw.run (nodeEvents c.trace) = some ⟨c.state.sysState, c.state.stateTimer⟩ := by
  constructor
  · obtain ⟨c, hc, hundisturbed, hmain, -, hopen, hpressed, hevents⟩ := entry_run
    exact ⟨c, hc, hopen, hevents, hpressed, node_follows_law hc hundisturbed hmain⟩
  · obtain ⟨c, hc, hundisturbed, hmain, -, hopen, hevents⟩ := exit_run
    exact ⟨c, hc, hopen, hevents, node_follows_law hc hundisturbed hmain⟩

/-! ## Two nodes -/

/-- The same state, and the same timer if one runs. -/
def Same (k k' : Control) : Prop :=
  k.state = k'.state
    ∧ (k.state ∈ [.entryWaiting, .exitRequested, .exitVehicleWaiting] → k.since = k'.since)

/-- Where the two laws part: the kernel module closes onto a vehicle that has come back in time to
be seen, and does not take a lost echo for a vehicle that has left. -/
def Parts (seen : Glance) (now : ℤ) (undone : Option ℤ) (k : Control) : Prop :=
  (k.state ∈ [.entryWaiting, .exitVehicleWaiting] ∧ seen = .near
    ∧ entryCloseDelaySec ≤ now - k.since ∧ undone = none)
  ∨ (k.state = .exitVehicleDetected ∧ seen = .lost)

section Laws

variable {k k' : Control} {seen : Glance} {now : ℤ} {undone : Option ℤ} {es : List ControlEvent}

theorem Same.refl (k : Control) : Same k k := ⟨rfl, fun _ ↦ rfl⟩

theorem Same.trans {k₁ k₂ k₃ : Control} (h : Same k₁ k₂) (h' : Same k₂ k₃) : Same k₁ k₃ :=
  ⟨h.1.trans h'.1, fun ht ↦ (h.2 ht).trans (h'.2 (h.1 ▸ ht))⟩

theorem same_of_untimed {s : SystemState} {t t' : ℤ}
    (hs : s ∉ [.entryWaiting, .exitRequested, .exitVehicleWaiting]) : Same ⟨s, t⟩ ⟨s, t'⟩ :=
  ⟨rfl, fun h ↦ absurd h hs⟩

/-- A timer that does not run makes no difference. -/
theorem Same.pass (L : Law) (h : Same k k') :
    Same (L.pass seen now undone k) (L.pass seen now undone k') := by
  obtain ⟨s, t⟩ := k
  obtain ⟨s', t'⟩ := k'
  obtain rfl : s = s' := h.1
  cases s with
  | entryWaiting | exitRequested | exitVehicleWaiting =>
    obtain rfl : t = t' := h.2 (by simp)
    exact .refl _
  | idle | entryDetected | exitVehicleDetected =>
    simp only [Law.pass]
    split_ifs
    · exact .refl _
    · exact same_of_untimed (by decide)

/-- In a waiting state the order of the two looks matters only if both would tell. -/
theorem waiting_same_iff {s detected : SystemState} {t : ℤ}
    (hdetected : detected ∉ [.entryWaiting, .exitRequested, .exitVehicleWaiting])
    (hidle : detected ≠ .idle) (hnarrow : toInt32 (now - t) = now - t) :
    Same (kernelLaw.waiting detected seen now undone ⟨s, t⟩)
        (nodeLaw.waiting detected seen now undone ⟨s, t⟩)
      ↔ ¬(seen = .near ∧ entryCloseDelaySec ≤ now - t ∧ undone = none) := by
  have hkernel : kernelLaw.waiting detected seen now undone ⟨s, t⟩
      = if entryCloseDelaySec ≤ now - t then Law.close detected undone ⟨s, t⟩
        else if seen = .near then ⟨detected, now⟩ else ⟨s, t⟩ := by
    simp [Law.waiting, Law.Expired, kernelLaw, hnarrow]
  have hnode : nodeLaw.waiting detected seen now undone ⟨s, t⟩
      = if entryCloseDelaySec ≤ now - t ∧ seen ≠ .near then Law.close detected undone ⟨s, t⟩
        else if seen = .near then ⟨detected, now⟩ else ⟨s, t⟩ := by
    simp [Law.waiting, Law.Expired, nodeLaw]
  rw [hkernel, hnode]
  by_cases hup : entryCloseDelaySec ≤ now - t
  · by_cases hnear : seen = .near
    · rw [if_pos hup, if_neg fun h ↦ h.2 hnear, if_pos hnear]
      cases undone with
      | some t' => exact iff_of_true (same_of_untimed hdetected) (by simp)
      | none => exact iff_of_false (fun h ↦ hidle h.1.symm) fun h ↦ h ⟨hnear, hup, rfl⟩
    · rw [if_pos hup, if_pos ⟨hup, hnear⟩]
      exact iff_of_true (.refl _) fun h ↦ hnear h.1
  · rw [if_neg hup, if_neg (not_and_of_not_left _ hup)]
    exact iff_of_true (.refl _) fun h ↦ hup h.2.1

/-- Where the two laws part, exactly. -/
theorem pass_same_iff (hnarrow : toInt32 (now - k.since) = now - k.since) :
    Same (kernelLaw.pass seen now undone k) (nodeLaw.pass seen now undone k)
      ↔ ¬Parts seen now undone k := by
  obtain ⟨s, t⟩ := k
  have hnarrow : toInt32 (now - t) = now - t := hnarrow
  cases s with
  | idle | entryDetected => exact iff_of_true (.refl _) (by simp [Parts])
  | entryWaiting | exitVehicleWaiting =>
    simpa [Parts, Law.pass] using waiting_same_iff (by decide) (by decide) hnarrow
  | exitRequested =>
    refine iff_of_true ?_ (by simp [Parts])
    simp only [Law.pass, Law.Expired, kernelLaw, nodeLaw, hnarrow]
    exact .refl _
  | exitVehicleDetected =>
    by_cases hlost : seen = .lost
    · subst hlost
      refine iff_of_false (fun h ↦ ?_) fun h ↦ h (.inr ⟨rfl, rfl⟩)
      have hmoved : SystemState.exitVehicleDetected = .exitVehicleWaiting := h.1
      exact absurd hmoved (by decide)
    · refine iff_of_true ?_ (by simp [Parts, hlost])
      have hsame : kernelLaw.pass seen now undone ⟨.exitVehicleDetected, t⟩
          = nodeLaw.pass seen now undone ⟨.exitVehicleDetected, t⟩ := by
        simp [Law.pass, hlost]
      rw [hsame]
      exact .refl _

/-- Nothing of this has happened so far, and the time gone by has always fitted an `int`. -/
def Alike : List ControlEvent → Prop
  | [] => True
  | .press _ :: es => Alike es
  | .pass seen now undone :: es => Alike es ∧ ∀ k, nodeLaw.run es = some k →
    toInt32 (now - k.since) = now - k.since ∧ ¬Parts seen now undone k

theorem Alike.pass (h : Alike es) (hrun : nodeLaw.run es = some k)
    (hnarrow : toInt32 (now - k.since) = now - k.since) (hparts : ¬Parts seen now undone k) :
    Alike (.pass seen now undone :: es) := by
  refine ⟨h, fun k' hk' ↦ ?_⟩
  obtain rfl : k = k' := Option.some.inj (hrun.symm.trans hk')
  exact ⟨hnarrow, hparts⟩

/-- One law makes of such events what the other does. -/
theorem Alike.run (halike : Alike es) (hrun : nodeLaw.run es = some k) :
    ∃ k', kernelLaw.run es = some k' ∧ Same k' k := by
  induction es generalizing k with
  | nil =>
    obtain rfl : Control.init = k := Option.some.inj hrun
    exact ⟨_, rfl, .refl _⟩
  | cons e es ih =>
    obtain ⟨k₀, hrun₀, happly⟩ := Option.bind_eq_some_iff.mp hrun
    cases e with
    | press now =>
      obtain ⟨k₁, hrun₁, hsame⟩ := ih halike hrun₀
      rw [Law.apply, Option.ite_none_right_eq_some] at happly
      obtain ⟨hidle, hk⟩ := happly
      obtain rfl : ⟨.exitRequested, now⟩ = k := Option.some.inj hk
      refine ⟨⟨.exitRequested, now⟩, ?_, .refl _⟩
      rw [Law.run, hrun₁, Option.bind_some, Law.apply, if_pos (hsame.1.trans hidle)]
    | pass seen now undone =>
      obtain ⟨k₁, hrun₁, hsame⟩ := ih halike.1 hrun₀
      obtain ⟨hnarrow, hparts⟩ := halike.2 k₀ hrun₀
      obtain rfl : nodeLaw.pass seen now undone k₀ = k := Option.some.inj happly
      refine ⟨kernelLaw.pass seen now undone k₁, ?_, ?_⟩
      · rw [Law.run, hrun₁]
        rfl
      · exact (hsame.pass kernelLaw).trans ((pass_same_iff hnarrow).mpr hparts)

end Laws

/-- **The two gate nodes agree.** A kernel module and a user-space node to which the same has
happened, in any two runs of theirs, are between two passes in the same state, with the same timer
running, unless a vehicle was seen again at the very moment the time was up, a lost echo was all
that was seen of a vehicle that was leaving, or the time gone by did not fit an `int`. -/
theorem nodes_agree {g : GateConfig} {n : NodeConfig} (hg : GateReachable g) (hn : NodeReachable n)
    (hundisturbed : Always Undisturbed n.trace) (htop : AtLoopTop g) (hmain : n.thread .main = none)
    (hevents : gateEvents g.trace = nodeEvents n.trace) (halike : Alike (nodeEvents n.trace)) :
    g.state.currentState = n.state.sysState
      ∧ (n.state.sysState = .exitRequested → g.state.var .exitRequestTime = n.state.stateTimer)
      ∧ (n.state.sysState = .entryWaiting ∨ n.state.sysState = .exitVehicleWaiting →
        g.state.var .lastVehicleDetect = n.state.stateTimer) := by
  have hnode : nodeLaw.run (nodeEvents n.trace) = some ⟨n.state.sysState, n.state.stateTimer⟩ :=
    (NodeBoard.at_of_reachable hn hmain).2 ((StateHistory.records n.trace).2.mpr hundisturbed)
  obtain ⟨k', hrun', hstate, hsince⟩ := halike.run hnode
  obtain ⟨-, k, hrun, hagree⟩ := (Controlled.sound_of_reachable hg).2 htop
  have hk : k' = k := by
    have hrun : kernelLaw.run (gateEvents g.trace) = some k := hrun
    rw [hevents, hrun'] at hrun
    exact Option.some.inj hrun
  subst hk
  refine ⟨hagree.state.trans hstate, fun hexit ↦ ?_, fun hwait ↦ ?_⟩
  · have hexit : k'.state = .exitRequested := hstate.trans hexit
    exact (hagree.exitTimer hexit).trans (hsince (by simp [hexit]))
  · have hwait : k'.state = .entryWaiting ∨ k'.state = .exitVehicleWaiting := by rwa [hstate]
    refine (hagree.waitTimer hwait).trans (hsince ?_)
    rcases hwait with hwait | hwait <;> simp [hwait]

/-- A vehicle comes, and is gone: both gates stand open, with the same timer running. A press, and a
vehicle that leaves: both have seen it. -/
theorem nodes_agree_visit :
    (∃ (g : GateConfig) (n : NodeConfig), GateReachable g ∧ NodeReachable n
      ∧ nodeEvents n.trace = [.pass .lost 7 none, .pass .near 0 none]
      ∧ n.state.controller.currentState = .open
      ∧ g.state.currentState = .entryWaiting ∧ n.state.sysState = .entryWaiting
      ∧ g.state.var .lastVehicleDetect = n.state.stateTimer)
    ∧ ∃ (g : GateConfig) (n : NodeConfig), GateReachable g ∧ NodeReachable n
      ∧ nodeEvents n.trace = [.pass .near 5 none, .press 3, .pass .lost 0 none]
      ∧ n.state.controller.currentState = .open
      ∧ g.state.currentState = .exitVehicleDetected ∧ n.state.sysState = .exitVehicleDetected := by
  constructor
  · obtain ⟨g, hg, htop, hgate⟩ := entry_turns
    obtain ⟨n, hn, hundisturbed, hmain, hstate, hopen, -, hevents⟩ := entry_run
    have halike : Alike (nodeEvents n.trace) := by
      rw [hevents]
      have hseen : Alike [.pass .near 0 none] :=
        .pass (k := .init) trivial rfl (by decide) (by simp [Parts, Control.init])
      exact hseen.pass (k := ⟨.entryDetected, 0⟩) rfl (by decide) (by simp [Parts])
    obtain ⟨hsame, -, htimer⟩ :=
      nodes_agree hg hn hundisturbed htop hmain (hgate.trans hevents.symm) halike
    exact ⟨g, n, hg, hn, hevents, hopen, hsame.trans hstate, hstate, htimer (.inl hstate)⟩
  · obtain ⟨g, hg, htop, hgate⟩ := exit_turns
    obtain ⟨n, hn, hundisturbed, hmain, hstate, hopen, hevents⟩ := exit_run
    have halike : Alike (nodeEvents n.trace) := by
      rw [hevents]
      have hstill : Alike [.pass .lost 0 none] :=
        .pass (k := .init) trivial rfl (by decide) (by simp [Parts, Control.init])
      have hpressed : Alike [.press 3, .pass .lost 0 none] := hstill
      exact hpressed.pass (k := ⟨.exitRequested, 3⟩) rfl (by decide) (by simp [Parts])
    obtain ⟨hsame, -⟩ :=
      nodes_agree hg hn hundisturbed htop hmain (hgate.trans hevents.symm) halike
    exact ⟨g, n, hg, hn, hevents, hopen, hsame.trans hstate, hstate⟩

end ParkingService.UserNode
