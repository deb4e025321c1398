import Mathlib.Data.List.DropRight
import ParkingService.Gate.Turns

/-!
# What the bridge makes of its samples

`poll_gate_state` of `mqtt_bridge.c` samples the device and publishes an event when two consecutive
samples that differ read `IDLE` and the name of the first state of an opening. Whether it publishes
exactly one event per opening is a question about all runs of the state machine and all samplings of
each.

A run is cut into periods: maximal stretches with a state other than `STATE_IDLE`, each with what
opened it, with the polls that fall into it, and with those that fall into the `STATE_IDLE` that
follows. What the thread writes keeps the states of the two kinds of openings apart, which is shown
through a view; the rest is about lists of samples. A period is reported exactly if the first poll
that falls into it still sees the state with which it began.
-/

namespace ParkingService

open Concurrency

/-! ## `mqtt_bridge.c` -/

def topicPubGate : String := "parking/rpi2/gate"

def topicPubEvent : String := "parking/rpi2/event"

/-- A call of `mosquitto_publish`. -/
structure Message where
  topic : String
  payload : String
  qos : ℕ
  retain : Bool
  deriving DecidableEq

def stateToGate (s : String) : String := if s = "IDLE" then "CLOSED" else "OPEN"

/-- The strings that end up in `ev` and `reason`. -/
def transitionToEvent (prev next : String) : String × String :=
  if prev = "IDLE" ∧ next = "ENTRY_DETECTED" then ("ENTRY_OPEN", "vehicle_detected")
  else if prev = "IDLE" ∧ next = "EXIT_REQUESTED" then ("EXIT_OPEN", "switch_pressed")
  else ("", "")

def gateMessage (gate : String) : Message := ⟨topicPubGate, gate, 1, true⟩

def eventMessage (ev reason : String) : Message :=
  ⟨topicPubEvent, "\x7b\"event\":\"" ++ ev ++ "\",\"reason\":\"" ++ reason ++ "\"\x7d", 1, false⟩

/-- The loop that cuts off newlines and blanks at the end. -/
def cutTrailing (cur : String) : String :=
  .ofList (cur.toList.rdropWhile fun ch ↦ ch = '\n' ∨ ch = ' ')

/-- The local variable `prev` of `poll_gate_state`, and what has been published so far. -/
structure Bridge where
  prev : String
  published : List Message

/-- `last_state` as initialised. -/
def Bridge.init : Bridge := ⟨"UNKNOWN", []⟩

/-- One turn of the loop of `poll_gate_state` in which the device returns `out`. -/
def Bridge.pollGateState (b : Bridge) (out : String) : Bridge :=
  if out = "" then b
  else if cutTrailing out = b.prev then b
  else
    let (ev, reason) := transitionToEvent b.prev (cutTrailing out)
    { prev := cutTrailing out
      published := b.published ++ gateMessage (stateToGate (cutTrailing out))
        :: if ev ≠ "" then [eventMessage ev reason] else [] }

/-- The bridge after these polls. -/
def bridge (polls : List String) : Bridge := polls.foldl Bridge.pollGateState .init

/-- What has been published on `parking/rpi2/event`. -/
def Bridge.events (b : Bridge) : List Message := b.published.filter fun m ↦ m.topic = topicPubEvent

/-! ## Periods -/

/-- What opens the gate. -/
inductive Cause
  /-- the sensor branch of `STATE_IDLE` -/
  | sensor
  /-- `on_switch_press` -/
  | switch
  deriving DecidableEq

/-- The event that an opening deserves. -/
def Cause.message : Cause → Message
  | .sensor => eventMessage "ENTRY_OPEN" "vehicle_detected"
  | .switch => eventMessage "EXIT_OPEN" "switch_pressed"

/-- A maximal stretch with a state other than `STATE_IDLE`. -/
structure Period where
  /-- the opening that was last announced when it began -/
  cause : Option Cause
  /-- what the polls in it have seen -/
  polls : List String
  /-- what the polls in the `STATE_IDLE` after it have seen -/
  after : List String

/-- A run, cut into periods; the last one comes first. -/
structure History where
  state : SystemState
  announced : Option Cause
  /-- what the polls before the first period have seen -/
  before : List String
  periods : List Period

namespace History

def init : History := ⟨.idle, none, [], []⟩

def see (h : History) (out : String) : History :=
  match h.periods with
  | [] => { h with before := h.before ++ [out] }
  | p :: ps =>
    if h.state = .idle then { h with periods := { p with after := p.after ++ [out] } :: ps }
    else { h with periods := { p with polls := p.polls ++ [out] } :: ps }

def write (h : History) (s : SystemState) : History :=
  if h.state = .idle ∧ s ≠ .idle then
    { h with state := s, periods := ⟨h.announced, [], []⟩ :: h.periods }
  else { h with state := s }

def next (h : History) : GateLabel → History
  | .op _ (.prInfo .exitOpen) _ => { h with announced := some .switch }
  | .op _ (.prInfo (.entryOpen _)) _ => { h with announced := some .sensor }
  | .op _ (.writeState s) _ => h.write s
  | .ext (.poll out) => h.see out
  | _ => h

end History

def history (tr : List GateLabel) : History := tr.foldl History.next .init

theorem history_append_singleton (tr : List GateLabel) (l : GateLabel) :
    history (tr ++ [l]) = (history tr).next l := by
  rw [history, List.foldl_append, List.foldl_cons, List.foldl_nil, history]

/-- The periods of a run, in order. -/
def periods (tr : List GateLabel) : List Period := (history tr).periods.reverse

def polledOf : GateLabel → Option String
  | .ext (.poll out) => some out
  | _ => none

/-- What the polls have seen, in order. -/
def polled (tr : List GateLabel) : List String := tr.filterMap polledOf

/-- The first poll sees `STATE_IDLE`, and there is a poll in every period and in every
`STATE_IDLE` between two periods. -/
structure WellSampled (tr : List GateLabel) : Prop where
  first : ∀ out ∈ (polled tr).head?, out = stateString .idle
  period : ∀ p ∈ periods tr, p.polls ≠ []
  between : ∀ p ∈ (periods tr).dropLast, p.after ≠ []

/-- The first poll in the period sees the state with which it began. -/
def Period.Fresh (p : Period) : Prop :=
  ∃ out ∈ p.polls.head?, out = stateString .entryDetected ∨ out = stateString .exitRequested

/-! ## What the thread writes -/

/-- The kind of opening that a state belongs to. -/
def causeOf : SystemState → Option Cause
  | .idle => none
  | .entryDetected | .entryWaiting => some .sensor
  | .exitRequested | .exitVehicleDetected | .exitVehicleWaiting => some .switch

/-- What is last announced suits the state. -/
def Suits (announced : Option Cause) (s : SystemState) : Prop :=
  ∀ k ∈ causeOf s, announced = some k

/-- An opening is only announced in `STATE_IDLE`, and after that only states that suit it are
written. -/
def OrderlyAt (state : SystemState) (announced : Option Cause) : GateLabel → Prop
  | .op _ (.prInfo .exitOpen) _ => state = .idle
  | .op _ (.prInfo (.entryOpen _)) _ => state = .idle
  | .op _ (.writeState s) _ => Suits announced s
  | _ => True

def Orderly (pre : List GateLabel) (l : GateLabel) : Prop :=
  OrderlyAt (history pre).state (history pre).announced l

/-- Reads of the state tell it as it was last written. -/
def TruthfulAt (state : SystemState) : GateLabel → Prop
  | .op _ .readState s => s = state
  | .ext (.poll out) => out = stateString state
  | _ => True

def Truthful (pre : List GateLabel) (l : GateLabel) : Prop := TruthfulAt (history pre).state l

theorem History.see_state (h : History) (out : String) : (h.see out).state = h.state := by
  unfold see
  split
  · rfl
  · split <;> rfl

theorem History.see_announced (h : History) (out : String) :
    (h.see out).announced = h.announced := by
  unfold see
  split
  · rfl
  · split <;> rfl

theorem History.write_state (h : History) (s : SystemState) : (h.write s).state = s := by
  unfold write
  split <;> rfl

theorem History.write_announced (h : History) (s : SystemState) :
    (h.write s).announced = h.announced := by
  unfold write
  split <;> rfl

/-- The state that the trace tells is the state, and it is what reads and polls have told all
along. -/
theorem truthful_of_reachable {c : GateConfig} (hc : GateReachable c) :
    (history c.trace).state = c.state.currentState ∧ Always Truthful c.trace := by
  refine hc.invariant (I := fun s ↦ (history s.trace).state = s.state.currentState
    ∧ Always Truthful s.trace) ⟨rfl, always_nil⟩ ?_
  intro s l x hs hstep
  obtain ⟨hstate, htruth⟩ := hs
  rw [Snap.log_trace, Snap.log_state, history_append_singleton, always_append_singleton]
  cases l with
  | start t j =>
    obtain ⟨p, hentry⟩ := hstep
    obtain ⟨-, rfl⟩ : _ ∧ s.state = x := by simpa [gateMachine] using hentry
    exact ⟨hstate, htruth, trivial⟩
  | op t o r =>
    obtain ⟨hanswers, rfl⟩ := GateOp.exec_eq_some.mp hstep
    refine ⟨?_, htruth, ?_⟩
    · cases o with
      | writeState s' => exact History.write_state _ _
      | prInfo line => cases line <;> exact hstate
      | _ => exact hstate
    · cases o with
      | readState => exact hanswers.trans hstate.symm
      | _ => trivial
  | ext e =>
    obtain ⟨rfl, rfl⟩ | ⟨rfl, rfl⟩ := GateEvent.exec_cases hstep
    · exact ⟨hstate, htruth, trivial⟩
    · refine ⟨(History.see_state _ _).trans hstate, htruth, ?_⟩
      exact congrArg stateString hstate.symm

/-- What is followed to keep the two kinds of openings apart: the state, the opening last announced,
and whether everything has been orderly. -/
structure Passage where
  state : SystemState
  announced : Option Cause
  orderly : Prop

namespace Passage

def ofTrace (tr : List GateLabel) : Passage where
  state := (history tr).state
  announced := (history tr).announced
  orderly := Always Orderly tr

def next (v : Passage) (l : GateLabel) : Passage where
  state := match l with
    | .op _ (.writeState s) _ => s
    | _ => v.state
  announced := match l with
    | .op _ (.prInfo .exitOpen) _ => some .switch
    | .op _ (.prInfo (.entryOpen _)) _ => some .sensor
    | _ => v.announced
  orderly := v.orderly ∧ OrderlyAt v.state v.announced l

theorem ofTrace_append (tr : List GateLabel) (l : GateLabel) :
    ofTrace (tr ++ [l]) = (ofTrace tr).next l := by
  unfold ofTrace next
  rw [history_append_singleton]
  simp only [always_append_singleton]
  cases l with
  | start => rfl
  | op t o r =>
    cases o with
    | writeState s =>
      simp only [History.next, History.write_state, History.write_announced]
      rfl
    | prInfo line => cases line <;> rfl
    | _ => rfl
  | ext e =>
    cases e with
    | press => rfl
    | poll out =>
      simp only [History.next, History.see_state, History.see_announced]
      rfl

theorem next_of_ext (v : Passage) (e : GateEvent) : v.next (.ext e) = v := by
  simp [next, OrderlyAt]

theorem next_of_start (v : Passage) : v.next (.start () ()) = v := by
  simp [next, OrderlyAt]

def view : View gateMachine Passage where
  assume := Truthful
  proj s := ofTrace s.trace
  guard o r v := TruthfulAt v.state (.op () o r)
  step o r v := v.next (.op () o r)
  proj_ext _ _ := (ofTrace_append _ _).trans (next_of_ext _ _)
  proj_start _ := (ofTrace_append _ _).trans (next_of_start _)
  proj_op htrue _ := ⟨htrue, ofTrace_append _ _⟩

/-- Everything has been orderly so far. -/
def Sound (v : Passage) : Prop := v.orderly

/-- What holds at the top of the loop. -/
def AtTop (v : Passage) : Prop := Suits v.announced v.state

/-- What holds in a turn that has read the state as `s`. -/
def In (s : SystemState) (v : Passage) : Prop := v.state = s ∧ v.AtTop

/-- An opening has been announced, and the state is not written yet. -/
def Announced (k : Cause) (v : Passage) : Prop := v.announced = some k

/-- Operations that leave the view alone. -/
def Quiet : GateOp → Prop
  | .writeState _ | .prInfo .exitOpen | .prInfo (.entryOpen _) => False
  | _ => True

theorem next_of_quiet {o : GateOp} (ho : Quiet o) (r : o.Resp) (v : Passage) :
    v.next (.op () o r) = v := by
  cases o with
  | writeState => exact ho.elim
  | prInfo line => cases line <;> first | exact ho.elim | simp [next, OrderlyAt]
  | _ => simp [next, OrderlyAt]

theorem quiet_program {A : Passage → Prop} {α : Type} {p : GateProg α} (hp : p.Uses Quiet) :
    view.Triple Sound A p fun _ ↦ A :=
  .still (fun _ ↦ next_of_quiet) hp

theorem quiet {A : Passage → Prop} {o : GateOp} (ho : Quiet o) :
    view.Triple Sound A (perform o) fun _ ↦ A :=
  quiet_program ⟨ho, fun _ ↦ trivial⟩

variable {s s' : SystemState} {k : Cause}

/-- The state may be written if it suits what is announced. -/
theorem gateSetState_rule {A : Passage → Prop} (h : ∀ v, A v → Suits v.announced s') :
    view.Triple Sound A (gateSetState s') fun _ ↦ In s' :=
  perform_rule fun v _ hv hA _ ↦ ⟨⟨hv, h v hA⟩, rfl, h v hA⟩

/-- From `STATE_IDLE` into an opening that has been announced. -/
theorem settle_announced (h : causeOf s' = some k) :
    view.Triple Sound (Announced k) (gateSetState s') fun _ ↦ In s' := by
  refine gateSetState_rule fun v hk k' hk' ↦ ?_
  rw [h] at hk'
  exact hk.trans hk'

theorem gateGetState_rule : view.Triple Sound AtTop gateGetState In := by
  refine perform_rule fun v r hv hA hr ↦ ?_
  rw [show view.step .readState r v = v from next_of_quiet (o := .readState) trivial r v]
  exact ⟨hv, hr.symm, hA⟩

theorem onSwitchPress_rule : view.Triple Sound AtTop onSwitchPress fun _ ↦ AtTop := by
  refine .bind gateGetState_rule fun s ↦ .ite (fun hs ↦ ?_) fun _ ↦ ?_
  · refine .bind (R := fun _ ↦ Announced .switch) ?_ fun _ ↦ ?_
    · exact perform_rule fun v _ hv hin _ ↦ ⟨⟨hv, hin.1.trans hs⟩, rfl⟩
    refine .bind (quiet_program (gateOpen_uses trivial)) fun _ ↦ ?_
    refine .bind (quiet (o := .ktime) trivial) fun now ↦ ?_
    refine .bind (quiet (o := .store .exitRequestTime now) trivial) fun _ ↦ ?_
    exact .post (fun _ _ _ h ↦ h.2) (settle_announced rfl)
  · exact .post (fun _ _ _ h ↦ h.2) (quiet (o := .setSwitchReopen) trivial)

theorem closeInterrupted_uses_quiet (d : ℤ) : (closeInterrupted d).Uses Quiet :=
  (closeInterrupted_uses d).mono fun o ho ↦ by cases o <;> first | exact ho.elim | trivial

theorem gateCloseInterruptible_rule :
    view.Triple Sound (In s) gateCloseInterruptible fun _ ↦ In s := by
  have houtline : CloseOutline view Sound (fun _ ↦ In s) (fun _ ↦ In s) (fun _ _ ↦ In s)
      (fun _ _ ↦ In s) (fun _ _ ↦ In s) (fun _ ↦ In s) :=
    { step := fun _ _ ↦ quiet (o := .closingStep) trivial
      skip := fun _ _ _ _ _ h ↦ h
      buzzer := fun _ x ↦ quiet (o := .gpioSet .buzzer x) trivial
      measure := fun _ ↦ quiet_program ⟨trivial, fun _ ↦ trivial⟩
      interrupted := fun _ d ↦ (quiet_program (closeInterrupted_uses_quiet d)).post
        fun b _ _ h ↦ by cases b <;> exact h
      report := fun k d ↦ quiet (o := .prInfo (.closeAborted d k)) trivial
      silence := fun _ ↦ quiet (o := .gpioSet .buzzer 1) trivial
      undo := fun _ _ _ _ ↦ quiet (o := .openingStep) trivial
      reopened := fun _ _ ↦ quiet (o := .deenergize) trivial
      closed := quiet (o := .deenergize) trivial }
  exact houtline.close

theorem quiet_of_minor {o : GateOp} (ho : o.Minor) : Quiet o := by
  cases o with
  | prInfo line => cases line <;> trivial
  | _ => trivial

/-- As long as the gate stays open it is open for the same cause. -/
theorem causeOf_onward (h : s' ∈ s.onward) : causeOf s' = causeOf s := by
  cases s <;> simp only [SystemState.onward, List.mem_cons, List.not_mem_nil, or_false] at h
  case exitRequested => rcases h with rfl | rfl <;> rfl
  all_goals
    subst h
    rfl

theorem branchOutline : BranchOutline view Sound In In AtTop where
  minor _ _ ho := quiet (quiet_of_minor ho)
  enter d now := by
    refine .bind (R := fun _ ↦ Announced .sensor) ?_ fun _ ↦ ?_
    · exact perform_rule fun v _ hv hin _ ↦ ⟨⟨hv, hin.1⟩, rfl⟩
    refine .bind (settle_announced rfl) fun _ ↦ .bind (quiet_program (gateOpen_uses trivial))
      fun _ ↦ ?_
    exact .post (fun _ _ _ h ↦ h.2) (quiet (o := .store .lastVehicleDetect now) trivial)
  onward s s' h := by
    refine gateSetState_rule fun v hin k hk ↦ ?_
    obtain ⟨rfl, hsuits⟩ := hin
    exact hsuits k (causeOf_onward h ▸ hk)
  close _ _ := gateCloseInterruptible_rule.post fun _ _ _ h ↦ by split <;> exact h
  closed _ _ :=
    -- `STATE_IDLE` belongs to no opening, so it suits any.
    .post (fun _ _ _ h ↦ h.2) (gateSetState_rule fun _ _ _ hk ↦ by cases hk)
  top _ _ _ h := h.2

theorem turnOutline : TurnOutline view Sound AtTop AtTop AtTop In (fun s _ ↦ In s)
    (fun s _ _ ↦ In s) where
  take := (quiet (o := .xchgSwitchPressed) trivial).post fun b _ _ h ↦ by cases b <;> exact h
  press := onSwitchPress_rule
  read := gateGetState_rule
  measure _ := quiet_program ⟨trivial, fun _ ↦ trivial⟩
  clock _ _ := quiet (o := .ktime) trivial
  act := branchOutline.dispatch
  signal o ho v r hv hA _ := by
    have hquiet : Quiet o := by cases o <;> first | exact ho.elim | trivial
    rw [show view.step o r v = v from next_of_quiet hquiet r v]
    exact ⟨hv, hA⟩

end Passage

/-- Every reachable run is orderly. -/
theorem orderly_of_reachable {c : GateConfig} (hc : GateReachable c) : Always Orderly c.trace :=
  (Passage.turnOutline.reachable (W := Passage.view) always_nil (fun _ h ↦ by cases h) hc
    (truthful_of_reachable hc).2).1

/-! ## What the polls see -/

theorem Suits.causeOf_eq {announced : Option Cause} {s : SystemState} (h : Suits announced s)
    (hs : s ≠ .idle) : causeOf s = announced := by
  cases s with
  | idle => exact absurd rfl hs
  | _ => exact (h _ rfl).symm

/-- The polls in a period see states of its kind of opening, and those after it see
`STATE_IDLE`. -/
structure Period.Seen (p : Period) : Prop where
  polls : ∀ out ∈ p.polls, ∃ s, s ≠ .idle ∧ causeOf s = p.cause ∧ out = stateString s
  after : ∀ out ∈ p.after, out = stateString .idle

/-- The periods account for all polls. -/
structure History.Accounts (h : History) (polls : List String) : Prop where
  suits : Suits h.announced h.state
  before : ∀ out ∈ h.before, out = stateString .idle
  seen : ∀ p ∈ h.periods, p.Seen
  polls : polls = h.before ++ h.periods.reverse.flatMap fun p ↦ p.polls ++ p.after
  current : h.state ≠ .idle → ∃ p ps, h.periods = p :: ps ∧ p.cause = h.announced ∧ p.after = []

namespace History.Accounts

variable {h : History} {polls : List String}

theorem announce (ha : h.Accounts polls) (hidle : h.state = .idle) (k : Cause) :
    Accounts { h with announced := some k } polls where
  suits k' hk' := by
    rw [hidle] at hk'
    cases hk'
  before := ha.before
  seen := ha.seen
  polls := ha.polls
  current hs := absurd hidle hs

theorem write (ha : h.Accounts polls) {s : SystemState} (hs : Suits h.announced s) :
    (h.write s).Accounts polls := by
  unfold History.write
  split
  · -- a new period
    refine ⟨hs, ha.before, fun p hp ↦ ?_, ?_, fun _ ↦ ⟨_, _, rfl, rfl, rfl⟩⟩
    · rcases List.mem_cons.mp hp with rfl | hp
      · exact ⟨by simp, by simp⟩
      · exact ha.seen p hp
    · simpa using ha.polls
  · rename_i hstay
    refine ⟨hs, ha.before, ha.seen, ha.polls, fun hne ↦ ha.current fun hidle ↦ ?_⟩
    exact hstay ⟨hidle, hne⟩

theorem see (ha : h.Accounts polls) : (h.see (stateString h.state)).Accounts
    (polls ++ [stateString h.state]) := by
  unfold History.see
  cases hperiods : h.periods with
  | nil =>
    -- without a period there has only been `STATE_IDLE`
    have hidle : h.state = .idle := by
      by_contra hne
      obtain ⟨p, ps, hp, -⟩ := ha.current hne
      rw [hperiods] at hp
      cases hp
    refine ⟨ha.suits, fun out hout ↦ ?_, ?_, ?_, fun hne ↦ absurd hidle hne⟩
    · rcases List.mem_append.mp hout with hout | hout
      · exact ha.before out hout
      · rw [List.mem_singleton.mp hout, hidle]
    · simp
    · have hpolls := ha.polls
      simp only [hperiods, List.reverse_nil, List.flatMap_nil, List.append_nil] at hpolls ⊢
      rw [hpolls]
  | cons p ps =>
    have hp := ha.seen p (by simp [hperiods])
    have hps (q : Period) (hq : q ∈ ps) : q.Seen := ha.seen q (by simp [hperiods, hq])
    have hpolls := ha.polls
    rw [hperiods, List.reverse_cons, List.flatMap_append] at hpolls
    by_cases hidle : h.state = .idle
    · simp only [if_pos hidle]
      refine ⟨ha.suits, ha.before, fun q hq ↦ ?_, ?_, fun hne ↦ absurd hidle hne⟩
      · rcases List.mem_cons.mp hq with rfl | hq
        · refine ⟨hp.polls, fun out hout ↦ ?_⟩
          rcases List.mem_append.mp hout with hout | hout
          · exact hp.after out hout
          · rw [List.mem_singleton.mp hout, hidle]
        · exact hps q hq
      · rw [hpolls]
        simp
    · simp only [if_neg hidle]
      obtain ⟨p', ps', hp', hcause, hafter⟩ := ha.current hidle
      obtain ⟨rfl, rfl⟩ : p = p' ∧ ps = ps' := by simpa [hperiods] using hp'
      refine ⟨ha.suits, ha.before, fun q hq ↦ ?_, ?_, fun _ ↦ ⟨_, _, rfl, hcause, hafter⟩⟩
      · rcases List.mem_cons.mp hq with rfl | hq
        · refine ⟨fun out hout ↦ ?_, hp.after⟩
          rcases List.mem_append.mp hout with hout | hout
          · exact hp.polls out hout
          · refine ⟨h.state, hidle, ?_, List.mem_singleton.mp hout⟩
            exact (ha.suits.causeOf_eq hidle).trans hcause.symm
        · exact hps q hq
      · rw [hpolls]
        simp [hafter]

theorem next (ha : h.Accounts polls) {l : GateLabel} (horderly : OrderlyAt h.state h.announced l)
    (htrue : TruthfulAt h.state l) : (h.next l).Accounts (polls ++ (polledOf l).toList) := by
  cases l with
  | start => simpa [polledOf, History.next] using ha
  | op t o r =>
    rw [show (polledOf (.op t o r)).toList = [] from rfl, List.append_nil]
    cases o with
    | writeState s => exact ha.write horderly
    | prInfo line =>
      cases line with
      | exitOpen => exact ha.announce horderly .switch
      | entryOpen => exact ha.announce horderly .sensor
      | _ => exact ha
    | _ => exact ha
  | ext e =>
    cases e with
    | press => simpa [polledOf, History.next] using ha
    | poll out =>
      obtain rfl : out = stateString h.state := htrue
      exact ha.see

end History.Accounts

theorem accounts_of_always {tr : List GateLabel} (horderly : Always Orderly tr)
    (htrue : Always Truthful tr) : (history tr).Accounts (polled tr) := by
  induction tr using List.reverseRecOn with
  | nil =>
    refine ⟨?_, by simp [history, History.init], by simp [history, History.init], rfl, ?_⟩
    · intro k hk
      cases hk
    · exact fun h ↦ absurd rfl h
  | append_singleton tr l ih =>
    obtain ⟨horderly, hl⟩ := always_append_singleton.mp horderly
    obtain ⟨htrue, hl'⟩ := always_append_singleton.mp htrue
    have hpolled : polled (tr ++ [l]) = polled tr ++ (polledOf l).toList := by
      cases h : polledOf l <;> simp [polled, h]
    rw [history_append_singleton, hpolled]
    exact (ih horderly htrue).next hl hl'

/-! ## What the bridge makes of it -/

theorem stateString_eq_idle {s : SystemState} : stateString s = "IDLE" ↔ s = .idle := by
  cases s <;> decide

theorem cutTrailing_stateString (s : SystemState) :
    cutTrailing (stateString s) = stateString s := by
  cases s <;> decide

/-- The event for the first state that is seen after `STATE_IDLE`. -/
def firstSeen : SystemState → List Message
  | .entryDetected => [Cause.message .sensor]
  | .exitRequested => [Cause.message .switch]
  | _ => []

namespace Bridge

variable (b : Bridge) (s : SystemState)

theorem pollGateState_stateString : b.pollGateState (stateString s)
    = if stateString s = b.prev then b
      else
        let (ev, reason) := transitionToEvent b.prev (stateString s)
        { prev := stateString s
          published := b.published ++ gateMessage (stateToGate (stateString s))
            :: if ev ≠ "" then [eventMessage ev reason] else [] } := by
  have hne : stateString s ≠ "" := by cases s <;> decide
  rw [pollGateState, if_neg hne, cutTrailing_stateString]

theorem prev_pollGateState : (b.pollGateState (stateString s)).prev = stateString s := by
  rw [pollGateState_stateString]
  split
  · exact Eq.symm ‹_›
  · rfl

theorem events_pollGateState : (b.pollGateState (stateString s)).events
    = b.events ++ if b.prev = "IDLE" then firstSeen s else [] := by
  rw [pollGateState_stateString]
  by_cases hsame : stateString s = b.prev
  · rw [if_pos hsame, ← hsame]
    cases s <;> simp [stateString, firstSeen]
  · rw [if_neg hsame]
    by_cases hidle : b.prev = "IDLE"
    · rw [if_pos hidle]
      cases s <;> simp [events, transitionToEvent, hidle, stateString, firstSeen, gateMessage,
        eventMessage, topicPubGate, topicPubEvent, Cause.message]
    · simp [events, transitionToEvent, hidle, gateMessage, topicPubGate, topicPubEvent]

end Bridge

/-! ## Stretches of polls -/

section Stretches

variable {b : Bridge}

/-- Polls that see `STATE_IDLE` report nothing, and the next opening is reported after any of
them. -/
theorem foldl_idle {polls : List String} (h : ∀ out ∈ polls, out = stateString .idle) :
    (polls.foldl Bridge.pollGateState b).events = b.events
      ∧ (polls ≠ [] ∨ b.prev = "IDLE" → (polls.foldl Bridge.pollGateState b).prev = "IDLE") := by
  induction polls generalizing b with
  | nil => exact ⟨rfl, fun h ↦ h.resolve_left fun hne ↦ hne rfl⟩
  | cons out polls ih =>
    obtain rfl : out = stateString .idle := h out List.mem_cons_self
    have hprev := b.prev_pollGateState .idle
    have hevents := b.events_pollGateState .idle
    rw [show firstSeen .idle = [] from rfl, ite_self, List.append_nil] at hevents
    obtain ⟨ihevents, ihprev⟩ :=
      ih (b := b.pollGateState (stateString .idle)) fun o ho ↦ h o (List.mem_cons_of_mem _ ho)
    rw [List.foldl_cons]
    exact ⟨ihevents.trans hevents, fun _ ↦ ihprev (.inr hprev)⟩

/-- Once an opening has been seen, further polls in it report nothing. -/
theorem foldl_open {polls : List String}
    (h : ∀ out ∈ polls, ∃ s, s ≠ .idle ∧ out = stateString s) (hb : b.prev ≠ "IDLE") :
    (polls.foldl Bridge.pollGateState b).events = b.events := by
  induction polls generalizing b with
  | nil => rfl
  | cons out polls ih =>
    obtain ⟨s, hs, rfl⟩ := h out List.mem_cons_self
    have hprev := b.prev_pollGateState s
    have hevents := b.events_pollGateState s
    rw [if_neg hb, List.append_nil] at hevents
    rw [List.foldl_cons, ← hevents]
    refine ih (fun o ho ↦ h o (List.mem_cons_of_mem _ ho)) ?_
    rw [hprev]
    exact fun hidle ↦ hs (stateString_eq_idle.mp hidle)

instance : DecidablePred Period.Fresh := fun p ↦ by
  unfold Period.Fresh
  infer_instance

/-- What the bridge reports of a period. -/
def Period.report (p : Period) : List Message :=
  if p.Fresh then (p.cause.map Cause.message).toList else []

/-- The report is determined by what the first poll sees. -/
theorem Period.report_eq {p : Period} {s : SystemState} {polls : List String}
    (hp : p.polls = stateString s :: polls) (hcause : causeOf s = p.cause) :
    p.report = firstSeen s := by
  have hfresh : p.Fresh ↔ s = .entryDetected ∨ s = .exitRequested := by
    simp [Fresh, hp, stateString_injective.eq_iff]
  simp only [report, hfresh, ← hcause]
  cases s <;> rfl

theorem foldl_period {p : Period} (hp : p.Seen) (hne : p.polls ≠ []) (hb : b.prev = "IDLE") :
    (p.polls.foldl Bridge.pollGateState b).events = b.events ++ p.report := by
  obtain ⟨out, polls, hpolls⟩ := List.exists_cons_of_ne_nil hne
  obtain ⟨s, hs, hcause, rfl⟩ := hp.polls out (by simp [hpolls])
  have hprev : (b.pollGateState (stateString s)).prev ≠ "IDLE" := by
    rw [b.prev_pollGateState]
    exact fun hidle ↦ hs (stateString_eq_idle.mp hidle)
  have hrest (o : String) (ho : o ∈ polls) : ∃ s, s ≠ .idle ∧ o = stateString s := by
    obtain ⟨s', hs', -, rfl⟩ := hp.polls o (by simp [hpolls, ho])
    exact ⟨s', hs', rfl⟩
  rw [hpolls, List.foldl_cons, foldl_open hrest hprev, b.events_pollGateState, if_pos hb,
    Period.report_eq hpolls hcause]

/-- Period after period. -/
theorem foldl_periods {ps : List Period} (hseen : ∀ p ∈ ps, p.Seen)
    (hperiod : ∀ p ∈ ps, p.polls ≠ []) (hbetween : ∀ p ∈ ps.dropLast, p.after ≠ [])
    (hb : ps ≠ [] → b.prev = "IDLE") :
    ((ps.flatMap fun p ↦ p.polls ++ p.after).foldl Bridge.pollGateState b).events
      = b.events ++ ps.flatMap Period.report := by
  induction ps generalizing b with
  | nil => simp
  | cons p ps ih =>
    have hp := hseen p List.mem_cons_self
    obtain ⟨hevents, hprev⟩ :=
      foldl_idle (b := p.polls.foldl Bridge.pollGateState b) hp.after
    rw [List.flatMap_cons, List.foldl_append, List.foldl_append, List.flatMap_cons]
    rw [ih (fun q hq ↦ hseen q (List.mem_cons_of_mem _ hq))
      (fun q hq ↦ hperiod q (List.mem_cons_of_mem _ hq)) ?_ ?_, hevents,
      foldl_period hp (hperiod p List.mem_cons_self) (hb (by simp)), List.append_assoc]
    · intro q hq
      refine hbetween q ?_
      cases ps with
      | nil => simp at hq
      | cons q' ps => exact List.mem_cons_of_mem _ hq
    · -- between two periods there is a poll, after which `prev` is `IDLE` again
      intro hne
      refine hprev (.inl (hbetween p ?_))
      cases ps with
      | nil => exact absurd rfl hne
      | cons q' ps => exact List.mem_cons_self

end Stretches

/-- What the bridge reports of a run is what it reports of its periods. -/
theorem events_eq_reports {tr : List GateLabel} (ha : (history tr).Accounts (polled tr))
    (hs : WellSampled tr) : (bridge (polled tr)).events = (periods tr).flatMap Period.report := by
  have hseen (p : Period) (hp : p ∈ periods tr) : p.Seen := ha.seen p (List.mem_reverse.mp hp)
  have hpolls : polled tr = (history tr).before
      ++ (periods tr).flatMap fun p ↦ p.polls ++ p.after := ha.polls
  obtain ⟨hevents, hprev⟩ := foldl_idle (b := .init) ha.before
  rw [bridge, hpolls, List.foldl_append, foldl_periods hseen hs.period hs.between ?_, hevents]
  · rfl
  · intro hne
    refine hprev (.inl fun hnil ↦ ?_)
    -- without a poll before it, the first poll would fall into the first period
    obtain ⟨p, ps, hp⟩ := List.exists_cons_of_ne_nil hne
    obtain ⟨out, polls, hout⟩ := List.exists_cons_of_ne_nil (hs.period p (by simp [hp]))
    have hfirst := hs.first out (by simp [hpolls, hnil, hp, hout])
    obtain ⟨s, hs, -, rfl⟩ := (hseen p (by simp [hp])).polls out (by simp [hout])
    exact hs (stateString_injective hfirst)

theorem report_of_fresh {p : Period} (hp : p.Seen) (h : p.Fresh) :
    p.report.map some = [p.cause.map Cause.message] := by
  obtain ⟨out, hout, hfresh⟩ := h
  obtain ⟨s, hs, hcause, rfl⟩ := hp.polls out (List.mem_of_mem_head? hout)
  rw [Period.report, if_pos ⟨_, hout, hfresh⟩, ← hcause]
  rcases hfresh with hfresh | hfresh
  · rw [stateString_injective hfresh]
    rfl
  · rw [stateString_injective hfresh]
    rfl

theorem length_reports {ps : List Period} (hseen : ∀ p ∈ ps, p.Seen) :
    (ps.flatMap Period.report).length = ps.countP fun p ↦ p.Fresh := by
  induction ps with
  | nil => rfl
  | cons p ps ih =>
    have hps := ih fun q hq ↦ hseen q (List.mem_cons_of_mem _ hq)
    rw [List.flatMap_cons, List.length_append, hps, List.countP_cons, Nat.add_comm]
    by_cases hfresh : p.Fresh
    · have hlength := congrArg List.length (report_of_fresh (hseen p List.mem_cons_self) hfresh)
      rw [List.length_map, List.length_singleton] at hlength
      simp [hlength, hfresh]
    · simp [Period.report, hfresh]

/-- All periods are reported exactly if each of them is fresh when it is first seen. -/
theorem reports_eq_iff {ps : List Period} (hseen : ∀ p ∈ ps, p.Seen) :
    (ps.flatMap Period.report).map some = ps.map (fun p ↦ p.cause.map Cause.message)
      ↔ ∀ p ∈ ps, p.Fresh := by
  constructor
  · intro h
    -- no period is reported more than once, so none can be missing
    have hcount := congrArg List.length h
    rw [List.length_map, List.length_map, length_reports hseen] at hcount
    simpa using List.countP_eq_length.mp hcount
  · intro h
    induction ps with
    | nil => rfl
    | cons p ps ih =>
      rw [List.flatMap_cons, List.map_append, List.map_cons,
        report_of_fresh (hseen p List.mem_cons_self) (h p List.mem_cons_self),
        ih (fun q hq ↦ hseen q (List.mem_cons_of_mem _ hq)) fun q hq ↦
          h q (List.mem_cons_of_mem _ hq)]
      rfl

/-! ## Runs -/

/-- A label that neither the cut into periods nor the polls show. -/
def Unseen (l : GateLabel) : Prop := polledOf l = none ∧ ∀ h : History, h.next l = h

theorem unseen_of_signal {l : GateLabel} (h : IsSignal l) : Unseen l := by
  obtain ⟨o, r, ho, rfl⟩ := h
  refine ⟨rfl, fun h ↦ ?_⟩
  cases o <;> first | rfl | exact ho.elim

theorem unseen_opening : ∀ l ∈ opening, Unseen l := by
  intro l hl
  rw [List.eq_of_mem_replicate hl]
  exact ⟨rfl, fun _ ↦ rfl⟩

theorem foldl_next_of_unseen {tr : List GateLabel} (h : ∀ l ∈ tr, Unseen l) (x : History) :
    tr.foldl History.next x = x := by
  induction tr with
  | nil => rfl
  | cons l tr ih =>
    rw [List.foldl_cons, (h l List.mem_cons_self).2 x]
    exact ih fun l' hl' ↦ h l' (List.mem_cons_of_mem _ hl')

theorem polled_of_unseen {tr : List GateLabel} (h : ∀ l ∈ tr, Unseen l) : polled tr = [] :=
  List.filterMap_eq_nil_iff.mpr fun l hl ↦ (h l hl).1

theorem polled_append (tr tr' : List GateLabel) : polled (tr ++ tr') = polled tr ++ polled tr' :=
  List.filterMap_append

/-- A poll is possible at any moment. -/
theorem step_poll (c : GateConfig) : gateMachine.Step c
    ⟨c.toSnap.log c.state (.ext (.poll (stateString c.state.currentState))), c.thread⟩ := by
  have hexec : GateEvent.exec (.poll (stateString c.state.currentState)) c.state
      = some c.state := by
    rw [GateEvent.exec, gateDeviceRead_bridge]
    exact if_pos rfl
  exact .ext hexec

/-- What the module has been asked and told when it has just been loaded and polled. -/
def polledOnce : GateConfig :=
  ⟨(Config.init GateState.init : GateConfig).toSnap.log .init (.ext (.poll "IDLE")), fun _ ↦ none⟩

theorem polledOnce_reachable : GateReachable polledOnce := .single (step_poll (.init .init))

/-- An opening that is polled once, in state `s`. -/
theorem polled_opening {c : GateConfig} (hc : GateReachable c) (turn : List GateLabel)
    (k : Cause) {s : SystemState} (hs : c.state.currentState = s)
    (htr : ∃ tr, c.trace = (.ext (.poll "IDLE") :: turn) ++ tr ∧ ∀ l ∈ tr, IsSignal l)
    (hpolled : polled turn = [])
    (hhistory : turn.foldl History.next ⟨.idle, none, ["IDLE"], []⟩
      = ⟨s, some k, ["IDLE"], [⟨some k, [], []⟩]⟩) (hne : s ≠ .idle) :
    ∃ c', GateReachable c' ∧ WellSampled c'.trace ∧ polled c'.trace = ["IDLE", stateString s]
      ∧ periods c'.trace = [⟨some k, [stateString s], []⟩] := by
  subst hs
  obtain ⟨tr, htr, hsignals⟩ := htr
  have hunseen (l : GateLabel) (hl : l ∈ tr) : Unseen l := unseen_of_signal (hsignals l hl)
  refine ⟨_, hc.tail (step_poll c), ?_⟩
  have hp : polled (c.trace ++ [.ext (.poll (stateString c.state.currentState))])
      = ["IDLE", stateString c.state.currentState] := by
    rw [polled_append, htr, polled_append, polled_of_unseen hunseen]
    change "IDLE" :: polled turn ++ [] ++ [_] = _
    rw [hpolled]
    rfl
  have hh : periods (c.trace ++ [.ext (.poll (stateString c.state.currentState))])
      = [⟨some k, [stateString c.state.currentState], []⟩] := by
    rw [periods, history_append_singleton, htr, history, List.foldl_append,
      foldl_next_of_unseen hunseen, List.foldl_cons]
    change (((turn.foldl History.next ⟨.idle, none, ["IDLE"], []⟩).see _).periods).reverse = _
    rw [hhistory, History.see]
    simp only [if_neg hne]
    rfl
  refine ⟨⟨?_, ?_, ?_⟩, hp, hh⟩
  · rw [Snap.log_trace, hp]
    simp [stateString]
  · rw [Snap.log_trace, hh]
    simp
  · rw [Snap.log_trace, hh]
    simp

theorem foldl_entryTurn (e : Echo) (now : ℤ) (x : History) :
    (entryTurn e now).foldl History.next x
      = History.write { x with announced := some .sensor } .entryDetected := by
  rw [entryTurn]
  simp only [List.foldl_append]
  rw [foldl_next_of_unseen unseen_opening]
  rfl

theorem foldl_exitTurn (t : ℤ) (e : Echo) (now : ℤ) (x : History) :
    (exitTurn t e now).foldl History.next x
      = (History.write { x with announced := some .switch } .exitRequested).write
        .exitVehicleDetected := by
  rw [exitTurn, exitOpening]
  simp only [List.foldl_append]
  rw [foldl_next_of_unseen unseen_opening]
  rfl

theorem polled_entryTurn (e : Echo) (now : ℤ) : polled (entryTurn e now) = [] := by
  rw [entryTurn, polled_append, polled_append, polled_append, polled_of_unseen unseen_opening]
  rfl

theorem polled_exitTurn (t : ℤ) (e : Echo) (now : ℤ) : polled (exitTurn t e now) = [] := by
  rw [exitTurn, exitOpening]
  simp only [polled_append, polled_of_unseen unseen_opening]
  rfl

/-! ## Results -/

/-- **One event per opening, if the opening is seen while it is new.** For a run that is polled in
every period, the bridge publishes the event of every period, in order and nothing else, if and only
if the first poll in each period sees the state with which it began. -/
theorem one_event_per_opening_iff {c : GateConfig} (hc : GateReachable c)
    (hs : WellSampled c.trace) :
    (bridge (polled c.trace)).events.map some
        = (periods c.trace).map (fun p ↦ p.cause.map Cause.message)
      ↔ ∀ p ∈ periods c.trace, p.Fresh := by
  have ha := accounts_of_always (orderly_of_reachable hc) (truthful_of_reachable hc).2
  rw [events_eq_reports ha hs]
  exact reports_eq_iff fun p hp ↦ ha.seen p (List.mem_reverse.mp hp)

/-- A vehicle enters and is seen at once. -/
theorem one_event_per_opening_entry : ∃ c, GateReachable c ∧ WellSampled c.trace
    ∧ polled c.trace = ["IDLE", "ENTRY_DETECTED"]
    ∧ (bridge (polled c.trace)).events.map some
      = (periods c.trace).map (fun p ↦ p.cause.map Cause.message) := by
  obtain ⟨c₁, h₁, -, -, hs₁, tr, htr, hsignals⟩ := turn_entry (c := polledOnce) (e := .ofCm 5) 0
    rfl rfl rfl (vehicleInRange_ofCm (by decide))
  obtain ⟨c, hc, hwell, hpolled, hperiods⟩ := polled_opening (polledOnce_reachable.trans h₁)
    (entryTurn (.ofCm 5) 0) .sensor hs₁ ⟨tr, htr, hsignals⟩ (polled_entryTurn _ _)
    (foldl_entryTurn _ _ _) (by decide)
  refine ⟨c, hc, hwell, hpolled, (one_event_per_opening_iff hc hwell).mpr ?_⟩
  rw [hperiods]
  simp [Period.Fresh]

/-- The exit button is pressed with a vehicle already at the sensor: one turn of the thread leads
through `STATE_EXIT_REQUESTED`, the first poll sees the state after it, and no event is
published. -/
theorem exit_goes_unreported : ∃ c, GateReachable c ∧ WellSampled c.trace
    ∧ polled c.trace = ["IDLE", "EXIT_VEHICLE_DETECTED"] ∧ (bridge (polled c.trace)).events = []
    ∧ ¬(bridge (polled c.trace)).events.map some
      = (periods c.trace).map (fun p ↦ p.cause.map Cause.message) := by
  let c₁ : GateConfig := ⟨polledOnce.toSnap.log
    { GateState.init with switchPressed := true } (.ext .press), fun _ ↦ none⟩
  have hpress : gateMachine.Step polledOnce c₁ := .ext (e := GateEvent.press) rfl
  obtain ⟨c₂, h₂, -, -, hs₂, tr, htr, hsignals⟩ := turn_exit_press (c := c₁) (e := .ofCm 5) 0 0
    rfl rfl rfl (vehicleInRange_ofCm (by decide))
  let turn : List GateLabel := [.ext .press] ++ exitTurn 0 (.ofCm 5) 0
  have hnone : polled turn = [] := by
    rw [polled_append, polled_exitTurn]
    rfl
  have hhistory : turn.foldl History.next ⟨.idle, none, ["IDLE"], []⟩
      = ⟨.exitVehicleDetected, some .switch, ["IDLE"], [⟨some .switch, [], []⟩]⟩ := by
    rw [List.foldl_append, foldl_exitTurn]
    rfl
  have htrace : c₂.trace = (.ext (.poll "IDLE") :: turn) ++ tr := by
    rw [htr]
    rfl
  obtain ⟨c, hc, hwell, hpolled, hperiods⟩ := polled_opening
    ((polledOnce_reachable.tail hpress).trans h₂) turn .switch hs₂ ⟨tr, htrace, hsignals⟩ hnone
    hhistory (by decide)
  have hevents : (bridge (polled c.trace)).events = [] := by
    rw [hpolled]
    decide
  refine ⟨c, hc, hwell, hpolled, hevents, ?_⟩
  rw [hevents, hperiods]
  simp

end ParkingService
