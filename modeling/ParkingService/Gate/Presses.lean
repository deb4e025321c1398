import ParkingService.Gate.Turns

/-!
# What becomes of a press

An accepted press sets `switch_pressed`. From there it is a token that the thread takes with an
exchange, and either spends, on an exit opening or on breaking off a close, or puts down in
`switch_reopen`, from where a later close spends it. Presses merge when a flag is already set; no
token is made from nothing.

The account is in two parts. Between the interrupt and the thread stands only the flag, and what
holds there holds of every operation, whatever the program: `FlagKept`. The rest is the
thread's own business and is followed through a view: how many tokens it has taken and spent, what
it holds in `switch_reopen`, and whether a token it has taken is still to be accounted for.
-/

namespace ParkingService

open Concurrency

/-! ## Tokens in the trace -/

/-- A press is spent: on an exit opening, or on a close that no vehicle has broken off. Their lines
tell of both; `steps_made` says that the movement has followed. -/
def SpendsPress : GateLabel → Prop
  | .op _ (.prInfo .exitOpen) _ => True
  | .op _ (.prInfo (.closeAborted d _)) _ => ¬VehicleInRange d
  | _ => False

/-- The thread takes a press out of `switch_pressed`. -/
def TakesPress : GateLabel → Prop
  | .op _ .xchgSwitchPressed r => r = true
  | _ => False

def IsPress : GateLabel → Prop
  | .ext .press => True
  | _ => False

instance : DecidablePred SpendsPress := fun l ↦ by
  unfold SpendsPress
  split <;> infer_instance

instance : DecidablePred TakesPress := fun l ↦ by
  unfold TakesPress
  split <;> infer_instance

instance : DecidablePred IsPress := fun l ↦ by
  unfold IsPress
  split <;> infer_instance

/-- Accepted presses. -/
def presses (tr : List GateLabel) : ℕ := tr.countP fun l ↦ IsPress l

/-- Presses the thread has taken. -/
def taken (tr : List GateLabel) : ℕ := tr.countP fun l ↦ TakesPress l

/-- Exit openings, and closes broken off by a button flag. -/
def spent (tr : List GateLabel) : ℕ := tr.countP fun l ↦ SpendsPress l

theorem not_spends_of_takes {l : GateLabel} (h : TakesPress l) : ¬SpendsPress l := by
  unfold TakesPress at h
  split at h
  · exact id
  · exact h.elim

theorem countP_append_singleton {P : GateLabel → Prop} [DecidablePred P] (tr : List GateLabel)
    (l : GateLabel) :
    (tr ++ [l]).countP (fun l ↦ P l) = tr.countP (fun l ↦ P l) + if P l then 1 else 0 := by
  by_cases hl : P l <;> simp [hl]

/-! ## From the interrupt to the thread -/

/-- No more presses are taken than there were, and a press that has not been taken is still in the
flag. -/
structure FlagKept (s : GateSnap) : Prop where
  count : taken s.trace + s.state.switchPressed.toNat ≤ presses s.trace
  kept : outstanding IsPress TakesPress s.trace = true → s.state.switchPressed = true

/-- A label that neither presses nor takes, and leaves the flag alone. -/
theorem FlagKept.log {s : GateSnap} {x : GateState} {l : GateLabel} (h : FlagKept s)
    (hx : x.switchPressed = s.state.switchPressed) (hp : ¬IsPress l) (ht : ¬TakesPress l) :
    FlagKept (s.log x l) where
  count := by
    have hcount := h.count
    simpa [taken, presses, hp, ht, hx] using hcount
  kept := by
    rw [Snap.log_trace, outstanding_append_of_not hp ht, Snap.log_state, hx]
    exact h.kept

theorem FlagKept.press {s : GateSnap} (h : FlagKept s) :
    FlagKept (s.log { s.state with switchPressed := true } (.ext .press)) where
  count := by
    have hcount := h.count
    have htaken : taken (s.trace ++ [.ext .press]) = taken s.trace :=
      countP_append_singleton _ _
    have hpress : presses (s.trace ++ [.ext .press]) = presses s.trace + 1 :=
      countP_append_singleton _ _
    rw [Snap.log_trace, Snap.log_state, htaken, hpress, Bool.toNat_true]
    omega
  kept _ := rfl

theorem FlagKept.take {s : GateSnap} (h : FlagKept s) (hflag : s.state.switchPressed = true) :
    FlagKept (s.log { s.state with switchPressed := false }
      (.op () .xchgSwitchPressed true)) where
  count := by
    have hcount := h.count
    have htaken : taken (s.trace ++ [.op () .xchgSwitchPressed true]) = taken s.trace + 1 :=
      countP_append_singleton _ _
    have hpress : presses (s.trace ++ [.op () .xchgSwitchPressed true]) = presses s.trace :=
      countP_append_singleton _ _
    rw [hflag, Bool.toNat_true] at hcount
    rw [Snap.log_trace, Snap.log_state, htaken, hpress, Bool.toNat_false]
    omega
  kept hout := by
    have htakes : TakesPress (.op () .xchgSwitchPressed true) := rfl
    rw [Snap.log_trace, outstanding_append_singleton, if_pos htakes] at hout
    cases hout

theorem flagKept_of_reachable {c : GateConfig} (hc : GateReachable c) : FlagKept c.toSnap := by
  refine Machine.Steps.invariant hc ⟨Nat.le_refl 0, fun h ↦ by cases h⟩ ?_
  intro s l x hs hstep
  cases l with
  | start t j =>
    obtain ⟨p, hentry⟩ := hstep
    obtain ⟨-, rfl⟩ : _ ∧ s.state = x := by simpa [gateMachine] using hentry
    exact hs.log rfl id id
  | op t o r =>
    obtain ⟨hans, rfl⟩ := GateOp.exec_eq_some.mp hstep
    cases o with
    | xchgSwitchPressed =>
      cases r with
      | true => exact hs.take hans.symm
      | false => exact hs.log hans id (by simp [TakesPress])
    | _ => exact hs.log rfl id id
  | ext e =>
    obtain ⟨rfl, rfl⟩ | ⟨rfl, rfl⟩ := GateEvent.exec_cases hstep
    · exact hs.press
    · exact hs.log rfl id id

/-! ## The thread's own account -/

/-- What the account follows: state, `switch_reopen`, tokens taken, tokens spent, and whether a
token that has been taken is owing. -/
structure Tally where
  state : SystemState
  reopen : Bool
  taken : ℕ
  spent : ℕ
  owing : Bool

namespace Tally

def ofSnap (s : GateSnap) : Tally :=
  ⟨s.state.currentState, s.state.switchReopen, ParkingService.taken s.trace,
    ParkingService.spent s.trace, outstanding TakesPress SpendsPress s.trace⟩

def step (o : GateOp) (r : o.Resp) (a : Tally) : Tally where
  state := match o with
    | .writeState s => s
    | _ => a.state
  reopen := match o with
    | .setSwitchReopen => true
    | .xchgSwitchReopen => false
    | _ => a.reopen
  taken := a.taken + if TakesPress (.op () o r) then 1 else 0
  spent := a.spent + if SpendsPress (.op () o r) then 1 else 0
  owing := if SpendsPress (.op () o r) then false else a.owing || TakesPress (.op () o r)

def guard (o : GateOp) (r : o.Resp) (a : Tally) : Prop :=
  match o, r with
  | .readState, r => r = a.state
  | .xchgSwitchReopen, r => r = a.reopen
  | _, _ => True

theorem ofSnap_log_of_not {s : GateSnap} {l : GateLabel} (hs : ¬SpendsPress l)
    (ht : ¬TakesPress l) {x : GateState} (hstate : x.currentState = s.state.currentState)
    (hreopen : x.switchReopen = s.state.switchReopen) : ofSnap (s.log x l) = ofSnap s := by
  have htaken : ParkingService.taken (s.trace ++ [l]) = ParkingService.taken s.trace :=
    (countP_append_singleton _ _).trans (by rw [if_neg ht]; rfl)
  have hspent : ParkingService.spent (s.trace ++ [l]) = ParkingService.spent s.trace :=
    (countP_append_singleton _ _).trans (by rw [if_neg hs]; rfl)
  rw [ofSnap, ofSnap, Snap.log_trace, Snap.log_state, htaken, hspent,
    outstanding_append_of_not ht hs, hstate, hreopen]

def view : View gateMachine Tally where
  assume _ _ := True
  proj := ofSnap
  guard := guard
  step := step
  proj_ext {s e x} _ h := by
    obtain ⟨rfl, rfl⟩ | ⟨rfl, rfl⟩ := GateEvent.exec_cases h <;>
      exact ofSnap_log_of_not id id rfl rfl
  proj_start {s j p x} h := by
    obtain ⟨-, rfl⟩ : _ ∧ s.state = x := by simpa [gateMachine] using h
    exact ofSnap_log_of_not id id rfl rfl
  proj_op {s o r x} _ h := by
    obtain ⟨hans, rfl⟩ := GateOp.exec_eq_some.mp h
    refine ⟨?_, ?_⟩
    · cases o <;> first | exact hans | trivial
    · have htaken := countP_append_singleton (P := TakesPress) s.trace (.op () o r)
      have hspent := countP_append_singleton (P := SpendsPress) s.trace (.op () o r)
      rw [ofSnap, Snap.log_trace, Snap.log_state, outstanding_append_singleton]
      unfold ParkingService.taken ParkingService.spent
      rw [htaken, hspent]
      cases o <;> rfl

/-- Nothing is spent or put down that was not taken. -/
def Sound (a : Tally) : Prop := a.spent + a.reopen.toNat ≤ a.taken

/-- A taken token that is not spent has been put down in `switch_reopen`. -/
def Kept (a : Tally) : Prop := a.owing = true → a.reopen = true

/-- The token just taken is in hand. -/
def InHand (a : Tally) : Prop := a.spent + a.reopen.toNat + 1 ≤ a.taken

/-- Between two uses of the button, in state `s`. -/
structure Ready (s : SystemState) (a : Tally) : Prop where
  state : a.state = s
  kept : a.Kept
  idle : s = .idle → a.reopen = false

/-- What holds at the top of the loop. -/
def AtTop (a : Tally) : Prop := Ready a.state a

/-- Operations that do not touch the account. -/
def Quiet : GateOp → Prop
  | .xchgSwitchPressed | .setSwitchReopen | .xchgSwitchReopen | .writeState _ => False
  | .prInfo .exitOpen | .prInfo (.closeAborted _ _) => False
  | _ => True

theorem step_of_quiet {o : GateOp} (ho : Quiet o) (r : o.Resp) (a : Tally) : step o r a = a := by
  have hs : ¬SpendsPress (.op () o r) := by
    cases o <;> first | exact id | (rename_i line; cases line <;> first | exact id | exact ho.elim)
  have ht : ¬TakesPress (.op () o r) := by
    cases o <;> first | exact id | exact ho.elim
  unfold step
  rw [if_neg hs, if_neg hs, if_neg ht, decide_eq_false ht, Bool.or_false]
  cases o <;> first | rfl | exact ho.elim

theorem quiet_program {A : Tally → Prop} {α : Type} {p : GateProg α} (hp : p.Uses Quiet) :
    view.Triple Sound A p fun _ ↦ A :=
  .still (fun _ ↦ step_of_quiet) hp

theorem quiet {A : Tally → Prop} {o : GateOp} (ho : Quiet o) :
    view.Triple Sound A (perform o) fun _ ↦ A :=
  quiet_program ⟨ho, fun _ ↦ trivial⟩

/-! ## Using the button -/

variable {s s' : SystemState}

/-- In state `s`, with a token in hand. -/
structure Holding (s : SystemState) (a : Tally) : Prop where
  state : a.state = s
  idle : s = .idle → a.reopen = false
  inHand : a.InHand

theorem Ready.atTop {a : Tally} (h : Ready s a) : AtTop a := by
  obtain rfl := h.state
  exact h

/-- A press that is taken is in hand; otherwise nothing has happened. -/
theorem switchWasPressed_rule {A B : Tally → Prop} (hB : ∀ a a', A a → a'.state = a.state →
    a'.reopen = a.reopen → a'.InHand → B a') :
    view.Triple Sound A switchWasPressed fun b a ↦ if b then B a else A a := by
  refine perform_rule fun a b ha hA _ ↦ ?_
  cases b with
  | true =>
    have hsound : a.spent + a.reopen.toNat ≤ a.taken := ha
    exact ⟨Nat.le_succ_of_le hsound, hB a _ hA rfl rfl (Nat.succ_le_succ hsound)⟩
  | false =>
    have hstep : step .xchgSwitchPressed false a = a := by
      cases a
      simp [step, TakesPress, SpendsPress]
    rw [show view.step .xchgSwitchPressed false a = a from hstep]
    exact ⟨ha, hA⟩

/-- So is a press that was put down, and afterwards `switch_reopen` is empty. -/
theorem switchReopenWasRequested_rule {A B : Tally → Prop} (hB : ∀ a a', A a →
    a'.state = a.state → a'.owing = a.owing → a'.reopen = false → a.reopen = true → a'.InHand →
    B a') :
    view.Triple Sound A switchReopenWasRequested fun b a ↦
      if b then B a else A a ∧ a.reopen = false := by
  refine perform_rule fun a b ha hA hb ↦ ?_
  obtain rfl : b = a.reopen := hb
  have hsound : a.spent + a.reopen.toNat ≤ a.taken := ha
  have hstep (r : Bool) : step .xchgSwitchReopen r a = { a with reopen := false } := by
    have hs : ¬SpendsPress (.op () .xchgSwitchReopen r) := id
    have ht : ¬TakesPress (.op () .xchgSwitchReopen r) := id
    simp [step, hs, ht]
  rw [show view.step .xchgSwitchReopen a.reopen a = _ from hstep a.reopen]
  refine ⟨Nat.le_trans (Nat.le_add_right _ _) hsound, ?_⟩
  cases hreopen : a.reopen with
  | true =>
    rw [hreopen] at hsound
    exact hB a _ hA rfl rfl rfl hreopen hsound
  | false =>
    have hsame : { a with reopen := false } = a := by rw [← hreopen]
    rw [hsame]
    exact ⟨hA, hreopen⟩

/-- The state may be written, to `STATE_IDLE` only with nothing put down. -/
theorem gateSetState_rule {A : Tally → Prop} (hA : ∀ a, A a → a.Kept)
    (hidle : s' = .idle → ∀ a, A a → a.reopen = false) :
    view.Triple Sound A (gateSetState s') fun _ ↦ Ready s' := by
  refine perform_rule fun a u ha hAa _ ↦ ?_
  have hs : ¬SpendsPress (.op () (.writeState s') u) := id
  have ht : ¬TakesPress (.op () (.writeState s') u) := id
  have hstep : step (.writeState s') u a = { a with state := s' } := by simp [step, hs, ht]
  rw [show view.step (.writeState s') u a = _ from hstep]
  exact ⟨ha, rfl, hA a hAa, fun h ↦ hidle h a hAa⟩

theorem onSwitchPress_rule : view.Triple Sound (Holding s) onSwitchPress fun _ ↦ AtTop := by
  refine .bind (R := fun r a ↦ r = s ∧ Holding s a) ?_ fun r ↦ .ite (fun hr ↦ ?_) fun hr ↦ ?_
  · refine perform_rule fun a r ha hA hr ↦ ?_
    rw [show view.step .readState r a = a from step_of_quiet (o := .readState) trivial r a]
    exact ⟨ha, Eq.trans hr hA.state, hA⟩
  -- the press is spent when the opening is announced, and else put down
  · refine .bind (R := fun _ ↦ Ready .idle) (perform_rule fun a u ha hA _ ↦ ?_) fun _ ↦ ?_
    · obtain ⟨rfl, hA⟩ := hA
      have hhand : a.spent + a.reopen.toNat + 1 ≤ a.taken := hA.inHand
      refine ⟨?_, hA.state.trans hr, fun h ↦ Bool.noConfusion h, fun _ ↦ hA.idle hr⟩
      change a.spent + 1 + a.reopen.toNat ≤ a.taken
      omega
    refine .bind (quiet_program (gateOpen_uses trivial)) fun _ ↦ ?_
    refine .bind (quiet (o := .ktime) trivial) fun now ↦ ?_
    refine .bind (quiet (o := .store .exitRequestTime now) trivial) fun _ ↦ ?_
    exact (gateSetState_rule (fun _ h ↦ h.kept) fun h ↦ by cases h).post fun _ _ _ h ↦ h.atTop
  · refine perform_rule fun a u ha hA _ ↦ ?_
    obtain ⟨rfl, hA⟩ := hA
    have hhand : a.spent + a.reopen.toNat + 1 ≤ a.taken := hA.inHand
    refine ⟨?_, rfl, fun _ ↦ rfl, fun h ↦ absurd (hA.state.symm.trans h) hr⟩
    change a.spent + 1 ≤ a.taken
    omega

/-! ## Closing -/

/-- A close is under way in state `s`; `switch_reopen` has been found empty by the first check,
which is where `looked` becomes true. -/
structure Closing (s : SystemState) (looked : Prop) (a : Tally) : Prop where
  state : a.state = s
  kept : a.Kept
  empty : looked → a.reopen = false

/-- The check has decided to break the close off, with distance `d`: because of a vehicle, or with a
token in hand. -/
structure Aborting (s : SystemState) (d : ℤ) (a : Tally) : Prop where
  state : a.state = s
  vehicle : VehicleInRange d → a.Kept
  button : ¬VehicleInRange d → a.InHand

theorem closeInterrupted_rule {looked : Prop} (d : ℤ) :
    view.Triple Sound (Closing s looked) (closeInterrupted d) fun b a ↦
      if b then Aborting s d a else Closing s True a := by
  refine .ite (fun hd ↦ .ret fun a _ h ↦ ?_) fun hd ↦ ?_
  · exact ⟨h.state, fun _ ↦ h.kept, fun hn ↦ absurd hd hn⟩
  refine .bind (switchWasPressed_rule (B := Aborting s d) fun a a' h hstate _ hhand ↦ ?_) fun b ↦ ?_
  · exact ⟨hstate.trans h.state, fun hn ↦ absurd hn hd, fun _ ↦ hhand⟩
  cases b with
  | true => exact .ret fun _ _ h ↦ h
  | false =>
    refine (switchReopenWasRequested_rule (B := Aborting s d)
      fun a a' h hstate _ _ _ hhand ↦ ?_).post fun b a _ h ↦ ?_
    · exact ⟨hstate.trans h.state, fun hn ↦ absurd hn hd, fun _ ↦ hhand⟩
    · cases b with
      | true => exact h
      | false => exact ⟨h.1.state, h.1.kept, fun _ ↦ h.2⟩

/-- Breaking a close off spends the token in hand, if that is why. -/
theorem closeAborted_rule (d : ℤ) (k : ℕ) :
    view.Triple Sound (Aborting s d) (prInfo (.closeAborted d k)) fun _ ↦ Closing s False := by
  refine perform_rule fun a u ha h _ ↦ ?_
  by_cases hd : VehicleInRange d
  · have hs : ¬SpendsPress (.op () (.prInfo (.closeAborted d k)) u) := fun hn ↦ hn hd
    have ht : ¬TakesPress (.op () (.prInfo (.closeAborted d k)) u) := id
    have hstep : step (.prInfo (.closeAborted d k)) u a = a := by simp [step, hs, ht]
    rw [show view.step (.prInfo (.closeAborted d k)) u a = a from hstep]
    exact ⟨ha, h.state, h.vehicle hd, False.elim⟩
  · have hs : SpendsPress (.op () (.prInfo (.closeAborted d k)) u) := hd
    have ht : ¬TakesPress (.op () (.prInfo (.closeAborted d k)) u) := id
    have hstep : step (.prInfo (.closeAborted d k)) u a
        = { a with spent := a.spent + 1, owing := false } := by simp [step, hs, ht]
    rw [show view.step (.prInfo (.closeAborted d k)) u a = _ from hstep]
    have hhand : a.spent + a.reopen.toNat + 1 ≤ a.taken := h.button hd
    refine ⟨?_, h.state, fun h ↦ Bool.noConfusion h, False.elim⟩
    change a.spent + 1 + a.reopen.toNat ≤ a.taken
    omega

/-- A close that gets through leaves nothing in `switch_reopen`. -/
theorem gateCloseInterruptible_rule :
    view.Triple Sound (Ready s) gateCloseInterruptible fun r ↦ Closing s (0 ≤ r) := by
  have houtline : CloseOutline view Sound (fun k ↦ Closing s (closeBatch ≤ k))
      (fun k ↦ Closing s (closeBatch < k)) (fun k _ ↦ Closing s (closeBatch < k))
      (fun _ ↦ Aborting s) (fun _ _ ↦ Closing s False) (fun r ↦ Closing s (0 ≤ r)) :=
    { step := fun k _ ↦ (quiet (o := .closingStep) trivial).post fun _ a _ h ↦
        ⟨h.state, h.kept, fun hk ↦ h.empty (by omega)⟩
      -- the only step where the bound moves is one with a check
      skip := fun k hle hdue a _ h ↦ ⟨h.state, h.kept, fun hk ↦ h.empty <| by
        rcases Nat.eq_or_lt_of_le hk with rfl | hlt
        · exact absurd ⟨rfl, by decide⟩ hdue
        · exact hlt⟩
      buzzer := fun _ x ↦ quiet (o := .gpioSet .buzzer x) trivial
      measure := fun _ ↦ quiet_program ⟨trivial, fun _ ↦ trivial⟩
      interrupted := fun k d ↦ (closeInterrupted_rule d).post fun b a _ h ↦ by
        cases b with
        | true => exact h
        | false => exact ⟨h.state, h.kept, fun _ ↦ h.empty trivial⟩
      report := fun k d ↦ closeAborted_rule d k
      silence := fun _ ↦ quiet (o := .gpioSet .buzzer 1) trivial
      undo := fun _ _ _ _ ↦ quiet (o := .openingStep) trivial
      reopened := fun _ _ ↦ (quiet (o := .deenergize) trivial).post fun _ a _ h ↦
        ⟨h.state, h.kept, fun h0 ↦ by omega⟩
      closed := (quiet (o := .deenergize) trivial).post fun _ a _ h ↦
        ⟨h.state, h.kept, fun _ ↦ h.empty (by decide)⟩ }
  refine .pre (fun a _ h ↦ ?_) houtline.close
  exact ⟨h.state, h.kept, fun h0 ↦ absurd h0 (by decide)⟩

/-! ## The branches -/

theorem quiet_of_minor {o : GateOp} (ho : o.Minor) : Quiet o := by
  cases o with
  | prInfo line => cases line <;> trivial
  | _ => trivial

theorem branchOutline : BranchOutline view Sound Ready (fun s ↦ Closing s True) AtTop where
  minor _ _ ho := quiet (quiet_of_minor ho)
  enter d now := by
    refine .bind (quiet (o := .prInfo (.entryOpen d)) trivial) fun _ ↦ ?_
    refine .bind (gateSetState_rule (fun _ h ↦ h.kept) fun h ↦ by cases h) fun _ ↦ ?_
    refine .bind (quiet_program (gateOpen_uses trivial)) fun _ ↦ ?_
    exact (quiet (o := .store .lastVehicleDetect now) trivial).post fun _ _ _ h ↦ h.atTop
  onward s s' h := gateSetState_rule (fun _ h ↦ h.kept) fun hidle ↦
    absurd hidle (SystemState.ne_idle_of_onward h).2
  close s hs := gateCloseInterruptible_rule.post fun r a _ h ↦ by
    split
    · exact ⟨h.state, h.kept, fun h0 ↦ absurd h0 hs⟩
    · exact ⟨h.state, h.kept, fun _ ↦ h.empty (by omega)⟩
  closed _ _ := (gateSetState_rule (fun _ h ↦ h.kept) fun _ _ h ↦ h.empty trivial).post
    fun _ _ _ h ↦ h.atTop
  top _ _ _ h := h.atTop

theorem readState_rule : view.Triple Sound AtTop gateGetState Ready := by
  refine perform_rule fun a r ha hA hr ↦ ?_
  rw [show view.step .readState r a = a from step_of_quiet (o := .readState) trivial r a]
  obtain rfl : r = a.state := hr
  exact ⟨ha, hA⟩

theorem turnOutline : TurnOutline view Sound AtTop (fun a ↦ Holding a.state a) AtTop
    Ready (fun s _ ↦ Ready s) (fun s _ _ ↦ Ready s) where
  take := switchWasPressed_rule fun a a' h hstate hreopen hhand ↦
    ⟨rfl, fun hidle ↦ hreopen.trans (h.idle (hstate.symm.trans hidle)), hhand⟩
  press a ha h := onSwitchPress_rule a ha h
  read := readState_rule
  measure _ := quiet_program ⟨trivial, fun _ ↦ trivial⟩
  clock _ _ := quiet (o := .ktime) trivial
  act := branchOutline.dispatch
  signal o ho a r ha hA _ := by
    have hquiet : Quiet o := by cases o <;> trivial
    rw [show view.step o r a = a from step_of_quiet hquiet r a]
    exact ⟨ha, hA⟩

theorem sound_of_reachable {c : GateConfig} (hc : GateReachable c) :
    Sound (ofSnap c.toSnap) ∧ (AtLoopTop c → AtTop (ofSnap c.toSnap)) :=
  turnOutline.reachable (W := view) (Nat.le_refl 0)
    ⟨rfl, fun h ↦ Bool.noConfusion h, fun _ ↦ rfl⟩ hc (always_of_forall fun _ _ ↦ trivial)

end Tally

/-! ## What the lines stand for -/

/-- The steps of the motor that a line announces: all of an opening, or those that undo a close. -/
def stepsDue : GateLabel → ℕ
  | .op _ (.prInfo .exitOpen) _ => stepperGateSteps
  | .op _ (.prInfo (.closeAborted _ stepsDone)) _ => stepsDone
  | _ => 0

def IsOpeningStep : GateLabel → Prop
  | .op _ .openingStep _ => True
  | _ => False

instance : DecidablePred IsOpeningStep := fun l ↦ by
  unfold IsOpeningStep
  split <;> infer_instance

/-- What has been announced, and not been made so far. -/
def owedNext (n : ℕ) (l : GateLabel) : ℕ := if IsOpeningStep l then n - 1 else n + stepsDue l

def stepsOwed (tr : List GateLabel) : ℕ := tr.foldl owedNext 0

theorem stepsOwed_append (tr : List GateLabel) (l : GateLabel) :
    stepsOwed (tr ++ [l]) = owedNext (stepsOwed tr) l :=
  List.foldl_append

/-- What is announced is owed until it has been made. -/
theorem stepsDue_le_of_owed (pre post : List GateLabel) (l : GateLabel) :
    stepsDue l ≤ stepsOwed (pre ++ l :: post) + post.countP fun l ↦ IsOpeningStep l := by
  induction post using List.reverseRecOn with
  | nil =>
    rw [stepsOwed_append, owedNext]
    split
    · have hnone : stepsDue l = 0 := by
        rcases l with _ | ⟨_, o, _⟩ | _ <;> first | rfl | cases o <;> first | rfl | contradiction
      omega
    · simp
  | append_singleton post l' ih =>
    rw [← List.cons_append, ← List.append_assoc, stepsOwed_append, countP_append_singleton,
      owedNext]
    split <;> omega

namespace Debt

def step (o : GateOp) (r : o.Resp) (n : ℕ) : ℕ := owedNext n (.op () o r)

def view : View gateMachine ℕ where
  assume _ _ := True
  proj s := stepsOwed s.trace
  guard _ _ _ := True
  step := step
  proj_ext _ _ := stepsOwed_append _ _
  proj_start _ := stepsOwed_append _ _
  proj_op _ _ := ⟨trivial, stepsOwed_append _ _⟩

/-- All that was announced has been made. -/
def Paid (n : ℕ) : Prop := n = 0

/-- Operations that neither announce steps nor make them. -/
def Quiet : GateOp → Prop
  | .openingStep | .prInfo .exitOpen | .prInfo (.closeAborted _ _) => False
  | _ => True

theorem step_of_quiet {o : GateOp} (ho : Quiet o) (r : o.Resp) (n : ℕ) : step o r n = n := by
  cases o with
  | prInfo line => cases line <;> first | exact ho.elim | rfl
  | _ => first | exact ho.elim | rfl

variable {A : ℕ → Prop}

theorem quiet_program {α : Type} {p : GateProg α} (hp : p.Uses Quiet) :
    view.Triple (fun _ ↦ True) A p fun _ ↦ A :=
  .still (fun _ ↦ step_of_quiet) hp

theorem quiet {o : GateOp} (ho : Quiet o) :
    view.Triple (fun _ ↦ True) A (perform o) fun _ ↦ A :=
  quiet_program ⟨ho, fun _ ↦ trivial⟩

/-- Steps are made, with `n` of them owed at first. -/
theorem step_rule (i n : ℕ) : view.Triple (fun _ ↦ True) (fun m ↦ m = n - i)
    (perform .openingStep) fun _ m ↦ m = n - (i + 1) :=
  perform_rule fun m _ _ hm _ ↦ ⟨trivial, by
    subst hm
    exact Nat.sub_sub n i 1⟩

theorem gateOpen_paid {n : ℕ} (hn : n ≤ stepperGateSteps) :
    view.Triple (fun _ ↦ True) (fun m ↦ m = n) gateOpen fun _ ↦ Paid := by
  have hsteps := View.Triple.times (W := view) (A := fun i m ↦ m = n - i) stepperGateSteps
    fun i _ ↦ step_rule i n
  exact hsteps.post fun _ m _ hm ↦ hm.trans (Nat.sub_eq_zero_of_le hn)

theorem gateCloseInterruptible_paid :
    view.Triple (fun _ ↦ True) Paid gateCloseInterruptible fun _ ↦ Paid := by
  have hflags (d : ℤ) : (closeInterrupted d).Uses Quiet :=
    (closeInterrupted_uses d).mono fun o ho ↦ by cases o <;> trivial
  have houtline : CloseOutline view (fun _ ↦ True) (fun _ ↦ Paid) (fun _ ↦ Paid)
      (fun _ _ ↦ Paid) (fun _ _ ↦ Paid) (fun k j n ↦ n = k - j) (fun _ ↦ Paid) :=
    { step := fun _ _ ↦ quiet (o := .closingStep) trivial
      skip := fun _ _ _ _ _ h ↦ h
      buzzer := fun _ x ↦ quiet (o := .gpioSet .buzzer x) trivial
      measure := fun _ ↦ quiet_program ⟨trivial, fun _ ↦ trivial⟩
      interrupted := fun _ d ↦ (quiet_program (hflags d)).post fun b _ _ h ↦ by cases b <;> exact h
      report := fun k d ↦ perform_rule fun n _ _ hn _ ↦ ⟨trivial, by
        obtain rfl : n = 0 := hn
        exact Nat.zero_add k⟩
      silence := fun _ ↦ quiet (o := .gpioSet .buzzer 1) trivial
      undo := fun k _ j _ ↦ step_rule j k
      reopened := fun k _ ↦ (quiet (o := .deenergize) trivial).post fun _ _ _ h ↦
        h.trans (Nat.sub_self k)
      closed := quiet (o := .deenergize) trivial }
  exact houtline.close

theorem onSwitchPress_paid : view.Triple (fun _ ↦ True) Paid onSwitchPress fun _ ↦ Paid := by
  refine .bind (quiet (o := .readState) trivial) fun s ↦ .ite (fun _ ↦ ?_) fun _ ↦ ?_
  · have hannounce : view.Triple (fun _ ↦ True) Paid (prInfo .exitOpen)
        fun _ n ↦ n = stepperGateSteps :=
      perform_rule fun n _ _ hn _ ↦ ⟨trivial, by
        obtain rfl : n = 0 := hn
        rfl⟩
    refine .bind hannounce fun _ ↦ .bind (gateOpen_paid (Nat.le_refl _)) fun _ ↦ ?_
    refine .bind (quiet (o := .ktime) trivial) fun now ↦ ?_
    refine .bind (quiet (o := .store .exitRequestTime now) trivial) fun _ ↦ ?_
    exact quiet (o := .writeState .exitRequested) trivial
  · exact quiet (o := .setSwitchReopen) trivial

theorem quiet_of_minor {o : GateOp} (ho : o.Minor) : Quiet o := by
  cases o with
  | prInfo line => cases line <;> first | exact ho.elim | trivial
  | _ => first | exact ho.elim | trivial

theorem branchOutline : BranchOutline view (fun _ ↦ True) (fun _ ↦ Paid) (fun _ ↦ Paid) Paid where
  minor _ _ ho := quiet (quiet_of_minor ho)
  enter d now := by
    refine .bind (quiet (o := .prInfo (.entryOpen d)) trivial) fun _ ↦ ?_
    refine .bind (quiet (o := .writeState .entryDetected) trivial) fun _ ↦ ?_
    refine .bind (gateOpen_paid (Nat.zero_le _)) fun _ ↦ ?_
    exact quiet (o := .store .lastVehicleDetect now) trivial
  onward _ s' _ := quiet (o := .writeState s') trivial
  close _ _ := gateCloseInterruptible_paid.post fun r _ _ h ↦ by split <;> exact h
  closed _ _ := quiet (o := .writeState .idle) trivial
  top _ _ _ h := h

theorem turnOutline : TurnOutline view (fun _ ↦ True) Paid Paid Paid (fun _ ↦ Paid)
    (fun _ _ ↦ Paid) (fun _ _ _ ↦ Paid) where
  take := (quiet (o := .xchgSwitchPressed) trivial).post fun b _ _ h ↦ by cases b <;> exact h
  press := onSwitchPress_paid
  read := quiet (o := .readState) trivial
  measure _ := quiet_program ⟨trivial, fun _ ↦ trivial⟩
  clock _ _ := quiet (o := .ktime) trivial
  act := branchOutline.dispatch
  signal o ho n r _ hn _ := by
    have hquiet : Quiet o := by cases o <;> first | exact ho.elim | trivial
    rw [show view.step o r n = n from step_of_quiet hquiet r n]
    exact ⟨trivial, hn⟩

end Debt

/-- **A line is as good as the movement.** At the top of the loop, an exit opening that was logged
has been made since, all of it, and a close that was broken off has been undone. -/
theorem steps_made {c : GateConfig} (hc : GateReachable c) (htop : AtLoopTop c)
    {pre post : List GateLabel} {l : GateLabel} (htr : c.trace = pre ++ l :: post) :
    stepsDue l ≤ post.countP fun l ↦ IsOpeningStep l := by
  have hpaid : stepsOwed c.trace = 0 :=
    (Debt.turnOutline.reachable (W := Debt.view) trivial rfl hc
      (always_of_forall fun _ _ ↦ trivial)).2 htop
  have hdue := stepsDue_le_of_owed pre post l
  rwa [← htr, hpaid, Nat.zero_add] at hdue

/-! ## Results -/

/-- **No press is lost, none is used twice, none is left over.** At every top of the loop after an
accepted press, a flag is up or the press has been spent since on an exit opening or on breaking
off a close; exit openings and closes broken off by the button together are never more than the
accepted presses; and in `STATE_IDLE` nothing is left in `switch_reopen`. -/
theorem press_accounting {c : GateConfig} (hc : GateReachable c) :
    (AtLoopTop c → ∀ pre post, c.trace = pre ++ .ext .press :: post →
        c.state.switchPressed = true ∨ c.state.switchReopen = true ∨ ∃ l ∈ post, SpendsPress l)
      ∧ spent c.trace ≤ presses c.trace
      ∧ (AtLoopTop c → c.state.currentState = .idle → c.state.switchReopen = false) := by
  obtain ⟨hsound, htop⟩ := Tally.sound_of_reachable hc
  have hflag := flagKept_of_reachable hc
  refine ⟨fun h pre post htr ↦ ?_, ?_, fun h ↦ (htop h).idle⟩
  · cases hpressed : c.state.switchPressed with
    | true => exact .inl rfl
    | false =>
      right
      have hnone : outstanding IsPress TakesPress (pre ++ .ext .press :: post) = false := by
        rw [← htr, ← Bool.not_eq_true]
        exact fun hout ↦ by simp [hflag.kept hout] at hpressed
      obtain ⟨l, hl, htakes⟩ := exists_discharge hnone trivial id
      obtain ⟨post₁, post₂, rfl⟩ := List.append_of_mem hl
      cases howing : outstanding TakesPress SpendsPress c.trace with
      | true => exact .inl ((htop h).kept howing)
      | false =>
        right
        rw [htr, ← List.cons_append, ← List.append_assoc] at howing
        obtain ⟨l', hl', hspends⟩ := exists_discharge howing htakes (not_spends_of_takes htakes)
        exact ⟨l', by simp [hl'], hspends⟩
  · have hcount := hflag.count
    have hspent : spent c.trace + c.state.switchReopen.toNat ≤ taken c.trace := hsound
    omega

/-- A press that opens the gate for a waiting vehicle. -/
theorem press_accounting_exit : ∃ c post, GateReachable c ∧ AtLoopTop c
    ∧ c.state.currentState = .exitVehicleDetected ∧ c.trace = .ext .press :: post
    ∧ (c.state.switchPressed = true ∨ c.state.switchReopen = true ∨ ∃ l ∈ post, SpendsPress l)
    ∧ spent c.trace ≤ presses c.trace := by
  obtain ⟨c, hc, htop, -, hstate, tr, htr, -⟩ :=
    exitVehicleDetected_reachable (vehicleInRange_ofCm (d := 5) (by decide)) 0 0
  obtain ⟨hkept, hcount, -⟩ := press_accounting hc
  exact ⟨c, _, hc, htop, hstate, htr, hkept htop [] _ htr, hcount⟩

end ParkingService
