import ParkingService.Gate.Turns

/-!
# What the buzzer and the two lamps say

At the end of every turn the thread drives the buzzer and the two lamps, one for vehicles coming in
and one for vehicles going out. They can be believed: the two lamps are never lit together, a lit
lamp is that of the latest movement (`lastMovement`), and at the top of the loop all three follow
from the state and from how many turns in a row have ended with the gate in use (`turnsInUse`), five
turns on and five turns off.

A branch of the `switch` does not drive the lamps, but it changes the state behind their back. What
keeps them honest is that a branch never leads from one direction to the other: between the two
there is always a turn that ends in `STATE_IDLE` and puts the lamps out. `Within` is the footprint
that says so.

While the gate is idle the thread sets `buzzer_phase` back to `9`, and the first turn of a movement
sounds the first beat. The initial value is `0`, so a movement that begins with the first turn of
all starts on the second beat, and is four turns on before it is off.
-/

namespace ParkingService

open Concurrency

/-! ## Directions -/

inductive Direction
  | inward
  | outward
  deriving DecidableEq, Repr

/-- The direction of the movement that the gate is open for. -/
def SystemState.direction : SystemState → Option Direction
  | .idle => none
  | .entryDetected | .entryWaiting => some .inward
  | .exitRequested | .exitVehicleDetected | .exitVehicleWaiting => some .outward

def Direction.led : Direction → OutPin
  | .inward => .entryLed
  | .outward => .exitLed

theorem SystemState.direction_eq_none {s : SystemState} : s.direction = none ↔ s = .idle := by
  cases s <;> decide

/-- The two lamps show `shown`. -/
def Shows (level : OutPin → ℤ) (shown : Option Direction) : Prop :=
  ∀ d : Direction, level d.led = if shown = some d then 1 else 0

/-! ## Beats -/

/-- The state that was read last, for how many turns in a row the gate has been in use at the end,
whether there has been a turn that ended idle, and the direction of the latest movement. -/
structure BeatLog where
  read : SystemState
  turns : ℕ
  rested : Bool
  moved : Option Direction

namespace BeatLog

def init : BeatLog := ⟨.idle, 0, false, none⟩

def next (g : BeatLog) : GateLabel → BeatLog
  | .op _ .readState s => { g with read := s }
  | .op _ (.writeState s) _ => { g with moved := s.direction.or g.moved }
  | .op _ (.store .buzzerPhase _) _ =>
    if g.read = .idle then { g with turns := 0, rested := true }
    else { g with turns := g.turns + 1 }
  | _ => g

def of (tr : List GateLabel) : BeatLog := tr.foldl next init

theorem of_append (tr : List GateLabel) (l : GateLabel) : of (tr ++ [l]) = (of tr).next l :=
  List.foldl_append

/-- The beat of the latest turn. -/
def beat (g : BeatLog) : ℕ := g.turns + if g.rested then 9 else 0

end BeatLog

/-- For how many turns in a row the gate has been in use at the end. -/
def turnsInUse (tr : List GateLabel) : ℕ := (BeatLog.of tr).turns

/-- The beat of the latest turn. -/
def beat (tr : List GateLabel) : ℕ := (BeatLog.of tr).beat

/-- A turn has ended with the gate idle. -/
def hasRested (tr : List GateLabel) : Bool := (BeatLog.of tr).rested

/-- The direction of the movement that is going on, or of the one that ended last. -/
def lastMovement (tr : List GateLabel) : Option Direction := (BeatLog.of tr).moved

/-- What the lamps show on this beat. -/
def shownOn (s : SystemState) (beat : ℕ) : Option Direction :=
  if beat % 10 < 5 then s.direction else none

/-- The levels of the three pins on this beat. -/
def signalLevels (s : SystemState) (beat : ℕ) : OutPin → ℤ
  | .buzzer => if shownOn s beat = none then 1 else 0
  | .entryLed => if shownOn s beat = some .inward then 1 else 0
  | .exitLed => if shownOn s beat = some .outward then 1 else 0

theorem shows_signalLevels (s : SystemState) (beat : ℕ) :
    Shows (signalLevels s beat) (shownOn s beat) := by
  intro d
  cases d <;> rfl

/-! ## The view -/

structure Panel where
  state : SystemState
  level : OutPin → ℤ
  phase : ℤ
  log : BeatLog

namespace Panel

def ofSnap (s : GateSnap) : Panel :=
  ⟨s.state.currentState, s.state.level, s.state.var .buzzerPhase, .of s.trace⟩

def step (o : GateOp) (r : o.Resp) (v : Panel) : Panel where
  state := match o with
    | .writeState s => s
    | _ => v.state
  level := match o with
    | .gpioSet pin x => Function.update v.level pin x
    | _ => v.level
  phase := match o with
    | .store .buzzerPhase x => x
    | _ => v.phase
  log := v.log.next (.op () o r)

def guard (o : GateOp) (r : o.Resp) (v : Panel) : Prop :=
  match o, r with
  | .readState, r => r = v.state
  | .load .buzzerPhase, r => r = v.phase
  | _, _ => True

def view : View gateMachine Panel where
  assume _ _ := True
  proj := ofSnap
  guard := guard
  step := step
  proj_ext {s e x} _ h := by
    obtain ⟨rfl, rfl⟩ | ⟨rfl, rfl⟩ := GateEvent.exec_cases h <;>
      simp [ofSnap, BeatLog.of_append, BeatLog.next]
  proj_start {s j p x} h := by
    obtain ⟨-, rfl⟩ : _ ∧ s.state = x := by simpa [gateMachine] using h
    simp [ofSnap, BeatLog.of_append, BeatLog.next]
  proj_op {s o r x} _ h := by
    obtain ⟨hans, rfl⟩ := GateOp.exec_eq_some.mp h
    refine ⟨?_, ?_⟩
    · cases o with
      | load v => cases v <;> first | exact hans | trivial
      | _ => first | exact hans | trivial
    · cases o with
      | store v t => cases v <;> simp [ofSnap, step, BeatLog.of_append, GateOp.effect]
      | _ => simp [ofSnap, step, BeatLog.of_append, GateOp.effect, GateState.openingStep,
          GateState.closingStep]

/-! ## The invariant -/

/-- While the gate is in use, the movement is the one of its state. -/
def Tracks (v : Panel) : Prop := v.state = .idle ∨ v.log.moved = v.state.direction

/-- What the lamps show belongs to the latest movement. -/
def Honest (v : Panel) : Prop :=
  Tracks v ∧ ∃ shown, Shows v.level shown ∧ (shown = none ∨ v.log.moved = shown)

/-- `buzzer_phase` is the beat. -/
def Ticks (v : Panel) : Prop := v.phase = (v.log.beat % 10 : ℕ)

/-- In a turn that has read the state as `s`. -/
def Under (s : SystemState) (v : Panel) : Prop :=
  Ticks v ∧ Tracks v ∧ ∃ shown, Shows v.level shown
    ∧ (shown = none ∨ s.direction = shown ∧ v.log.moved = shown)

/-- When the button has been dealt with. -/
def Settled (v : Panel) : Prop := Under v.state v

/-- At the top of the loop. -/
structure AtTop (v : Panel) : Prop where
  ticks : Ticks v
  tracks : Tracks v
  level : v.level = signalLevels v.state v.log.beat
  turns : v.log.turns = 0 ↔ v.state = .idle

theorem Under.honest {s : SystemState} {v : Panel} (h : Under s v) : Honest v := by
  obtain ⟨-, htracks, shown, hshows, hs⟩ := h
  exact ⟨htracks, shown, hshows, hs.imp_right And.right⟩

theorem AtTop.settled {v : Panel} (h : AtTop v) : Settled v := by
  refine ⟨h.ticks, h.tracks, shownOn v.state v.log.beat, ?_, ?_⟩
  · rw [h.level]
    exact shows_signalLevels _ _
  · unfold shownOn
    split
    · exact h.tracks.imp SystemState.direction_eq_none.mpr fun hmoved ↦ ⟨rfl, hmoved⟩
    · exact .inl rfl

/-- An idle gate shows nothing, whatever state it goes to next. -/
theorem Under.settled_of_idle {v : Panel} (h : Under .idle v) : Settled v := by
  obtain ⟨hticks, htracks, shown, hshows, hs⟩ := h
  have hnone : shown = none := hs.elim id fun hd ↦ hd.1.symm
  exact ⟨hticks, htracks, shown, hshows, .inl hnone⟩

/-- Driving the pins is no movement. -/
theorem moved_store (w : GateVar) (t : ℤ) (r : Unit) (v : Panel) :
    (step (.store w t) r v).log.moved = v.log.moved := by
  cases w <;> simp only [step, BeatLog.next]
  split <;> rfl

/-- Whatever state is written, the movement is its own from then on. -/
theorem Tracks.step {v : Panel} (h : Tracks v) (o : GateOp) (r : o.Resp) : Tracks (step o r v) := by
  cases o with
  | writeState s =>
    change s = .idle ∨ s.direction.or v.log.moved = s.direction
    cases hs : s.direction with
    | none => exact .inl (SystemState.direction_eq_none.mp hs)
    | some d => exact .inr rfl
  | store w t => exact h.imp id fun hmoved ↦ (moved_store w t r v).trans hmoved
  | _ => exact h

theorem Honest.store {v : Panel} (h : Honest v) (w : GateVar) (t : ℤ) (r : Unit) :
    Honest (Panel.step (.store w t) r v) := by
  obtain ⟨htracks, shown, hshows, hshown⟩ := h
  exact ⟨htracks.step (.store w t) r, shown, hshows, hshown.imp id (moved_store w t r v).trans⟩

/-! ## The branches -/

/-- What may happen in a turn that has read the state as `s`, before the signals. -/
def Within (s : SystemState) : GateOp → Prop
  | .gpioSet pin _ => pin = .buzzer
  | .store v _ => v ≠ .buzzerPhase
  | .writeState s' => s = .idle ∨ s' = .idle ∨ s'.direction = s.direction
  | _ => True

variable {s s' : SystemState} {v x : Panel} {shown : Option Direction}

theorem Under.step {o : GateOp} (ho : Within s o) (r : o.Resp) (h : Under s v) :
    Under s (step o r v) := by
  obtain ⟨hticks, htracks, shown, hshows, hs⟩ := h
  refine ⟨?_, htracks.step o r, shown, ?_, ?_⟩
  · cases o with
    | store w t => cases w <;> first | exact hticks | exact absurd rfl ho
    | _ => exact hticks
  · cases o with
    | gpioSet pin t =>
      obtain rfl : pin = .buzzer := ho
      intro d
      rw [← hshows d]
      exact Function.update_of_ne (by cases d <;> decide) _ _
    | _ => exact hshows
  · rcases hs with hnone | ⟨hdir, hmoved⟩
    · exact .inl hnone
    · cases o with
      | writeState s' =>
        rcases ho with rfl | rfl | hsame
        · exact .inl hdir.symm
        · exact .inr ⟨hdir, hmoved⟩
        · refine .inr ⟨hdir, ?_⟩
          change s'.direction.or v.log.moved = shown
          rw [hsame, hdir, hmoved, Option.or_self]
      | store w t => exact .inr ⟨hdir, (moved_store w t r v).trans hmoved⟩
      | _ => exact .inr ⟨hdir, hmoved⟩

theorem within_program {α : Type} {p : GateProg α} (hp : p.Uses (Within s)) :
    view.Triple Honest (Under s) p fun _ ↦ Under s := by
  refine .frame hp fun o ho v r _ hv _ ↦ ?_
  have hstep : Under s (view.step o r v) := hv.step ho r
  exact ⟨hstep.honest, hstep⟩

theorem within_call {o : GateOp} (ho : Within s o) : (perform o).Uses (Within s) :=
  ⟨ho, fun _ ↦ trivial⟩

theorem store_within {w : GateVar} (hw : w ≠ .buzzerPhase) (t : ℤ) :
    (perform (.store w t)).Uses (Within s) :=
  within_call (o := .store w t) hw

theorem moveOn_within (line : LogLine) (hs' : s'.direction = s.direction) (now : ℤ) :
    (moveOn line s' now).Uses (Within s) := by
  refine Prog.uses_bind (within_call (o := .prInfo line) trivial) fun _ ↦ ?_
  refine Prog.uses_bind (store_within (w := .lastVehicleDetect) (by decide) now) fun _ ↦ ?_
  exact within_call (o := .writeState s') (.inr (.inr hs'))

theorem closeOr_within (line : LogLine) {p : GateProg Unit} (hp : p.Uses (Within s)) :
    (closeOr line p).Uses (Within s) := by
  have hclose : gateCloseInterruptible.Uses (Within s) :=
    (closeLoop_uses _ _ _).mono fun o ho ↦ by cases o <;> trivial
  refine Prog.uses_bind (within_call (o := .prInfo line) trivial) fun _ ↦ ?_
  refine Prog.uses_bind hclose fun r ↦ Prog.uses_ite (fun _ ↦ hp) fun _ ↦ ?_
  exact within_call (o := .writeState .idle) (.inr (.inl rfl))

theorem elapsedSince_within (w : GateVar) (now : ℤ) : (elapsedSince w now).Uses (Within s) :=
  Prog.uses_bind (within_call (o := .load w) trivial) fun _ ↦ trivial

theorem whenWaiting_within (closing reopened : LogLine) (back : ℤ → LogLine)
    (hs' : s'.direction = s.direction) (d now : ℤ) :
    (whenWaiting closing reopened back s' d now).Uses (Within s) := by
  refine Prog.uses_bind (elapsedSince_within _ now) fun _ ↦ Prog.uses_ite (fun _ ↦ ?_) fun _ ↦
    Prog.uses_ite (fun _ ↦ moveOn_within (back d) hs' now) fun _ ↦ trivial
  refine closeOr_within closing ?_
  refine Prog.uses_bind (within_call (o := .prInfo reopened) trivial) fun _ ↦ ?_
  refine Prog.uses_bind (within_call (o := .ktime) trivial) fun t ↦ ?_
  refine Prog.uses_bind (store_within (w := .lastVehicleDetect) (by decide) t) fun _ ↦ ?_
  exact within_call (o := .writeState s') (.inr (.inr hs'))

theorem whenIdle_within (d now : ℤ) : (whenIdle d now).Uses (Within .idle) := by
  refine Prog.uses_ite (fun _ ↦ ?_) fun _ ↦ trivial
  refine Prog.uses_bind (within_call (o := .prInfo (.entryOpen d)) trivial) fun _ ↦ ?_
  refine Prog.uses_bind (within_call (o := .writeState .entryDetected) (.inl rfl)) fun _ ↦ ?_
  refine Prog.uses_bind (gateOpen_uses trivial) fun _ ↦ ?_
  exact store_within (w := .lastVehicleDetect) (by decide) now

theorem whenExitRequested_within (d now : ℤ) :
    (whenExitRequested d now).Uses (Within .exitRequested) := by
  refine Prog.uses_ite (fun _ ↦ ?_) fun _ ↦ ?_
  · refine Prog.uses_bind (within_call (o := .prInfo (.exitVehicle d)) trivial) fun _ ↦ ?_
    refine Prog.uses_bind
      (within_call (o := .writeState .exitVehicleDetected) (.inr (.inr rfl))) fun _ ↦ ?_
    exact store_within (w := .lastVehicleDetect) (by decide) now
  refine Prog.uses_bind (elapsedSince_within _ now) fun _ ↦
    Prog.uses_ite (fun _ ↦ closeOr_within _ ?_) fun _ ↦ trivial
  refine Prog.uses_bind (within_call (o := .prInfo .exitTimeoutReopened) trivial) fun _ ↦ ?_
  refine Prog.uses_bind (within_call (o := .ktime) trivial) fun t ↦ ?_
  refine Prog.uses_bind (store_within (w := .lastVehicleDetect) (by decide) t) fun _ ↦ ?_
  refine Prog.uses_bind (store_within (w := .exitRequestTime) (by decide) t) fun _ ↦ ?_
  exact within_call (o := .writeState .exitRequested) (.inr (.inr rfl))

/-- No branch leads from one direction to the other. -/
theorem dispatch_within (s : SystemState) (d now : ℤ) : (dispatch s d now).Uses (Within s) := by
  cases s with
  | idle => exact whenIdle_within d now
  | entryDetected | exitVehicleDetected =>
    refine Prog.uses_ite (fun _ ↦ ?_) fun _ ↦ Prog.uses_ite (fun _ ↦ ?_) fun _ ↦ trivial
    · exact store_within (w := .lastVehicleDetect) (by decide) now
    · exact moveOn_within _ (by decide) now
  | entryWaiting | exitVehicleWaiting => exact whenWaiting_within _ _ _ (by decide) d now
  | exitRequested => exact whenExitRequested_within d now

/-! ## The button -/

theorem readState_rule : view.Triple Honest Settled gateGetState fun s v ↦
    v.state = s ∧ Under s v := by
  refine perform_rule fun v r hv hA hr ↦ ?_
  obtain rfl : r = v.state := hr
  exact ⟨hv, rfl, hA⟩

theorem onSwitchPress_settled : view.Triple Honest Settled onSwitchPress fun _ ↦ Settled := by
  refine .bind readState_rule fun s ↦ .ite (fun hs ↦ ?_) fun _ ↦ ?_
  · subst hs
    refine .pre (fun _ _ h ↦ h.2) (.post (fun _ _ _ h ↦ h.settled_of_idle) (within_program ?_))
    refine Prog.uses_bind (within_call (o := .prInfo .exitOpen) trivial) fun _ ↦ ?_
    refine Prog.uses_bind (gateOpen_uses trivial) fun _ ↦ ?_
    refine Prog.uses_bind (within_call (o := .ktime) trivial) fun now ↦ ?_
    refine Prog.uses_bind (store_within (w := .exitRequestTime) (by decide) now) fun _ ↦ ?_
    exact within_call (o := .writeState .exitRequested) (.inl rfl)
  · refine perform_rule fun v r hv hA _ ↦ ⟨hv, ?_⟩
    obtain ⟨rfl, hunder⟩ := hA
    exact hunder

theorem pollSwitch_settled : view.Triple Honest AtTop pollSwitch fun _ ↦ Settled := by
  refine .bind (R := fun _ ↦ Settled) ?_ fun b ↦ ?_
  · exact perform_rule fun v r hv htop _ ↦ ⟨hv, htop.settled⟩
  · cases b with
    | true => exact onSwitchPress_settled
    | false => exact .ret fun _ _ h ↦ h

/-! ## Driving the pins -/

/-- Only the levels differ from `x`: the buzzer has level `b`, and the lamps show `shown`. -/
def Lamps (x : Panel) (b : ℤ) (shown : Option Direction) (v : Panel) : Prop :=
  ∃ level, v = { x with level := level } ∧ Shows level shown ∧ level .buzzer = b

/-- What the lamps of `x` may show. -/
def Fits (x : Panel) (shown : Option Direction) : Prop :=
  Tracks x ∧ (shown = none ∨ x.log.moved = shown)

theorem Lamps.honest {b : ℤ} (h : Lamps x b shown v) (hfits : Fits x shown) : Honest v := by
  obtain ⟨level, rfl, hshows, -⟩ := h
  exact ⟨hfits.1, shown, hshows, hfits.2⟩

theorem buzzer_rule (b : ℤ) (hshows : Shows x.level shown) (hfits : Fits x shown) :
    view.Triple Honest (fun v ↦ v = x) (perform (.gpioSet .buzzer b))
      fun _ ↦ Lamps x b shown := by
  refine perform_rule fun v r _ hv _ ↦ ?_
  subst hv
  have hlamps : Lamps v b shown (view.step (.gpioSet .buzzer b) r v) := by
    refine ⟨_, rfl, fun d ↦ ?_, Function.update_self _ _ _⟩
    rw [← hshows d]
    exact Function.update_of_ne (by cases d <;> decide) _ _
  exact ⟨hlamps.honest hfits, hlamps⟩

/-- One lamp is set. -/
theorem led_rule {b t : ℤ} {d : Direction} {shown' : Option Direction}
    (hset : t = if shown' = some d then 1 else 0)
    (hkeep : ∀ d', d' ≠ d → (shown' = some d' ↔ shown = some d')) (hfits : Fits x shown') :
    view.Triple Honest (Lamps x b shown) (perform (.gpioSet d.led t))
      fun _ ↦ Lamps x b shown' := by
  refine perform_rule fun v r _ hv _ ↦ ?_
  obtain ⟨level, rfl, hshows, hb⟩ := hv
  have hlamps : Lamps x b shown' (view.step (.gpioSet d.led t) r { x with level := level }) := by
    refine ⟨Function.update level d.led t, rfl, fun d' ↦ ?_, ?_⟩
    · by_cases hd : d' = d
      · rw [hd, Function.update_self, hset]
      · rw [Function.update_of_ne (by revert hd; cases d <;> cases d' <;> decide), hshows d']
        simp only [hkeep d' hd]
    · rw [Function.update_of_ne (by cases d <;> decide), hb]
  exact ⟨hlamps.honest hfits, hlamps⟩

/-- The lamps go out. -/
theorem off_rule (hx : Honest x) :
    view.Triple Honest (fun v ↦ v = x) (do
      buzzerOff
      entryLedSet false
      exitLedSet false) fun _ ↦ Lamps x 1 none := by
  obtain ⟨htracks, shown, hshows, hshown⟩ := hx
  have hfits : Fits x shown := ⟨htracks, hshown⟩
  refine .bind (buzzer_rule 1 hshows hfits) fun _ ↦ ?_
  refine .bind (R := fun _ ↦ Lamps x 1 (if shown = some .inward then none else shown)) ?_
    fun _ ↦ ?_
  · refine led_rule (d := .inward) (by cases shown <;> simp) (fun d hd ↦ ?_) ?_
    · cases d with
      | inward => exact absurd rfl hd
      | outward => split <;> simp_all
    · split
      · exact ⟨htracks, .inl rfl⟩
      · exact hfits
  · refine led_rule (d := .outward) rfl (fun d hd ↦ ?_) ⟨htracks, .inl rfl⟩
    cases d with
    | inward => split <;> simp_all
    | outward => exact absurd rfl hd

/-- The lamp of the direction is lit; the other one cannot be. -/
theorem on_rule {d : Direction} (hd : x.state.direction = some d) (hx : Honest x) :
    view.Triple Honest (fun v ↦ v = x) (do
      buzzerOn
      entryLedSet (decide (d = .inward))
      exitLedSet (!decide (d = .inward))) fun _ ↦ Lamps x 0 (some d) := by
  obtain ⟨htracks, shown, hshows, hshown⟩ := hx
  have hmoved : x.log.moved = some d := by
    refine (htracks.resolve_left fun hidle ↦ ?_).trans hd
    rw [hidle] at hd
    cases hd
  have hmine : shown = none ∨ shown = some d := hshown.imp id fun h ↦ h.symm.trans hmoved
  have hfits : Fits x shown := ⟨htracks, hshown⟩
  have hfits' : Fits x (some d) := ⟨htracks, .inr hmoved⟩
  refine .bind (buzzer_rule 0 hshows hfits) fun _ ↦ ?_
  cases d with
  | inward =>
    refine .bind (R := fun _ ↦ Lamps x 0 (some .inward)) ?_ fun _ ↦ ?_
    · refine led_rule (d := .inward) rfl (fun d hd' ↦ ?_) hfits'
      rcases hmine with rfl | rfl <;> simp [Ne.symm hd']
    · exact led_rule (d := .outward) rfl (fun _ _ ↦ Iff.rfl) hfits'
  | outward =>
    refine .bind (R := fun _ ↦ Lamps x 0 shown) ?_ fun _ ↦ ?_
    · refine led_rule (d := .inward) ?_ (fun _ _ ↦ Iff.rfl) hfits
      rcases hmine with rfl | rfl <;> rfl
    · refine led_rule (d := .outward) rfl (fun d hd' ↦ ?_) hfits'
      rcases hmine with rfl | rfl <;> simp [Ne.symm hd']

/-! ## The end of a turn -/

/-- The phase has been moved on, and the pins are still to be driven. -/
structure Counted (s : SystemState) (v : Panel) : Prop where
  state : v.state = s
  ticks : Ticks v
  tracks : Tracks v
  turns : v.log.turns = 0 ↔ v.state = .idle

/-- The state that the signals go by has been read. -/
structure Ready (s : SystemState) (v : Panel) : Prop where
  state : v.state = s
  read : v.log.read = s
  ticks : Ticks v
  tracks : Tracks v

theorem Lamps.atTop {b : ℤ} (h : Lamps x b shown v) (hx : Counted s x)
    (hshown : shown = shownOn s x.log.beat) (hb : b = if shown = none then 1 else 0) :
    AtTop v := by
  obtain ⟨level, rfl, hshows, hlevel⟩ := h
  refine ⟨hx.ticks, hx.tracks, funext fun pin ↦ ?_, hx.turns⟩
  change level pin = signalLevels x.state x.log.beat pin
  rw [hx.state]
  cases pin with
  | buzzer => rw [hlevel, hb, hshown, signalLevels]
  | entryLed => rw [show level .entryLed = _ from hshows .inward, hshown, signalLevels]
  | exitLed => rw [show level .exitLed = _ from hshows .outward, hshown, signalLevels]

theorem log_step (o : GateOp) (r : o.Resp) (v : Panel) :
    (view.step o r v).log = v.log.next (.op () o r) := rfl

/-- The phase of an active turn. -/
theorem countActive_rule (hs : s ≠ .idle) (phase : ℤ) :
    view.Triple Honest (fun v ↦ Ready s v ∧ v.phase = phase)
      (perform (.store .buzzerPhase ((phase + 1).tmod 10)))
      fun _ v ↦ Counted s v ∧ v.phase = (phase + 1).tmod 10 := by
  refine perform_rule fun v r hv hA _ ↦ ?_
  obtain ⟨⟨rfl, hread, hticks, htracks⟩, rfl⟩ := hA
  have hlog : (view.step (.store .buzzerPhase ((v.phase + 1).tmod 10)) r v).log
      = { v.log with turns := v.log.turns + 1 } := by
    rw [log_step, BeatLog.next, if_neg (hread ▸ hs)]
  refine ⟨hv.store _ _ r, ⟨rfl, ?_, htracks.step _ r, ?_⟩, rfl⟩
  · unfold Ticks at hticks ⊢
    rw [hlog]
    change (v.phase + 1).tmod 10 = _
    rw [hticks, Int.tmod_eq_emod_of_nonneg (by omega)]
    simp only [BeatLog.beat]
    omega
  · rw [hlog]
    exact iff_of_false (Nat.succ_ne_zero _) hs

theorem countIdle_rule :
    view.Triple Honest (Ready .idle) (perform (.store .buzzerPhase 9)) fun _ ↦ Counted .idle := by
  refine perform_rule fun v r hv hA _ ↦ ?_
  obtain ⟨hstate, hread, -, htracks⟩ := hA
  have hlog : (view.step (.store .buzzerPhase 9) r v).log
      = { v.log with turns := 0, rested := true } := by
    rw [log_step, BeatLog.next, if_pos hread]
  refine ⟨hv.store _ _ r, hstate, ?_, htracks.step _ r, ?_⟩
  · unfold Ticks
    rw [hlog]
    rfl
  · rw [hlog]
    exact iff_of_true rfl hstate

theorem isEntry_eq {d : Direction} (h : s.direction = some d) :
    decide (s = .entryDetected ∨ s = .entryWaiting) = decide (d = .inward) := by
  cases s <;> cases d <;> first | rfl | cases h

theorem signalActive_atTop (hs : s ≠ .idle) :
    view.Triple Honest (Ready s) (signalActive s) fun _ ↦ AtTop := by
  refine .bind (R := fun phase v ↦ Ready s v ∧ v.phase = phase) ?_ fun phase ↦ ?_
  · exact perform_rule fun v r hv hA hr ↦
      ⟨hv, ⟨hA.state, hA.read, hA.ticks, hA.tracks⟩, hr.symm⟩
  refine .bind (countActive_rule hs phase) fun _ x hx hA ↦ ?_
  obtain ⟨hcounted, hphase⟩ := hA
  have hbeat : (phase + 1).tmod 10 < 5 ↔ x.log.beat % 10 < 5 := by
    rw [← hphase, show x.phase = _ from hcounted.ticks]
    exact Int.ofNat_lt
  obtain ⟨d, hd⟩ : ∃ d, s.direction = some d :=
    Option.ne_none_iff_exists'.mp fun h ↦ hs (SystemState.direction_eq_none.mp h)
  refine View.Triple.ite (A := fun v ↦ v = x) (fun hon ↦ ?_) (fun hoff ↦ ?_) x hx rfl
  · rw [isEntry_eq hd]
    refine (on_rule (hcounted.state ▸ hd) hx).post fun _ v _ h ↦ h.atTop hcounted ?_ rfl
    rw [shownOn, if_pos (hbeat.mp hon), hd]
  · refine (off_rule hx).post fun _ v _ h ↦ h.atTop hcounted ?_ rfl
    rw [shownOn, if_neg fun h ↦ hoff (hbeat.mpr h)]

theorem signalIdle_atTop :
    view.Triple Honest (Ready .idle) signalIdle fun _ ↦ AtTop := by
  refine .bind countIdle_rule fun _ x hx hcounted ↦ ?_
  refine (off_rule hx).post (fun _ v _ h ↦ h.atTop hcounted ?_ rfl) x hx rfl
  rw [shownOn, SystemState.direction, ite_self]

/-- On which turns the buzzer sounds. -/
theorem buzzer_iff (hlevel : v.level = signalLevels v.state v.log.beat)
    (hturns : v.log.turns = 0 ↔ v.state = .idle) :
    v.level .buzzer = 0 ↔ v.state ≠ .idle
      ∧ (v.log.turns - if v.log.rested then 1 else 0) % 10 < 5 := by
  have hon : v.level .buzzer = 0 ↔ shownOn v.state v.log.beat ≠ none := by
    rw [hlevel, signalLevels]
    split <;> simp [*]
  by_cases hs : v.state = .idle
  · rw [hon]
    refine iff_of_false (fun h ↦ h ?_) fun h ↦ h.1 hs
    rw [shownOn, hs, SystemState.direction, ite_self]
  · have hpos : v.log.turns ≠ 0 := fun h ↦ hs (hturns.mp h)
    have hdir : v.state.direction ≠ none := fun h ↦ hs (SystemState.direction_eq_none.mp h)
    have hbeat : v.log.beat % 10 < 5
        ↔ (v.log.turns - if v.log.rested then 1 else 0) % 10 < 5 := by
      unfold BeatLog.beat
      split <;> omega
    rw [hon, and_iff_right hs, ← hbeat, shownOn]
    split
    · exact iff_of_true hdir ‹_›
    · exact iff_of_false (fun h ↦ h rfl) ‹_›

theorem signal_atTop : view.Triple Honest (Under s) signal fun _ ↦ AtTop := by
  refine .bind (R := Ready) ?_ fun s' ↦ .ite (fun hs ↦ signalActive_atTop hs) fun hs ↦ ?_
  · refine perform_rule fun v r hv hA hr ↦ ⟨hv, ?_⟩
    obtain rfl : r = v.state := hr
    exact ⟨rfl, rfl, hA.1, hA.2.1⟩
  · obtain rfl : s' = .idle := not_not.mp hs
    exact signalIdle_atTop

theorem stateMachineTurn_atTop : view.Triple Honest AtTop stateMachineTurn fun _ ↦ AtTop := by
  refine .bind pollSwitch_settled fun _ ↦ .bind readState_rule fun s ↦ .pre (fun _ _ h ↦ h.2) ?_
  refine .bind (within_program ⟨trivial, fun _ ↦ trivial⟩) fun d ↦ ?_
  refine .bind (within_program (within_call (o := .ktime) trivial)) fun now ↦ ?_
  exact .bind (within_program (dispatch_within s d now)) fun _ ↦ signal_atTop

theorem sound_of_reachable {c : GateConfig} (hc : GateReachable c) :
    Honest (ofSnap c.toSnap) ∧ (AtLoopTop c → AtTop (ofSnap c.toSnap)) := by
  have hinit : AtTop (view.proj ⟨.init, []⟩) :=
    ⟨rfl, .inl rfl, funext fun pin ↦ by cases pin <;> rfl, iff_of_true rfl rfl⟩
  exact sound_of_turn (W := view) (c := .init .init) stateMachineTurn_atTop rfl
    hinit.settled.honest hinit hc (always_of_forall fun _ _ ↦ trivial)

end Panel

/-! ## Results -/

/-- **What the signals say.** At every moment at most one lamp is lit, and it is that of the latest
movement, which is the one of the state while the gate is in use. At the top of the loop the buzzer
and both lamps are what the state and the beat say, where the beats count the turns in a row that
have ended with the gate in use: five turns on and five off, from the first turn of a movement on,
or, if no turn has ended idle before, from its second. -/
theorem signals_follow_state {c : GateConfig} (hc : GateReachable c) :
    ((∃ shown, Shows c.state.level shown ∧ (shown = none ∨ lastMovement c.trace = shown))
        ∧ (c.state.currentState = .idle
          ∨ lastMovement c.trace = c.state.currentState.direction))
      ∧ (AtLoopTop c →
        c.state.level = signalLevels c.state.currentState (beat c.trace)
          ∧ (c.state.level .buzzer = 0 ↔ c.state.currentState ≠ .idle
            ∧ (turnsInUse c.trace - if hasRested c.trace then 1 else 0) % 10 < 5)
          ∧ c.state.var .buzzerPhase = (beat c.trace % 10 : ℕ)
          ∧ (turnsInUse c.trace = 0 ↔ c.state.currentState = .idle)) := by
  obtain ⟨⟨htracks, hshown⟩, htop⟩ := Panel.sound_of_reachable hc
  refine ⟨⟨hshown, htracks⟩, fun hidle ↦ ?_⟩
  obtain ⟨hticks, -, hlevel, hturns⟩ := htop hidle
  exact ⟨hlevel, Panel.buzzer_iff hlevel hturns, hticks, hturns⟩

/-- A vehicle waits for the gate, and the lamp for vehicles coming in is dark. -/
theorem signals_follow_state_exit : ∃ c, GateReachable c ∧ AtLoopTop c
    ∧ c.state.currentState = .exitVehicleDetected ∧ turnsInUse c.trace ≠ 0
    ∧ lastMovement c.trace = some .outward ∧ c.state.level .entryLed = 0 := by
  obtain ⟨c, hc, htop, -, hstate, -⟩ :=
    exitVehicleDetected_reachable (vehicleInRange_ofCm (d := 5) (by decide)) 0 0
  obtain ⟨⟨-, hmoved⟩, hloop⟩ := signals_follow_state hc
  obtain ⟨hlevel, -, -, hturns⟩ := hloop htop
  have hused : c.state.currentState ≠ .idle := by
    rw [hstate]
    decide
  refine ⟨c, hc, htop, hstate, fun hzero ↦ hused (hturns.mp hzero), ?_, ?_⟩
  · rw [hmoved.resolve_left hused, hstate]
    rfl
  · rw [hlevel, hstate, signalLevels, shownOn]
    split <;> rfl

end ParkingService
