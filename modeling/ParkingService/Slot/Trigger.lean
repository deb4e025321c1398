import ParkingService.Slot.Echo

/-!
# Lost edges

The timer starts a measurement only when the sensor is in `ECHO_IDLE`, and between the trigger and
`ECHO_DONE` the sensor moves only when an interrupt sees the level it waits for. A sensor that is
`InFlight` when the interrupts stop therefore stays there, and no later tick fires its trigger;
`tick_fires_iff` says that this is the only way to lose it.
-/

namespace ParkingService.Slots

open Concurrency

/-- The sensor waits for an edge. -/
def InFlight (i : Slot) (s : Driver) : Prop :=
  (s.sensor i).state = .waitHigh ∨ (s.sensor i).state = .waitLow

/-- The timer comes to slot `i`, or an echo interrupt does. -/
def Disturbs (i : Slot) : SlotLabel → Prop
  | .op _ (.request j) _ => j = i
  | .ext (.echoIsr j _ _) => j = i
  | _ => False

/-- A stretch of a run in which neither the timer nor an echo interrupt comes to slot `i`. -/
structure Quiet (i : Slot) (c c' : SlotConfig) : Prop where
  steps : slotMachine.Steps c c'
  labels : ∀ l ∈ c'.since c.toSnap, ¬Disturbs i l

/-- The timer comes to slot `i`, whose sensor work has all been run, and `granted` is what it
decides. -/
structure Tick (i : Slot) (granted : Bool) (c c' : SlotConfig) : Prop where
  step : slotMachine.Step c c'
  label : c'.trace = c.trace ++ [.op .timer (.request i) granted]
  workDone : pendingWork i c.toSnap = 0

variable {i : Slot} {c c' : SlotConfig}

/-! ## In flight -/

theorem inFlight_congr {s x : Driver} (h : (x.sensor i).echo = (s.sensor i).echo) :
    InFlight i x ↔ InFlight i s := by
  have hstate : (x.sensor i).state = (s.sensor i).state := congrArg Prod.fst h
  rw [InFlight, InFlight, hstate]

/-- A work item never ends a measurement that is in flight. -/
theorem not_inFlight_of_take {l : SlotLabel} (hc : SlotReachable c') (hl : IsTake i l)
    (hlog : c'.trace = c.trace ++ [l]) (hsound : EchoSound i c.toSnap) :
    ¬InFlight i c.state := by
  obtain ⟨t, start, stop, rfl⟩ := hl.exists_eq
  have hfallen := (echoSound_of_reachable hc i).taken c.trace _ [] hlog t start stop rfl
  rintro (hhigh | hlow)
  · exact hfallen.not_requested (hsound.high hhigh)
  · exact hfallen.not_rising (hsound.low hlow)

theorem Quiet.inFlight_iff (h : Quiet i c c') (hc : SlotReachable c) :
    InFlight i c'.state ↔ InFlight i c.state := by
  refine h.steps.invariant_of_labels (I := fun s ↦ InFlight i s.state ↔ InFlight i c.state)
    h.labels Iff.rfl ?_
  intro c₁ c₂ l hsteps hstep hemits hlog hl hsame
  rw [← hsame]
  by_cases htake : IsTake i l
  · have hreach : SlotReachable c₁ := hc.trans hsteps
    have hbefore := not_inFlight_of_take (hreach.tail hstep) htake (congrArg Snap.trace hlog)
      (echoSound_of_reachable hreach i)
    obtain ⟨t, start, stop, rfl⟩ := htake.exists_eq
    obtain ⟨-, heffect⟩ := SlotOp.exec_eq_some.mp hemits
    have hafter : ¬InFlight i c₂.state := by
      rw [← heffect]
      simp [InFlight, SlotOp.effect]
    exact iff_of_false hafter hbefore
  · refine inFlight_congr (echo_of_emits hemits ?_ htake ?_)
    · rintro t r rfl
      exact hl rfl
    · rintro now pinVal rfl
      exact hl rfl

/-- A tick requests a measurement unless one is in flight, and one is in flight afterwards. -/
theorem Tick.inFlight {b : Bool} (h : Tick i b c c') (hc : SlotReachable c) :
    (b = true ↔ ¬InFlight i c.state) ∧ InFlight i c'.state := by
  obtain hsame | ⟨l, hemits, hlog⟩ := h.step.emits
  · have hlen := congrArg List.length (h.label.symm.trans (congrArg Snap.trace hsame))
    simp at hlen
  · have htrace : c.trace ++ [l] = c.trace ++ [.op .timer (.request i) b] :=
      (congrArg Snap.trace hlog).symm.trans h.label
    obtain rfl : l = .op .timer (.request i) b := by simpa using htrace
    obtain ⟨hb, heffect⟩ := SlotOp.exec_eq_some.mp hemits
    obtain rfl : b = decide ((c.state.sensor i).state = .idle) := hb
    have hpending := (echoSound_of_reachable hc i).pending
    rw [h.workDone] at hpending
    rw [← heffect]
    cases hstate : (c.state.sensor i).state with
    | done =>
      rw [hstate] at hpending
      cases hpending
    | _ => simp [InFlight, SlotOp.effect, hstate]

/-! ## What a tick requests, it fires -/

/-- The timer is granted a measurement of slot `i`. -/
def isGrant (i : Slot) : SlotLabel → Bool
  | .op .timer (.request j) r => decide (j = i) && r
  | _ => false

/-- The timer fires the trigger of slot `i`. -/
def isFire (i : Slot) : SlotLabel → Bool
  | .op .timer (.fireTrigger j) _ => decide (j = i)
  | _ => false

/-- What the timer owes slot `i`: it is granted once for each time it fires, and `n` times more. -/
def Owed (i : Slot) (n : ℕ) (tr : List SlotLabel) : Prop :=
  tr.countP (isGrant i) = tr.countP (isFire i) + n

/-- When the timer comes to a slot, it owes it nothing. -/
def triggerOutline : Outline slotMachine where
  known _ := True
  inv s := ∀ i, Always (fun pre l ↦ (∃ r, l = .op .timer (.request i) r) → Owed i 0 pre) s.trace

/-- The timer owes slot `k` a trigger, and no other. -/
def owesTrigger (k : Option Slot) : triggerOutline.Assertion .timer where
  holds s := ∀ i, Owed i (if k = some i then 1 else 0) s.trace
  stable {s l x} _ hl _ _ h i := by
    have hgrant : isGrant i l = false := by
      cases l with
      | op t o r => cases t <;> first | rfl | exact absurd rfl hl
      | _ => rfl
    have hfire : isFire i l = false := by
      cases l with
      | op t o r => cases t <;> first | rfl | exact absurd rfl hl
      | _ => rfl
    have hi := h i
    rw [Owed] at hi ⊢
    rw [Snap.log_trace, List.countP_append, List.countP_append, hi, List.countP_singleton,
      List.countP_singleton, hgrant, hfire]
    rfl

def triggerIdle : ∀ t, triggerOutline.Assertion t
  | .timer => owesTrigger none
  | _ => .top

theorem measureSlot_fires (j : Slot) : triggerOutline.Triple .timer (owesTrigger none)
    (measureSlot j) fun _ ↦ owesTrigger none := by
  refine .bind (.call (R := fun r ↦ owesTrigger (if r then some j else none)) ?_) fun r ↦ .ite ?_ ?_
  · rintro s r x hs howes - -
    refine ⟨fun i ↦ always_append_singleton.mpr ⟨hs.2 i, fun _ ↦ howes i⟩, fun i ↦ ?_⟩
    have hi := howes i
    rw [Owed] at hi ⊢
    rw [Snap.log_trace, List.countP_append, List.countP_append, hi]
    cases r <;> by_cases hji : j = i <;> simp [isGrant, isFire, hji]
  · rintro rfl
    refine .call fun s r x hs howes _ _ ↦
      ⟨fun i ↦ always_append_singleton.mpr ⟨hs.2 i, ?_⟩, fun i ↦ ?_⟩
    · rintro ⟨r, hr⟩
      cases hr
    · have hi := howes i
      rw [Owed] at hi ⊢
      rw [Snap.log_trace, List.countP_append, List.countP_append, hi]
      by_cases hji : j = i <;> simp [isGrant, isFire, hji]
  · intro hr
    rw [if_neg hr]
    exact .ret fun _ _ h ↦ h

/-- Whatever the other threads do, it is not the timer's. -/
theorem trigger_frame {t : Thread} (ht : t ≠ .timer) (p : SlotProg Unit) :
    triggerOutline.Triple t .top p fun _ ↦ .top := by
  have huses : p.Uses fun _ ↦ True := by
    induction p with
    | ret a => trivial
    | op o k ih => exact ⟨trivial, ih⟩
  refine .frame huses fun o _ s r x hs _ _ _ ↦ ⟨fun i ↦ always_append_singleton.mpr ⟨hs.2 i, ?_⟩,
    trivial⟩
  rintro ⟨r', hr⟩
  exact absurd (Label.op.inj hr).1 ht

theorem triggerOutline_valid : triggerOutline.Valid triggerIdle where
  ext hs _ _ i := always_append_singleton.mpr ⟨hs.2 i, fun ⟨_, hr⟩ ↦ by cases hr⟩
  start {t j s p x} hs hidle hentry _ := by
    have hinv : triggerOutline.inv (s.log x (.start t j)) :=
      fun i ↦ always_append_singleton.mpr ⟨hs.2 i, fun ⟨_, hr⟩ ↦ by cases hr⟩
    refine ⟨hinv, ?_⟩
    obtain ⟨w, rfl, -⟩ | ⟨rfl, rfl, rfl, -⟩ | ⟨k, rfl, -⟩ := slotEntry_cases hentry
    · exact trigger_frame (by decide) p _ ⟨trivial, hinv⟩ trivial
    · refine Outline.Triple.bind (measureSlot_fires 0) (fun _ ↦ measureSlot_fires 1) _
        ⟨trivial, hinv⟩ fun i ↦ ?_
      have hi := hidle i
      rw [Owed] at hi ⊢
      rw [Snap.log_trace, List.countP_append, List.countP_append, hi]
      rfl
    · exact trigger_frame (by simp) p _ ⟨trivial, hinv⟩ trivial

theorem trigger_holds {c : SlotConfig} (hc : SlotReachable c) :
    triggerOutline.Holds triggerIdle c := by
  refine triggerOutline_valid.reachable (fun _ ↦ always_nil) (fun t ↦ ?_) hc fun _ _ ↦ trivial
  cases t with
  | timer => exact fun _ ↦ rfl
  | _ => trivial

theorem Quiet.countP_isGrant (h : Quiet i c c') :
    c'.trace.countP (isGrant i) = c.trace.countP (isGrant i) := by
  have hnone : (c'.since c.toSnap).countP (isGrant i) = 0 := by
    rw [List.countP_eq_zero]
    intro l hl hgrant
    refine h.labels l hl ?_
    cases l with
    | op t o r =>
      cases t with
      | timer =>
        cases o with
        | request j =>
          have hj : j = i := of_decide_eq_true (Bool.and_eq_true_iff.mp hgrant).1
          exact hj
        | _ => cases hgrant
      | _ => cases hgrant
    | _ => cases hgrant
  rw [← Snap.trace_append_since (Machine.Steps.trace_prefix h.steps), List.countP_append, hnone,
    Nat.add_zero]

/-! ## Two ticks without an edge -/

section TwoTicks

variable {c c₁ c₂ c₃ c₄ c₅ : SlotConfig} {b₁ b₂ : Bool}

/-- The first tick is granted unless the sensor is in flight; the second never is. -/
theorem granted_of_ticks (hc : SlotReachable c) (h₁ : Quiet i c c₁) (htick : Tick i b₁ c₁ c₂)
    (h₃ : Quiet i c₂ c₃) (htick' : Tick i b₂ c₃ c₄) :
    (b₁ = true ↔ ¬InFlight i c.state) ∧ b₂ = false := by
  have hc₁ : SlotReachable c₁ := hc.trans h₁.steps
  have hc₂ : SlotReachable c₂ := hc₁.tail htick.step
  have hc₃ : SlotReachable c₃ := hc₂.trans h₃.steps
  constructor
  · rw [← h₁.inFlight_iff hc]
    exact (htick.inFlight hc₁).1
  · have hflight := (h₃.inFlight_iff hc₂).mpr (htick.inFlight hc₁).2
    exact Bool.eq_false_iff.mpr fun hb ↦ (htick'.inFlight hc₃).1.mp hb hflight

/-- What is granted from the first tick on is fired from the first tick on. -/
theorem fired_of_ticks (hc : SlotReachable c) (h₁ : Quiet i c c₁) (htick : Tick i b₁ c₁ c₂)
    (h₃ : Quiet i c₂ c₃) (htick' : Tick i b₂ c₃ c₄) (h₅ : Quiet i c₄ c₅)
    (hidle : c₅.thread .timer = none) :
    (c₅.since c₁.toSnap).countP (isFire i) = b₁.toNat := by
  have hc₂ : SlotReachable c₂ := (hc.trans h₁.steps).tail htick.step
  have hc₄ : SlotReachable c₄ := (hc₂.trans h₃.steps).tail htick'.step
  have howed₁ : Owed i 0 c₁.trace := (trigger_holds hc₂).1 i c₁.trace _ [] htick.label ⟨b₁, rfl⟩
  have howed₅ : Owed i 0 c₅.trace :=
    (trigger_holds (hc₄.trans h₅.steps)).idle_of_none hidle i
  have hgrants : c₅.trace.countP (isGrant i) = c₁.trace.countP (isGrant i) + b₁.toNat := by
    rw [h₅.countP_isGrant, htick'.label, List.countP_append, h₃.countP_isGrant, htick.label,
      List.countP_append, (granted_of_ticks hc h₁ htick h₃ htick').2]
    cases b₁ <;> simp [isGrant]
  have hpre : c₁.trace <+: c₅.trace :=
    ((htick.step.trace_prefix.trans (Machine.Steps.trace_prefix h₃.steps)).trans
      htick'.step.trace_prefix).trans (Machine.Steps.trace_prefix h₅.steps)
  rw [Owed] at howed₁ howed₅
  rw [hgrants, ← Snap.trace_append_since (s := c₅.toSnap) hpre, List.countP_append] at howed₅
  omega

/-- **When a sensor is not lost.** No echo interrupt comes any more, and the timer comes to the slot
twice, both times with all its work run. It fires the trigger if and only if the sensor was not in
flight when the interrupts stopped. -/
theorem tick_fires_iff (hc : SlotReachable c) (h₁ : Quiet i c c₁) (htick : Tick i b₁ c₁ c₂)
    (h₃ : Quiet i c₂ c₃) (htick' : Tick i b₂ c₃ c₄) (h₅ : Quiet i c₄ c₅)
    (hidle : c₅.thread .timer = none) :
    (∃ l ∈ c₅.since c₁.toSnap, isFire i l) ↔ ¬InFlight i c.state := by
  rw [← List.countP_pos_iff, fired_of_ticks hc h₁ htick h₃ htick' h₅ hidle,
    ← (granted_of_ticks hc h₁ htick h₃ htick').1]
  cases b₁ <;> simp

end TwoTicks

/-! ## Both outcomes -/

theorem Quiet.trans {c'' : SlotConfig} (h : Quiet i c c') (h' : Quiet i c' c'') :
    Quiet i c c'' := by
  refine ⟨Relation.ReflTransGen.trans h.steps h'.steps, fun l hl ↦ ?_⟩
  rw [Snap.since_trans (Machine.Steps.trace_prefix h.steps)
    (Machine.Steps.trace_prefix h'.steps)] at hl
  rcases List.mem_append.mp hl with hl | hl
  · exact h.labels l hl
  · exact h'.labels l hl

/-- An idle timer can always go round once, while nothing else happens. -/
theorem exists_tick (hidle : c.thread .timer = none) (hwork : pendingWork 0 c.toSnap = 0) :
    ∃ b c₁ c₂ c₃, Quiet 0 c c₁ ∧ Tick 0 b c₁ c₂ ∧ Quiet 0 c₂ c₃ ∧ c₃.thread .timer = none
      ∧ pendingWork 0 c₃.toSnap = 0 := by
  let b := decide ((c.state.sensor 0).state = .idle)
  let rest (r : Bool) : SlotProg Unit :=
    (if r then perform (.fireTrigger 0) else pure ()) >>= fun _ ↦ measureSlot 1
  let c₁ : SlotConfig := ⟨c.toSnap.log c.state (.start .timer .tick),
    Function.update c.thread .timer (some measureTimerCb)⟩
  let c₂ : SlotConfig := ⟨c₁.toSnap.log ((SlotOp.request 0).effect c.state)
    (.op .timer (.request 0) b), Function.update c₁.thread .timer (some (rest b))⟩
  have hwork₁ : pendingWork 0 c₁.toSnap = 0 := (EchoSound.pendingWork_log rfl Iff.rfl).trans hwork
  have h₁ : slotMachine.Step c c₁ := .start hidle rfl
  have h₂ : slotMachine.Step c₁ c₂ := by
    have hrun : c₁.thread .timer = some measureTimerCb := by simp [c₁]
    have hexec : (SlotOp.request 0).exec b c₁.state = some c₂.state :=
      SlotOp.exec_eq_some.mpr ⟨rfl, rfl⟩
    exact Machine.Step.op (M := slotMachine) (c := c₁) (k := rest) hrun hexec
  -- what the timer does after the decision for slot 0 has nothing to do with slot 0
  let Fine (s : SlotSnap) : Prop := c₂.trace <+: s.trace
    ∧ (∀ l ∈ s.since c₂.toSnap, ¬Disturbs 0 l) ∧ pendingWork 0 s = 0
  have hstep {s : SlotSnap} {x : Driver} {o : SlotOp} {r : o.Resp} (hs : Fine s)
      (hqueue : x.queue = s.state.queue)
      (hl : ¬Disturbs 0 (.op .timer o r)) : Fine (s.log x (.op .timer o r)) := by
    obtain ⟨hpre, hlabels, hpending⟩ := hs
    refine ⟨hpre.trans (List.prefix_append _ _), fun l hl' ↦ ?_, ?_⟩
    · rw [Snap.since_log hpre] at hl'
      rcases List.mem_append.mp hl' with hl' | hl'
      · exact hlabels l hl'
      · rwa [List.mem_singleton.mp hl']
    · rw [EchoSound.pendingWork_log (by rw [hqueue]) Iff.rfl, hpending]
  have hslot {s : SlotSnap} (hs : Fine s) : SlotMay .timer (measureSlot 1) (fun _ ↦ Fine) s :=
    measureSlot_may 1 (fun _ ↦ hstep (hstep hs rfl (by simp [Disturbs])) rfl id)
      fun _ ↦ hstep hs rfl (by simp [Disturbs])
  have hrest : SlotMay .timer (rest b) (fun _ ↦ Fine) c₂.toSnap := by
    have hfine : Fine c₂.toSnap := by
      refine ⟨List.prefix_refl _, ?_, (EchoSound.pendingWork_log rfl Iff.rfl).trans hwork₁⟩
      simp [Snap.since]
    cases hb : b with
    | true =>
      exact .bind (SlotMay.perform (o := .fireTrigger 0) () trivial (hslot (hstep hfine rfl id)))
    | false => exact hslot hfine
  have hrun : c₂.thread .timer = some (rest b) := by simp [c₂]
  obtain ⟨c₃, h₃, hthread, -, hlabels, hwork₃⟩ := hrest.steps_of_run hrun
  refine ⟨b, c₁, c₂, c₃, ⟨.single h₁, ?_⟩, ⟨h₂, rfl, hwork₁⟩, ⟨h₃, hlabels⟩, ?_, hwork₃⟩
  · rw [Snap.since_log (List.prefix_refl _)]
    simp [Snap.since, Disturbs]
  · rw [hthread, Function.update_self]

/-- From the start two ticks fire the trigger. -/
theorem tick_fires_first : ∃ (b₁ b₂ : Bool) (c₁ c₂ c₃ c₄ c₅ : SlotConfig),
    Quiet 0 (.init .init) c₁ ∧ Tick 0 b₁ c₁ c₂ ∧ Quiet 0 c₂ c₃ ∧ Tick 0 b₂ c₃ c₄ ∧ Quiet 0 c₄ c₅
      ∧ c₅.thread .timer = none ∧ ∃ l ∈ c₅.since c₁.toSnap, isFire 0 l := by
  obtain ⟨b₁, c₁, c₂, c, h₁, htick, h, hidle, hwork⟩ := exists_tick (c := .init .init) rfl rfl
  obtain ⟨b₂, c₃, c₄, c₅, h₃, htick', h₅, hidle', -⟩ := exists_tick hidle hwork
  refine ⟨b₁, b₂, c₁, c₂, c₃, c₄, c₅, h₁, htick, h.trans h₃, htick', h₅, hidle', ?_⟩
  refine (tick_fires_iff .refl h₁ htick (h.trans h₃) htick' h₅ hidle').mpr ?_
  simp [InFlight, Driver.init, SensorDev.init, Config.init]

/-- The first tick fires the trigger, no echo comes back, and neither the second nor the third tick
fires it again. -/
theorem lost_edge_wedges : ∃ (b₁ b₂ : Bool) (c c₁ c₂ c₃ c₄ c₅ : SlotConfig), SlotReachable c
    ∧ Quiet 0 c c₁ ∧ Tick 0 b₁ c₁ c₂ ∧ Quiet 0 c₂ c₃ ∧ Tick 0 b₂ c₃ c₄ ∧ Quiet 0 c₄ c₅
      ∧ c₅.thread .timer = none ∧ ¬∃ l ∈ c₅.since c₁.toSnap, isFire 0 l := by
  obtain ⟨b₀, d₁, d₂, c, h₀, htick₀, h, hidle, hwork⟩ := exists_tick (c := .init .init) rfl rfl
  obtain ⟨b₁, c₁, c₂, d, h₁, htick₁, h₂, hidle', hwork'⟩ := exists_tick hidle hwork
  obtain ⟨b₂, c₃, c₄, c₅, h₃, htick₂, h₅, hidle'', -⟩ := exists_tick hidle' hwork'
  have hd₁ : SlotReachable d₁ := h₀.steps
  have hd₂ : SlotReachable d₂ := hd₁.tail htick₀.step
  have hc : SlotReachable c := Relation.ReflTransGen.trans hd₂ h.steps
  have hflight : InFlight 0 c.state := (h.inFlight_iff hd₂).mpr (htick₀.inFlight hd₁).2
  refine ⟨b₁, b₂, c, c₁, c₂, c₃, c₄, c₅, hc, h₁, htick₁, h₂.trans h₃, htick₂, h₅, hidle'', ?_⟩
  have hfired := fired_of_ticks hc h₁ htick₁ (h₂.trans h₃) htick₂ h₅ hidle''
  have hdenied : b₁ = false := by
    have hiff := (granted_of_ticks hc h₁ htick₁ (h₂.trans h₃) htick₂).1
    exact Bool.eq_false_iff.mpr fun hb ↦ hiff.mp hb hflight
  rw [← List.countP_pos_iff, hfired, hdenied]
  simp

end ParkingService.Slots
