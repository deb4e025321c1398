import ParkingService.Gate.Position
import ParkingService.System.Invariant

/-!
# What the dashboard shows in the end

When nothing is under way any more, what was received last is what was sent last
(`Net.Sound.settled`), and with what is known of both ends, what the database and the full LED say
is what the drivers know: `dashboard_settles`. What has been lost by then, or has come twice, makes
no difference, since the topics that count are retained.

A lot can always settle. Whatever has happened so far, if only the daemon is running and the gate
module is between two turns, messages alone lead there: the daemon takes its record, the bridge
polls once, and what stands in the queues is handed over (`lot_can_settle`).
-/

namespace ParkingService.Monitor

open Concurrency Json Network Slots Text

/-- What a page shows that is loaded now. -/
def Lot.shown (x : Lot) : Readings :=
  (Page.start.applyState (getDashboardState x.collector.db)).screen.readings

/-- The daemon has nothing to take, the gate module is between two turns, the last poll is up to
date, and no message on a retained topic is under way. -/
structure Lot.Settled (x : Lot) (d : Driver) : Prop where
  loaded : x.rpi1.driver = some d
  waiting : x.rpi1.daemon = .waiting
  unchanged : d.statusChanged = false
  atTop : AtLoopTop x.gate
  seen : x.bridge.prev = stateString x.gate.state.currentState
  collector : ∀ t, plan.retained t = true → x.net.Delivered plan .collector t
  module : x.net.Delivered plan .bridge topicLot

/-- Both slots are occupied. -/
def Full (d : Driver) : Prop := d.status.s1 ≠ 0 ∧ d.status.s2 ≠ 0

instance (d : Driver) : Decidable (Full d) := inferInstanceAs (Decidable (_ ∧ _))

/-- A lot is not full before a change has been announced. -/
theorem not_full_of_unannounced {x : Rpi1} {d : Driver} (hx : x.Session) (hd : x.driver = some d)
    (h : x.announced = false) : ¬Full d :=
  fun hfull ↦ hfull.1 (hx.empty d hd h 0)

/-! ## What is shown of what was sent -/

section Shown

variable {p : Platform} {x : Lot} {d : Driver}

theorem Lot.Sound.shown_eq (hx : x.Sound) : x.shown = readingsOf (x.net.received .collector) := by
  rw [shown, (Page.applyState_rendered _ _).readings, applyState_readings hx.collector.sound]
  exact hx.collector.readings

/-- A topic on which something has been sent. -/
theorem Lot.Sound.shown_get (hp : p.Roomy) (hx : x.Sound) {T : Topic} {payload : String}
    {u : Update} {v : Shown T} (h : x.net.Delivered plan .collector T.name)
    (hsent : Network.latest T.name (x.net.sent (plan.owner T.name)) = some payload)
    (hu : Utterance T.name payload u) (hv : u.get? T = some v) : x.shown.get T = v := by
  rw [hx.shown_eq]
  refine readingsOf_get hp (hx.received .collector) ?_ hu hv
  rw [← hsent]
  exact hx.net.settled (by cases T <;> rfl) (by cases T <;> rfl) h

/-- A topic on which nothing has been sent. -/
theorem Lot.Sound.shown_get_of_none (hp : p.Roomy) (hx : x.Sound) {T : Topic}
    (h : x.net.Delivered plan .collector T.name)
    (hsent : Network.latest T.name (x.net.sent (plan.owner T.name)) = none) :
    x.shown.get T = Readings.start.get T := by
  rw [hx.shown_eq]
  refine readingsOf_get_of_none hp (hx.received .collector) ?_
  rw [← hsent]
  exact hx.net.settled (by cases T <;> rfl) (by cases T <;> rfl) h

theorem Lot.Settled.slots (hp : p.Roomy) (hx : x.Sound) (hs : x.Settled d) :
    (x.shown.slot = if x.rpi1.announced then
        ⟨text (slotWord d.status.s1), text (slotWord d.status.s2)⟩
      else ⟨unknown, unknown⟩) ∧
      x.shown.lotState = if x.rpi1.announced then text (if Full d then "FULL" else "AVAILABLE")
        else unknown := by
  have hslot := hs.collector topicSlot rfl
  have hlot := hs.collector topicLot rfl
  have hsentslot := hx.daemon.slot
  have hsentlot := hx.daemon.lot
  split
  · rename_i hannounced
    obtain ⟨htells, htells'⟩ := hx.rpi1.tells hs.loaded hs.waiting hs.unchanged hannounced
    exact ⟨hx.shown_get (T := .slot) hp hslot (hsentslot.trans htells) (.slot d.status) rfl,
      hx.shown_get (T := .lot) hp hlot (hsentlot.trans htells') (.lot d.status) rfl⟩
  · rename_i hannounced
    obtain ⟨-, -, hbroker⟩ := hx.rpi1.quiet d hs.loaded (Bool.eq_false_iff.mpr hannounced)
    rw [hbroker] at hsentslot hsentlot
    exact ⟨hx.shown_get_of_none (T := .slot) hp hslot hsentslot,
      hx.shown_get_of_none (T := .lot) hp hlot hsentlot⟩

theorem Lot.Settled.gate (hp : p.Roomy) (hx : x.Sound) (hs : x.Settled d) :
    x.shown.gateState = text (if x.gate.state.position = 0 then "CLOSED" else "OPEN") := by
  have hgate := hs.collector topicPubGate rfl
  obtain ⟨hprev, -⟩ | ⟨s, hprev, hlatest⟩ := hx.bridge
  · rw [hs.seen] at hprev
    exact absurd hprev (by cases x.gate.state.currentState <;> decide)
  · obtain rfl := stateString_injective (hs.seen.symm.trans hprev)
    -- the arm is where the state says it is
    have hposition := (Arm.sound_of_reachable hx.gate).2 hs.atTop
    have hword : stateToGate (stateString x.gate.state.currentState) =
        if x.gate.state.position = 0 then "CLOSED" else "OPEN" := by
      rw [show x.gate.state.position = Arm.rest x.gate.state.currentState from hposition.2.1,
        stateToGate, Arm.rest]
      simp only [stateString_eq_idle]
      split <;> simp [stepperGateSteps]
    rw [← hword]
    exact hx.shown_get (T := .gate) hp hgate hlatest (.gate _) rfl

theorem Lot.Settled.fullLed (hx : x.Sound) (hs : x.Settled d) :
    x.capacity = if Full d then ⟨1, 1⟩ else ⟨0, 0⟩ := by
  have hreceived := hx.net.settled rfl rfl hs.module
  have hsent := hx.daemon.lot
  rw [hx.capacity, capacityOf, hreceived]
  change (if Network.latest topicLot (x.net.sent .daemon) = some "FULL" then _ else _) = _
  rw [hsent]
  by_cases hannounced : x.rpi1.announced = true
  · rw [(hx.rpi1.tells hs.loaded hs.waiting hs.unchanged hannounced).2, ParkingStatus.lotPayload]
    by_cases hfull : Full d
    · rw [if_pos (show d.status.s1 ≠ 0 ∧ d.status.s2 ≠ 0 from hfull), if_pos rfl, if_pos hfull]
    · rw [if_neg (show ¬(d.status.s1 ≠ 0 ∧ d.status.s2 ≠ 0) from hfull), if_neg (by decide),
        if_neg hfull]
  · have hno : x.rpi1.announced = false := Bool.eq_false_iff.mpr hannounced
    rw [(hx.rpi1.quiet d hs.loaded hno).2.2, if_neg (by simp),
      if_neg (not_full_of_unannounced hx.rpi1 hs.loaded hno)]

end Shown

/-! ## Settling -/

/-- Messages are handed over, and RPI1, the gate module and the bridge stay as they are. -/
structure Calm (p : Platform) (C : Transport) (x y : Lot) : Prop where
  steps : Relation.ReflTransGen (Lot.MessageStep p C) x y
  rpi1 : y.rpi1 = x.rpi1
  gate : y.gate = x.gate
  bridge : y.bridge = x.bridge

section Settling

variable {p : Platform} {C : Transport} {x y z : Lot} {d : Driver}

theorem Calm.refl (p : Platform) (C : Transport) (x : Lot) : Calm p C x x := ⟨.refl, rfl, rfl, rfl⟩

theorem Calm.trans (h : Calm p C x y) (h' : Calm p C y z) : Calm p C x z :=
  ⟨Relation.ReflTransGen.trans h.steps h'.steps, h'.rpi1.trans h.rpi1, h'.gate.trans h.gate,
    h'.bridge.trans h.bridge⟩

theorem Calm.sound (hp : p.Roomy) (hx : x.Sound) (h : Calm p C x y) : y.Sound :=
  hx.steps hp (h.steps.lift id fun _ _ ↦ Lot.MessageStep.step)

/-- The broker is given all that a program has sent, and passes on what is wanted of it. -/
theorem forward_all (p : Platform) (C : Transport) (x : Lot) (i : Publisher) :
    ∃ y, Calm p C x y ∧ y.net.outgoing i = [] ∧
      (∀ j, x.net.outgoing j = [] → y.net.outgoing j = []) ∧
      ∀ k q, x.net.incoming k = some q →
        y.net.incoming k =
          some (q ++ (x.net.outgoing i).filter fun pk ↦ plan.wants k pk.topic) := by
  generalize hout : x.net.outgoing i = out
  induction out generalizing x with
  | nil =>
    refine ⟨x, .refl p C x, hout, fun _ h ↦ h, fun k q hq ↦ ?_⟩
    rw [hq, List.filter_nil, List.append_nil]
  | cons pk out ih =>
    have hstep : Lot.MessageStep p C x { x with net := x.net.forward i pk out plan } :=
      .forward (hout ▸ C.hands pk out)
    obtain ⟨y, hcalm, hempty, hothers, hin⟩ := ih { x with net := x.net.forward i pk out plan }
      ((Net.outgoing_forward ..).trans (if_pos rfl))
    refine ⟨y, ⟨.head hstep hcalm.steps, hcalm.rpi1, hcalm.gate, hcalm.bridge⟩, hempty,
      fun j hj ↦ hothers j ?_, fun k q hq ↦ (hin k _ (Net.incoming_forward _ _ _ hq)).trans ?_⟩
    · rw [Net.outgoing_forward, if_neg]
      · exact hj
      · rintro rfl
        rw [hout] at hj
        cases hj
    · rw [List.filter_cons]
      split
      · rw [List.append_assoc, List.singleton_append]
      · rfl

/-- A subscriber is given all that is on its way to it. -/
theorem deliver_all (hp : p.Roomy) (hx : x.Sound) (k : Subscriber) {q : List Parcel}
    (hq : x.net.incoming k = some q) :
    ∃ y, Calm p C x y ∧ y.net.incoming k = some [] ∧ y.net.received k = x.net.received k ++ q ∧
      y.net.outgoing = x.net.outgoing ∧
      ∀ k', k' ≠ k → y.net.incoming k' = x.net.incoming k' := by
  induction q generalizing x with
  | nil => exact ⟨x, .refl p C x, hq, (List.append_nil _).symm, rfl, fun _ _ ↦ rfl⟩
  | cons pk q ih =>
    obtain ⟨x₁, hcalm₁, hnet⟩ : ∃ y, Calm p C x y ∧ y.net = x.net.deliver k pk q := by
      cases k with
      | collector =>
        exact ⟨_, ⟨.single (.collect 0 hx.up hq (C.hands pk q)), rfl, rfl, rfl⟩, rfl⟩
      | bridge =>
        have hstep := Lot.MessageStep.command (p := p) (fun _ ↦ 0) (fun _ ↦ 0) hq (C.hands pk q)
        exact ⟨_, ⟨.single hstep, rfl, rfl, rfl⟩, rfl⟩
    obtain ⟨y, hcalm, hin, hreceived, hout, hothers⟩ := ih (hcalm₁.sound hp hx)
      (by rw [hnet, Net.incoming_deliver, if_pos rfl])
    refine ⟨y, hcalm₁.trans hcalm, hin, ?_, ?_, fun k' hk' ↦ ?_⟩
    · rw [hreceived, hnet, Net.received_deliver, if_pos rfl, List.append_assoc,
        List.singleton_append]
    · rw [hout, hnet]
      rfl
    · rw [hothers k' hk', hnet, Net.incoming_deliver, if_neg hk']

/-- A subscriber connects. -/
theorem connect_any (hx : x.Sound) (k : Subscriber) :
    ∃ y, Calm p C x y ∧ (y.net.incoming k).isSome ∧
      ∀ k', (x.net.incoming k').isSome → (y.net.incoming k').isSome := by
  have hretained (t : String) (ht : x.net.retained t ≠ none) :
      t ∈ [topicSlot, topicDistance, topicLot, topicPubGate] := by
    obtain ⟨m, hm⟩ := Option.ne_none_iff_exists'.mp ht
    simpa [plan] using (hx.net.retained t m hm).2.symm
  obtain ⟨pks, hpks⟩ := C.gives hretained (by decide) k
  refine ⟨_, ⟨.single (.connect hpks), rfl, rfl, rfl⟩, ?_, fun k' hk' ↦ ?_⟩
  · rw [Net.incoming_connect, if_pos rfl]
    rfl
  · rw [Net.incoming_connect]
    split
    · rfl
    · exact hk'

/-- All queues are emptied but those of the heartbeats. -/
theorem quiesce (hp : p.Roomy) (hx : x.Sound) :
    ∃ y, Calm p C x y ∧ y.net.outgoing .daemon = [] ∧ y.net.outgoing .bridge = [] ∧
      ∀ k, y.net.incoming k = some [] := by
  obtain ⟨x₁, h₁, hup₁, -⟩ := connect_any (p := p) (C := C) hx .collector
  obtain ⟨x₂, h₂, hup₂, hkept₂⟩ := connect_any (p := p) (C := C) (h₁.sound hp hx) .bridge
  obtain ⟨x₃, h₃, hout₃, -, hkept₃⟩ := forward_all p C x₂ .daemon
  obtain ⟨x₄, h₄, hout₄, hothers₄, hkept₄⟩ := forward_all p C x₃ .bridge
  have hcalm₄ := ((h₁.trans h₂).trans h₃).trans h₄
  have hx₄ := hcalm₄.sound hp hx
  obtain ⟨q, hq⟩ := Option.isSome_iff_exists.mp (hkept₂ .collector hup₁)
  obtain ⟨q', hq'⟩ := Option.isSome_iff_exists.mp hup₂
  obtain ⟨x₅, h₅, hin₅, -, hout₅, hothers₅⟩ :=
    deliver_all hp hx₄ .collector (hkept₄ _ _ (hkept₃ _ _ hq))
  obtain ⟨x₆, h₆, hin₆, -, hout₆, hothers₆⟩ := deliver_all hp (h₅.sound hp hx₄) .bridge
    ((hothers₅ .bridge (by decide)).trans (hkept₄ _ _ (hkept₃ _ _ hq')))
  refine ⟨x₆, (hcalm₄.trans h₅).trans h₆, ?_, ?_, fun k ↦ ?_⟩
  · rw [hout₆, hout₅]
    exact hothers₄ _ hout₃
  · rw [hout₆, hout₅]
    exact hout₄
  · cases k with
    | collector => exact (hothers₆ .collector (by decide)).trans hin₅
    | bridge => exact hin₆

/-- The daemon publishes the record that it holds, if it holds one. -/
theorem publish_all (hon : x.rpi1.daemon ≠ .off) :
    ∃ y, Relation.ReflTransGen Lot.DaemonStep x y ∧ y.rpi1.driver = x.rpi1.driver ∧
      y.rpi1.announced = x.rpi1.announced ∧ y.rpi1.daemon = .waiting ∧ y.gate = x.gate ∧
      y.bridge = x.bridge := by
  cases hdaemon : x.rpi1.daemon with
  | off => exact absurd hdaemon hon
  | waiting => exact ⟨x, .refl, rfl, rfl, hdaemon, rfl, rfl⟩
  | publishing st =>
    refine ⟨_, .single (.publish hdaemon (y := { x.rpi1 with
      daemon := .waiting, broker := x.rpi1.broker.publish st }) ?_), rfl, rfl, rfl, rfl, rfl⟩
    rw [Rpi1Event.exec, hdaemon]

/-- The daemon takes and publishes what is announced, if anything is. -/
theorem take_all (hd : x.rpi1.driver = some d) (hon : x.rpi1.daemon ≠ .off) :
    ∃ y d', Relation.ReflTransGen Lot.DaemonStep x y ∧ y.rpi1.driver = some d' ∧
      d'.sensor = d.sensor ∧ d'.statusChanged = false ∧ y.rpi1.announced = x.rpi1.announced ∧
      y.rpi1.daemon = .waiting ∧ y.gate = x.gate ∧ y.bridge = x.bridge := by
  obtain ⟨x₁, h₁, hdriver, hannounced, hdaemon, hgate, hbridge⟩ := publish_all hon
  rw [hd] at hdriver
  cases hchanged : d.statusChanged with
  | false => exact ⟨x₁, d, h₁, hdriver, rfl, hchanged, hannounced, hdaemon, hgate, hbridge⟩
  | true =>
    let r : Rpi1 := { x₁.rpi1 with
      driver := some { d with statusChanged := false }
      daemon := .publishing d.status }
    have hread : Rpi1Event.read.exec x₁.rpi1 = some r := by
      rw [Rpi1Event.exec, hdriver, hdaemon]
      exact if_pos hchanged
    obtain ⟨x₂, h₂, hdriver₂, hannounced₂, hdaemon₂, hgate₂, hbridge₂⟩ :=
      publish_all (x := { x₁ with rpi1 := r }) (fun h ↦ by cases h)
    exact ⟨x₂, { d with statusChanged := false }, (h₁.tail (.read hread)).trans h₂, hdriver₂, rfl,
      rfl, hannounced₂.trans hannounced, hdaemon₂, hgate₂.trans hgate, hbridge₂.trans hbridge⟩

/-- A retained topic is one of the daemon or of the bridge. -/
theorem owner_of_retained {t : String} (ht : plan.retained t = true) :
    plan.owner t = .daemon ∨ plan.owner t = .bridge := by
  simp only [plan, decide_eq_true_eq] at ht
  obtain rfl | rfl | rfl | rfl := ht
  · exact .inl rfl
  · exact .inl rfl
  · exact .inl rfl
  · exact .inr rfl

/-- The steps to a settled lot. -/
theorem Lot.Sound.settles (hp : p.Roomy) (hx : x.Sound) (hd : x.rpi1.driver = some d)
    (hon : x.rpi1.daemon ≠ .off) (htop : AtLoopTop x.gate) :
    ∃ x₁ y d', Relation.ReflTransGen Lot.DaemonStep x x₁ ∧
      Relation.ReflTransGen (Lot.MessageStep p C) x₁.polled y ∧ y.Settled d' ∧
      d'.sensor = d.sensor ∧ y.rpi1.announced = x.rpi1.announced ∧ y.gate.state = x.gate.state := by
  obtain ⟨x₁, d', h₁, hdriver, hsensor, hchanged, hannounced, hdaemon, hgate, -⟩ :=
    take_all hd hon
  obtain ⟨y, hcalm, hout, hout', hin⟩ :=
    quiesce hp (hx.steps hp (Lot.steps_of_polled (C := C) h₁ .refl))
  have hdelivered (k : Subscriber) {t : String} (ht : plan.retained t = true) :
      y.net.Delivered plan k t := by
    refine ⟨?_, [], hin k, rfl⟩
    obtain howner | howner := owner_of_retained ht
    · rw [howner, hout]
      rfl
    · rw [howner, hout']
      rfl
  refine ⟨x₁, y, d', h₁, hcalm.steps, ?_, hsensor, ?_, ?_⟩
  · refine ⟨?_, ?_, hchanged, ?_, ?_, fun t ht ↦ hdelivered .collector ht, hdelivered .bridge rfl⟩
    · rw [hcalm.rpi1]
      exact hdriver
    · rw [hcalm.rpi1]
      exact hdaemon
    · rw [hcalm.gate]
      change x₁.gate.thread () = none
      rw [hgate]
      exact htop
    · rw [hcalm.bridge, hcalm.gate]
      exact x₁.bridge.prev_pollGateState _
  · rw [hcalm.rpi1]
    exact hannounced
  · rw [hcalm.gate]
    change x₁.gate.state = x.gate.state
    rw [hgate]

end Settling

/-! ## Results -/

/-- **What the dashboard shows in the end.** In a lot that has settled, a page that is loaded now
shows the slots as the driver of RPI1 has them and whether the lot is full, once a change has been
announced, and nothing before, when both slots are empty; it shows the gate as open exactly if the
arm is not down; and the full LED of RPI2 is lit exactly if both slots are occupied. -/
theorem dashboard_settles {p : Platform} (hp : p.Roomy) {C : Transport} {x : Lot}
    (h : x.Reachable p C) {d : Driver}
    (hs : x.Settled d) :
    (x.shown.slot = (if x.rpi1.announced then
        ⟨text (slotWord d.status.s1), text (slotWord d.status.s2)⟩
      else ⟨unknown, unknown⟩) ∧
      x.shown.lotState = (if x.rpi1.announced then text (if Full d then "FULL" else "AVAILABLE")
        else unknown)) ∧
    (x.rpi1.announced = false → d.status.s1 = 0 ∧ d.status.s2 = 0) ∧
    x.shown.gateState = text (if x.gate.state.position = 0 then "CLOSED" else "OPEN") ∧
    x.capacity = (if Full d then ⟨1, 1⟩ else ⟨0, 0⟩) := by
  have hx := Lot.Sound.of_reachable hp h
  refine ⟨hs.slots hp hx, fun hno ↦ ?_, hs.gate hp hx, hs.fullLed hx⟩
  have hempty := hx.rpi1.empty d hs.loaded hno
  exact ⟨hempty 0, hempty 1⟩

/-- What is left open of Python as it usually is. -/
def usual : Platform where
  maxDigits := some 4300
  maxDepth := 990
  cast _ v := v

theorem roomy_usual : usual.Roomy where
  digits k hk := by
    obtain rfl := Option.some.inj hk
    decide
  depth := by decide

/-- A vehicle has come to the first slot, and the daemon has just been started. -/
theorem arrival_reachable : ∃ x d, Lot.Reachable usual .free x ∧ x.rpi1.driver = some d ∧
    x.rpi1.daemon ≠ .off ∧ AtLoopTop x.gate ∧ x.rpi1.announced = true ∧
    d.sensor = (Driver.init.publish 0 5).sensor ∧ x.gate.state = .init := by
  have hcm : CanMeasure 5 := canMeasure_of_valid (t := 290000) (by decide)
  let r₁ : Rpi1 := ⟨some .init, false, .off, ⟨none, none, none⟩⟩
  let r₂ : Rpi1 := ⟨some (Driver.init.publish 0 5), true, .off, ⟨none, none, none⟩⟩
  let r₃ : Rpi1 := { r₂ with daemon := .waiting }
  have hload : Lot.Step usual .free .init { Lot.init with rpi1 := r₁ } :=
    .rpi1 (e := .load) (by simp) rfl
  have hupdate : Lot.Step usual .free { Lot.init with rpi1 := r₁ } { Lot.init with rpi1 := r₂ } :=
    .update (i := 0) hcm rfl
  have hstart : Lot.Step usual .free { Lot.init with rpi1 := r₂ } { Lot.init with rpi1 := r₃ } :=
    .rpi1 (e := .start) (by simp) rfl
  exact ⟨_, _, .tail (.tail (.single hload) hupdate) hstart, rfl, fun h ↦ (by cases h), rfl, rfl,
    rfl, rfl⟩

/-- The vehicle is shown, and so is the closed gate. -/
theorem dashboard_settles_arrival : ∃ x d, Lot.Reachable usual .free x ∧ x.Settled d ∧
    x.shown.slot = ⟨text "OCCUPIED", text "EMPTY"⟩ ∧ x.shown.lotState = text "AVAILABLE" ∧
    x.shown.gateState = text "CLOSED" ∧ x.capacity = ⟨0, 0⟩ := by
  obtain ⟨x, d, hx, hd, hon, htop, hannounced, hsensor, hgate⟩ := arrival_reachable
  obtain ⟨x₁, y, d', hdaemon, hmessages, hs, hsensor', hannounced', hgate'⟩ :=
    (Lot.Sound.of_reachable roomy_usual hx).settles roomy_usual hd hon htop
  have hy : y.Reachable usual .free :=
    Relation.ReflTransGen.trans hx (Lot.steps_of_polled hdaemon hmessages)
  obtain ⟨⟨hslot, hlot⟩, -, hshown, hcapacity⟩ := dashboard_settles roomy_usual hy hs
  rw [hannounced', hannounced, if_pos rfl] at hslot hlot
  have hstatus : d'.status = (Driver.init.publish 0 5).status := by
    rw [Driver.status, hsensor'.trans hsensor]
    rfl
  have hnotfull : ¬Full d' := by
    rw [Full, hstatus]
    decide
  rw [hstatus] at hslot
  rw [if_neg hnotfull] at hlot
  rw [if_neg hnotfull] at hcapacity
  refine ⟨y, d', hy, hs, hslot, hlot, ?_, hcapacity⟩
  rw [hshown, hgate', hgate]
  rfl

/-- **A lot can always settle.** From every reachable lot whose daemon is running and whose gate
module is between two turns a settled one is reached: the daemon takes what there is to take, the
bridge polls once, and then messages move on and subscribers connect, nothing else. On the way
neither the occupancy of the slots nor the gate has changed. -/
theorem lot_can_settle {p : Platform} (hp : p.Roomy) {C : Transport} {x : Lot}
    (h : x.Reachable p C) {d : Driver}
    (hd : x.rpi1.driver = some d) (hon : x.rpi1.daemon ≠ .off) (htop : AtLoopTop x.gate) :
    ∃ x₁ y d', Relation.ReflTransGen Lot.DaemonStep x x₁ ∧
      Relation.ReflTransGen (Lot.MessageStep p C) x₁.polled y ∧ Lot.Steps p C x y ∧ y.Settled d' ∧
      d'.sensor = d.sensor ∧ y.rpi1.announced = x.rpi1.announced ∧
      y.gate.state = x.gate.state := by
  obtain ⟨x₁, y, d', hdaemon, hmessages, hs, hrest⟩ :=
    (Lot.Sound.of_reachable hp h).settles hp hd hon htop
  exact ⟨x₁, y, d', hdaemon, hmessages, Lot.steps_of_polled hdaemon hmessages, hs, hrest⟩

theorem lot_can_settle_arrival : ∃ x x₁ y d, Lot.Reachable usual .free x ∧
    Relation.ReflTransGen Lot.DaemonStep x x₁ ∧
    Relation.ReflTransGen (Lot.MessageStep usual .free) x₁.polled y ∧ y.Settled d ∧
    d.sensor = (Driver.init.publish 0 5).sensor := by
  obtain ⟨x, d, hx, hd, hon, htop, -, hsensor, -⟩ := arrival_reachable
  obtain ⟨x₁, y, d', hdaemon, hmessages, -, hs, hsensor', -⟩ :=
    lot_can_settle roomy_usual hx hd hon htop
  exact ⟨x, x₁, y, d', hx, hdaemon, hmessages, hs, hsensor'.trans hsensor⟩

/-- **Nothing that the nodes say ends the collector**, late, repeated or cut off as it may be;
every row of its event table is that of an event which the bridge has published, and no event that
it has been given is without a row. -/
theorem collector_survives {p : Platform} (hp : p.Roomy) {C : Transport} {x : Lot}
    (h : x.Reachable p C) :
    x.ended = none ∧
    (∀ r ∈ x.collector.db.eventLog,
      ∃ pk ∈ x.net.sent .bridge, ∃ prev next, OfEvent r pk prev next) ∧
    ∀ pk ∈ x.net.received .collector, pk.topic = topicPubEvent →
      ∃ r ∈ x.collector.db.eventLog, ∃ prev next, OfEvent r pk prev next := by
  have hx := Lot.Sound.of_reachable hp h
  refine ⟨hx.up, fun r hr ↦ ?_, hx.collector.logged⟩
  obtain ⟨pk, hpk, prev, next, hrow⟩ := hx.collector.events r hr
  have hsent := (hx.net.received .collector pk hpk).2.1
  rw [show plan.owner pk.topic = .bridge by rw [hrow.topic]; rfl] at hsent
  exact ⟨pk, hsent, prev, next, hrow⟩

/-- The bridge has seen the closed gate, a vehicle has come to the sensor, and the bridge has seen
that as well. -/
theorem entry_reachable : ∃ x pk, Lot.Reachable usual .free x ∧
    x.net.incoming .collector = some [] ∧ pk ∈ x.net.outgoing .bridge ∧
    pk.topic = topicPubEvent := by
  let x₁ : Lot := { Lot.init with net := Lot.init.net.connect .collector [] }
  have hgreets : Lot.init.net.Greets plan .collector [] :=
    ⟨.nil, fun _ ↦ ⟨fun h ↦ absurd h List.not_mem_nil, fun h ↦ by cases h.2.2⟩⟩
  have h₁ : Lot.Step usual .free .init x₁ := .connect hgreets
  have h₂ : Lot.Step usual .free x₁ x₁.polled := .poll rfl
  obtain ⟨c, hc, -, -, hstate, tr, htr, hsignals⟩ := turn_entry (c := x₁.polled.gate)
    (e := .ofCm 5) 0 rfl rfl rfl (vehicleInRange_ofCm (by decide))
  have hpolled : polled c.trace = polled x₁.polled.gate.trace := by
    rw [htr, polled_append, polled_append, polled_entryTurn,
      polled_of_unseen fun l hl ↦ unseen_of_signal (hsignals l hl), List.append_nil,
      List.append_nil]
  let x₃ : Lot := { x₁.polled with gate := c }
  have h₃ : Lot.Steps usual .free x₁.polled x₃ := steps_of_gate hc hpolled
  have h₄ : Lot.Step usual .free x₃ x₃.polled := .poll rfl
  have hprev : x₃.bridge.prev = "IDLE" := Bridge.init.prev_pollGateState .idle
  refine ⟨x₃.polled, parcelOf (eventMessage "ENTRY_OPEN" "vehicle_detected"),
    .tail (.trans (.tail (.single h₁) h₂) h₃) h₄, rfl, ?_, rfl⟩
  change _ ∈ (x₃.net.publish .bridge _).outgoing .bridge
  rw [Net.outgoing_publish, if_pos rfl, hstate, parcelsOfPoll_eq, hprev, if_neg (by decide)]
  refine List.mem_append_right _ (List.mem_cons_of_mem _ ?_)
  rw [if_pos (by decide)]
  exact List.mem_singleton.mpr rfl

/-- A vehicle has entered, and its row is in the table. -/
theorem collector_survives_entry : ∃ x, Lot.Reachable usual .free x ∧ x.ended = none ∧
    ∃ r ∈ x.collector.db.eventLog, ∃ pk ∈ x.net.sent .bridge, ∃ prev next,
      OfEvent r pk prev next := by
  obtain ⟨x, pk, hx, hin, hpk, htopic⟩ := entry_reachable
  obtain ⟨y, hcalm, -, -, hforwarded⟩ := forward_all usual .free x .bridge
  have hy := hcalm.sound roomy_usual (Lot.Sound.of_reachable roomy_usual hx)
  obtain ⟨z, hcalm', -, hreceived, -⟩ :=
    deliver_all roomy_usual hy .collector (hforwarded .collector [] hin)
  have hmoved : Relation.ReflTransGen (Lot.MessageStep usual .free) x z :=
    (hcalm.trans hcalm').steps
  have hz : z.Reachable usual .free :=
    Relation.ReflTransGen.trans hx (hmoved.lift id fun _ _ ↦ Lot.MessageStep.step)
  have hgiven : pk ∈ z.net.received .collector := by
    rw [hreceived, List.nil_append]
    refine List.mem_append_right _ (List.mem_filter.mpr ⟨hpk, ?_⟩)
    rw [htopic]
    decide
  obtain ⟨hup, hevents, hlogged⟩ := collector_survives roomy_usual hz
  obtain ⟨r, hr, -⟩ := hlogged pk hgiven htopic
  exact ⟨z, hz, hup, r, hr, hevents r hr⟩

end ParkingService.Monitor
