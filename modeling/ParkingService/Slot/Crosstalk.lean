import ParkingService.Slot.Trigger

/-!
# Crosstalk

The sensors are to be measured one after the other, so that none of them hears the echo of the
other. Nothing in the driver sees to it: each sensor has its own lock and its own state, and the
timer goes round both of them in one tick, so that two idle sensors are started together.
`measuresApart_iff` says that this is the only way to it.

That an echo is `Outstanding` is said of the trace, by requests and edges; `outstanding_iff` is the
connection with the state.
-/

namespace ParkingService.Slots

open Concurrency

variable {i j : Slot} {c c' : SlotConfig} {l : SlotLabel} {tr : List SlotLabel}

/-! ## Outstanding echoes -/

/-- A measurement of slot `i` has been requested, and its echo is not over. -/
def Outstanding (i : Slot) (tr : List SlotLabel) : Prop :=
  Requested i tr ∨ ∃ start, Rising i start tr

/-- While an echo is under way, it is not awaited. -/
theorem Rising.not_requested {start : ℤ} (h : Rising i start tr) : ¬Requested i tr := by
  intro hreq
  obtain ⟨pre, l, post, rfl, ⟨rfl, hrequested⟩, hpost⟩ := h
  -- the request is older than the edge that was seen
  have hkeep := (hreq.of_append ?_).2
  · exact (hkeep (.ext (.echoIsr i start 1)) (by simp)).2.2 ⟨rfl, rfl⟩
  · rintro late l rest heq
    have hmem : l ∈ Label.ext (SlotEvent.echoIsr i start 1) :: post := by simp [heq]
    rcases List.mem_cons.mp hmem with rfl | hl
    · exact id
    · exact (hpost l hl).1

theorem IsRequest.exists_eq (h : IsRequest i l) : ∃ t, l = .op t (.request i) true := by
  cases l with
  | op t o r =>
    cases o with
    | request j =>
      obtain ⟨rfl, rfl⟩ : j = i ∧ r = true := h
      exact ⟨t, rfl⟩
    | _ => exact h.elim
  | _ => exact h.elim

namespace Outstanding

/-- Only a request makes an echo outstanding. -/
theorem of_append (h : Outstanding i (tr ++ [l])) : IsRequest i l ∨ Outstanding i tr := by
  rcases h with hreq | ⟨start, hrise⟩
  · rcases since_append_singleton.mp hreq with hnow | ⟨hbefore, -⟩
    · exact .inl hnow
    · exact .inr (.inl hbefore)
  · rcases since_append_singleton.mp hrise with ⟨-, hbefore⟩ | ⟨hbefore, -⟩
    · exact .inr (.inl hbefore)
    · exact .inr (.inr ⟨start, hbefore⟩)

theorem exists_request (h : Outstanding i tr) : ∃ l ∈ tr, IsRequest i l := by
  induction tr using List.reverseRecOn with
  | nil =>
    rcases h with h | ⟨start, h⟩
    · exact absurd h not_since_nil
    · exact absurd h not_since_nil
  | append_singleton tr l ih =>
    rcases h.of_append with hl | h
    · exact ⟨l, by simp, hl⟩
    · obtain ⟨l', hl', hrequest⟩ := ih h
      exact ⟨l', List.mem_append_left _ hl', hrequest⟩

/-- A request of another slot does not end it. -/
theorem append_request (h : Outstanding j tr) (hl : IsRequest i l) (hij : i ≠ j) :
    Outstanding j (tr ++ [l]) := by
  obtain ⟨t, rfl⟩ := hl.exists_eq
  have hother : ¬IsRequest j (.op t (.request i) true) := fun h ↦ hij h.1
  rcases h with hreq | ⟨start, hrise⟩
  · exact .inl (hreq.append ⟨hother, id, id⟩)
  · exact .inr ⟨start, hrise.append ⟨hother, id, id⟩⟩

/-- The work item ends it. -/
theorem not_of_take (h : IsTake i l) : ¬Outstanding i (tr ++ [l]) := by
  rintro (hreq | ⟨start, hrise⟩)
  · rcases since_append_singleton.mp hreq with hnow | ⟨-, hkeep⟩
    · exact hnow.not_isTake h
    · exact hkeep.2.1 h
  · rcases since_append_singleton.mp hrise with ⟨rfl, -⟩ | ⟨-, hkeep⟩
    · exact h
    · exact hkeep.2.1 h

/-- An edge that the sensor waits for ends the one part of it or the other. -/
theorem not_of_falling {start now : ℤ} (h : Rising i start tr) :
    ¬Outstanding i (tr ++ [.ext (.echoIsr i now 0)]) := by
  rintro (hreq | ⟨start', hrise⟩)
  · rcases since_append_singleton.mp hreq with hnow | ⟨hbefore, -⟩
    · exact hnow
    · exact h.not_requested hbefore
  · rcases since_append_singleton.mp hrise with ⟨-, hbefore⟩ | ⟨-, hkeep⟩
    · exact h.not_requested hbefore
    · exact hkeep.2.2 ⟨rfl, rfl⟩

end Outstanding

theorem IsRequest.outstanding (h : IsRequest i l) : Outstanding i (tr ++ [l]) := .inl (.now h)

/-- A sensor is in flight exactly while its echo is outstanding. -/
theorem outstanding_iff (hc : SlotReachable c) : Outstanding i c.trace ↔ InFlight i c.state := by
  refine ⟨?_, fun h ↦ ?_⟩
  · refine hc.invariant_of_labels (I := fun s ↦ Outstanding i s.trace → InFlight i s.state)
      (P := fun _ ↦ True) (fun _ _ ↦ trivial) ?_ ?_
    · intro h
      obtain ⟨l, hl, -⟩ := h.exists_request
      cases hl
    · intro c₁ c₂ l hsteps hstep hemits hlog _ ih
      rw [hlog, Snap.log_trace, Snap.log_state]
      intro hout
      have hsound := echoSound_of_reachable hsteps i
      by_cases hrequest : ∃ t r, l = .op t (.request i) r
      · obtain ⟨t, r, rfl⟩ := hrequest
        obtain ⟨hr, heffect⟩ := SlotOp.exec_eq_some.mp hemits
        obtain rfl : r = decide ((c₁.state.sensor i).state = .idle) := hr
        rw [← heffect]
        -- a request that is refused finds the sensor in flight or does not make it so
        by_cases hidle : (c₁.state.sensor i).state = .idle
        · exact .inl (by simp [SlotOp.effect, hidle])
        · refine (inFlight_congr (by simp [SlotOp.effect, hidle])).mpr (ih ?_)
          exact hout.of_append.resolve_left fun h ↦ hidle (of_decide_eq_true h.2)
      by_cases htake : IsTake i l
      · exact absurd hout (Outstanding.not_of_take htake)
      have hbefore : Outstanding i c₁.trace := by
        refine hout.of_append.resolve_left fun h ↦ ?_
        obtain ⟨t, rfl⟩ := h.exists_eq
        exact hrequest ⟨t, true, rfl⟩
      by_cases hecho : ∃ now pinVal, l = .ext (.echoIsr i now pinVal)
      · obtain ⟨now, pinVal, rfl⟩ := hecho
        obtain hexec : (SlotEvent.echoIsr i now pinVal).exec c₁.state = c₂.state :=
          Option.some.inj hemits
        rw [← hexec]
        obtain ⟨-, -, hexec⟩ | ⟨hlow, rfl, -⟩ | ⟨-, -, hexec⟩ :=
          SlotEvent.exec_cases i now pinVal c₁.state
        · rw [hexec]
          exact .inr (by simp)
        · exact absurd hout (Outstanding.not_of_falling (hsound.low hlow))
        · rw [hexec]
          exact ih hbefore
      · refine (inFlight_congr (echo_of_emits hemits ?_ htake ?_)).mpr (ih hbefore)
        · exact fun t r hl ↦ hrequest ⟨t, r, hl⟩
        · exact fun now pinVal hl ↦ hecho ⟨now, pinVal, hl⟩
  · have hsound := echoSound_of_reachable hc i
    rcases h with hhigh | hlow
    · exact .inl (hsound.high hhigh)
    · exact .inr ⟨_, hsound.low hlow⟩

/-! ## One after the other -/

/-- A measurement is requested only while no other echo is outstanding. -/
def Sequential (pre : List SlotLabel) (l : SlotLabel) : Prop :=
  ∀ i j, i ≠ j → IsRequest i l → ¬Outstanding j pre

/-- A trigger is fired only while no other echo is outstanding. -/
def FiresApart (pre : List SlotLabel) (l : SlotLabel) : Prop :=
  ∀ i j, i ≠ j → isFire i l → ¬Outstanding j pre

/-- Up to `c` the sensors have never been measured at the same time, and no trigger has disturbed
the other sensor. -/
structure MeasuresApart (c : SlotConfig) : Prop where
  states : ∀ c₁, SlotReachable c₁ → slotMachine.Steps c₁ c →
    ∀ i j, i ≠ j → ¬(InFlight i c₁.state ∧ InFlight j c₁.state)
  triggers : Always FiresApart c.trace

/-- If the requests come one after the other, then so do the measurements. -/
theorem not_outstanding_of_sequential (h : Always Sequential tr) (hij : i ≠ j)
    (hi : Outstanding i tr) : ¬Outstanding j tr := by
  induction tr using List.reverseRecOn with
  | nil =>
    obtain ⟨l, hl, -⟩ := hi.exists_request
    cases hl
  | append_singleton tr l ih =>
    obtain ⟨hbefore, hl⟩ := always_append_singleton.mp h
    intro hj
    -- what is outstanding is so by this label or has been before
    rcases hi.of_append with hnow | hi
    · rcases hj.of_append with hnow' | hj
      · obtain ⟨t, rfl⟩ := hnow.exists_eq
        exact hij hnow'.1
      · exact hl i j hij hnow hj
    · rcases hj.of_append with hnow | hj
      · exact hl j i hij.symm hnow hi
      · exact ih hbefore hi hj

/-- A measurement that has been requested while another one was under way makes two. -/
theorem sequential_of_states (hc : SlotReachable c)
    (h : ∀ c₁, SlotReachable c₁ → slotMachine.Steps c₁ c →
      ∀ i j, i ≠ j → ¬(InFlight i c₁.state ∧ InFlight j c₁.state)) :
    Always Sequential c.trace := by
  induction hc with
  | refl => exact always_nil
  | @tail c₁ c₂ hsteps hstep ih =>
    have hbefore : Always Sequential c₁.trace :=
      ih fun c₀ h₀ hrest ↦ h c₀ h₀ (hrest.tail hstep)
    obtain hsame | ⟨l, -, hlog⟩ := hstep.emits
    · rwa [hsame]
    have hreach : SlotReachable c₂ := hsteps.tail hstep
    have htrace : c₂.trace = c₁.trace ++ [l] := congrArg Snap.trace hlog
    rw [htrace]
    refine always_append_singleton.mpr ⟨hbefore, fun i j hij hl hj ↦ ?_⟩
    have hi : Outstanding i c₂.trace := by
      rw [htrace]
      exact hl.outstanding
    have hj' : Outstanding j c₂.trace := by
      rw [htrace]
      exact hj.append_request hl hij
    exact h c₂ hreach .refl i j hij
      ⟨(outstanding_iff hreach).mp hi, (outstanding_iff hreach).mp hj'⟩

/-! ## The triggers -/

/-- Only the timer requests measurements, and it fires what it has requested. -/
def crosstalkOutline : Outline slotMachine where
  known _ := True
  inv s := (∀ i, ∀ l ∈ s.trace, IsRequest i l → l.by? = some .timer)
    ∧ (Always Sequential s.trace → Always FiresApart s.trace)

/-- The timer has requested a measurement of slot `i` and not fired the trigger yet. -/
def startedAlone (i : Slot) : crosstalkOutline.Assertion .timer where
  holds s := Always Sequential s.trace → ∀ j, i ≠ j → ¬Outstanding j s.trace
  stable {s l x} _ hl _ hgood h := by
    rw [Snap.log_trace]
    intro hsequential j hij hout
    rcases hout.of_append with hrequest | hout
    · refine hl (hgood.2.1 j l ?_ hrequest)
      rw [Snap.log_trace]
      exact List.mem_append_right _ (List.mem_singleton_self l)
    · exact h (always_append_singleton.mp hsequential).1 j hij hout

theorem crosstalkOutline_log {s : SlotSnap} {x : Driver} (hs : crosstalkOutline.inv s)
    (hrequest : ∀ i, IsRequest i l → l.by? = some .timer)
    (hfire : Always Sequential s.trace → FiresApart s.trace l) :
    crosstalkOutline.inv (s.log x l) := by
  refine ⟨fun i l' hl' h ↦ ?_, fun hsequential ↦ ?_⟩
  · rw [Snap.log_trace] at hl'
    rcases List.mem_append.mp hl' with hl' | hl'
    · exact hs.1 i l' hl' h
    · rw [List.mem_singleton.mp hl'] at h ⊢
      exact hrequest i h
  · obtain ⟨hbefore, -⟩ := always_append_singleton.mp hsequential
    exact always_append_singleton.mpr ⟨hs.2 hbefore, hfire hbefore⟩

theorem measureSlot_startsAlone (i : Slot) :
    crosstalkOutline.Triple .timer .top (measureSlot i) fun _ ↦ .top := by
  refine .bind (.call (R := fun r ↦ if r then startedAlone i else .top) ?_) fun r ↦ .ite ?_ ?_
  · rintro s r x hs - - -
    refine ⟨crosstalkOutline_log hs.2 (fun _ _ ↦ rfl) fun _ _ _ _ h ↦ (by cases h), ?_⟩
    cases r with
    | false => trivial
    | true =>
      intro hsequential j hij hout
      have hnow : IsRequest i (.op .timer (.request i) true : SlotLabel) := ⟨rfl, rfl⟩
      rcases hout.of_append with hrequest | hout
      · exact hij hrequest.1
      · exact (always_append_singleton.mp hsequential).2 i j hij hnow hout
  · rintro rfl
    refine .call fun s r x hs halone _ _ ↦ ⟨crosstalkOutline_log hs.2 (fun _ ↦ False.elim) ?_,
      trivial⟩
    intro hbefore k j hkj h
    obtain rfl : i = k := of_decide_eq_true h
    exact halone hbefore j hkj
  · intro _
    exact .ret fun _ _ _ ↦ trivial

/-- Operations other than requests. -/
def SlotOp.NoRequest : SlotOp → Prop
  | .request _ => False
  | _ => True

theorem crosstalk_frame {t : Thread} {p : SlotProg Unit} (ht : t ≠ .timer)
    (hp : p.Uses SlotOp.NoRequest) : crosstalkOutline.Triple t .top p fun _ ↦ .top := by
  refine .frame hp fun o ho s r x hs _ _ _ ↦
    ⟨crosstalkOutline_log hs.2 (fun i h ↦ ?_) fun _ i _ _ h ↦ ?_, trivial⟩
  · obtain ⟨t', hl⟩ := h.exists_eq
    obtain ⟨-, rfl, -⟩ := Label.op.inj hl
    exact ho.elim
  · cases t <;> first | exact absurd rfl ht | cases h

theorem work_noRequest (w : Work) : w.func.Uses SlotOp.NoRequest := by
  cases w with
  | sensor i =>
    refine ⟨trivial, fun r ↦ Prog.uses_ite (fun _ ↦ ?_) fun _ ↦ trivial⟩
    refine Prog.uses_bind ((updateStatus_uses i _).mono fun o ho ↦ ?_) fun _ ↦
      (lockMachine_uses i _).mono fun o ho ↦ ?_
    · cases o <;> trivial
    · cases o <;> trivial
  | lock i =>
    refine (lockWorkFunc_uses i).mono fun o ho ↦ ?_
    cases o <;> trivial

theorem crosstalkOutline_valid : crosstalkOutline.Valid fun _ ↦ .top where
  ext hs _ _ := crosstalkOutline_log hs.2 (fun _ ↦ False.elim) fun _ _ _ _ h ↦ (by cases h)
  start {t j s p x} hs _ hentry _ := by
    have hinv : crosstalkOutline.inv (s.log x (.start t j)) :=
      crosstalkOutline_log hs.2 (fun _ ↦ False.elim) fun _ _ _ _ h ↦ (by cases h)
    refine ⟨hinv, ?_⟩
    obtain ⟨w, rfl, -, rfl, -⟩ | ⟨rfl, -, rfl, -⟩ | ⟨k, rfl, -, rfl, -⟩ := slotEntry_cases hentry
    · exact crosstalk_frame (by decide) (work_noRequest w) _ ⟨trivial, hinv⟩ trivial
    · exact Outline.Triple.bind (measureSlot_startsAlone 0) (fun _ ↦ measureSlot_startsAlone 1) _
        ⟨trivial, hinv⟩ trivial
    · refine crosstalk_frame (by simp) ((btnIsr_uses k).mono fun o ho ↦ ?_) _ ⟨trivial, hinv⟩
        trivial
      cases o <;> trivial

theorem firesApart_of_reachable (hc : SlotReachable c) (h : Always Sequential c.trace) :
    Always FiresApart c.trace := by
  refine (crosstalkOutline_valid.reachable ?_ (fun _ ↦ trivial) hc fun _ _ ↦ trivial).1.2 h
  exact ⟨fun i l hl ↦ (by cases hl), fun _ ↦ always_nil⟩

/-- **When the sensors are measured one after the other.** The timer never finds a sensor idle while
the echo of the other one is outstanding. -/
theorem measuresApart_iff (hc : SlotReachable c) :
    MeasuresApart c ↔ Always Sequential c.trace := by
  refine ⟨fun h ↦ sequential_of_states hc h.states, fun h ↦ ?_⟩
  refine ⟨fun c₁ hc₁ hsteps i j hij ⟨hi, hj⟩ ↦ ?_, firesApart_of_reachable hc h⟩
  have hbefore : Always Sequential c₁.trace := h.of_prefix (Machine.Steps.trace_prefix hsteps)
  exact not_outstanding_of_sequential hbefore hij ((outstanding_iff hc₁).mpr hi)
    ((outstanding_iff hc₁).mpr hj)

/-- The first tick starts both sensors. -/
theorem first_tick_measures_both : ∃ c, SlotReachable c ∧ ¬MeasuresApart c := by
  have hrun : ∃ c, SlotReachable c ∧ InFlight 0 c.state ∧ InFlight 1 c.state := by
    refine ⟨_, .tail (.tail (.tail (.single
      (.start (t := .timer) (j := .tick) rfl rfl))
      (.op (t := .timer) (o := .request 0) (r := true) rfl rfl))
      (.op (t := .timer) (o := .fireTrigger 0) (r := ()) rfl rfl))
      (.op (t := .timer) (o := .request 1) (r := true) rfl rfl), ?_, ?_⟩
    · exact .inl rfl
    · exact .inl rfl
  obtain ⟨c, hc, h₀, h₁⟩ := hrun
  exact ⟨c, hc, fun h ↦ h.states c hc .refl 0 1 (by decide) ⟨h₀, h₁⟩⟩

theorem Sequential.of_state (hc : SlotReachable c)
    (h : ∀ i j, i ≠ j → IsRequest i l → ¬InFlight j c.state) : Sequential c.trace l :=
  fun i j hij hl hj ↦ h i j hij hl ((outstanding_iff hc).mp hj)

/-- An echo that is over before the timer comes to the other slot does no harm. -/
theorem quick_echo_measures_apart : ∃ c, MeasuresApart c ∧ InFlight 1 c.state := by
  obtain ⟨c₁, hc₁, hrun, hidle, hdone, htrace⟩ : ∃ c : SlotConfig, SlotReachable c
      ∧ c.thread .timer = some (measureSlot 1) ∧ (c.state.sensor 1).state = .idle
      ∧ (c.state.sensor 0).state = .done
      ∧ c.trace = [.start .timer .tick] ++ [.op .timer (.request 0) true]
        ++ [.op .timer (.fireTrigger 0) ()] ++ [.ext (.echoIsr 0 100 1)]
        ++ [.ext (.echoIsr 0 400 0)] := by
    exact ⟨_, .tail (.tail (.tail (.tail (.single (.start (t := .timer) (j := .tick) rfl rfl))
      (.op (t := .timer) (o := .request 0) (r := true) rfl rfl))
      (.op (t := .timer) (o := .fireTrigger 0) (r := ()) rfl rfl))
      (.ext (e := .echoIsr 0 100 1) rfl)) (.ext (e := .echoIsr 0 400 0) rfl),
      rfl, rfl, rfl, rfl⟩
  have hbefore : Always Sequential c₁.trace := by
    have hquiet {pre : List SlotLabel} {l : SlotLabel} (hl : ∀ i, ¬IsRequest i l) :
        Sequential pre l := fun i _ _ h ↦ absurd h (hl i)
    rw [htrace]
    refine always_append_singleton.mpr ⟨always_append_singleton.mpr ⟨always_append_singleton.mpr
      ⟨always_append_singleton.mpr ⟨?_, fun _ j _ _ hj ↦ ?_⟩, hquiet fun _ ↦ id⟩,
      hquiet fun _ ↦ id⟩, hquiet fun _ ↦ id⟩
    · have hstart : Always Sequential ([] ++ [.start .timer .tick]) :=
        always_append_singleton.mpr ⟨always_nil, hquiet fun _ ↦ id⟩
      exact hstart
    · obtain ⟨l, hl, hrequest⟩ := hj.exists_request
      rw [List.mem_singleton.mp hl] at hrequest
      exact hrequest
  have hgrant : (SlotOp.request 1).exec true c₁.state
      = some ((SlotOp.request 1).effect c₁.state) :=
    SlotOp.exec_eq_some.mpr ⟨(decide_eq_true hidle).symm, rfl⟩
  have hstep : slotMachine.Step c₁ ⟨c₁.toSnap.log _ (.op .timer (.request 1) true), _⟩ :=
    .op (M := slotMachine) (t := .timer) hrun hgrant
  have hc : SlotReachable _ := hc₁.tail hstep
  refine ⟨_, (measuresApart_iff hc).mpr (always_append_singleton.mpr ⟨hbefore, ?_⟩), .inl ?_⟩
  · refine .of_state hc₁ fun i j hij hrequest h ↦ ?_
    obtain rfl : (1 : Slot) = i := hrequest.1
    match j with
    | 0 => rcases h with h | h <;> rw [hdone] at h <;> cases h
    | 1 => exact hij rfl
  · simp [SlotOp.effect, hidle]

end ParkingService.Slots
