import ParkingService.Gate.Bridge

/-!
# What the bridge makes of any samples

`one_event_per_opening_iff` is about runs that are polled in every period and between any two. The
bridge cannot count on that: it sleeps between two polls, and a poll that fails is skipped. Here
nothing is assumed of the polling.

An event is published for exactly those periods whose first poll sees the state with which the
period began, directly after a poll that saw `STATE_IDLE`. A period that no poll falls into is
missed, and so is one that is taken for the rest of the period before it. What is published is
therefore a selection of the events that are due, in their order: none is made up and none is
published twice.
-/

namespace ParkingService

/-- What is published of these periods, when the polls before them have seen `seen`. -/
def reports (seen : List String) : List Period → List Message
  | [] => []
  | p :: ps =>
    (if seen.getLast? = some (stateString .idle) then p.report else [])
      ++ reports (seen ++ (p.polls ++ p.after)) ps

/-- The events that periods deserve. -/
def dueEvents (ps : List Period) : List Message := ps.filterMap fun p ↦ p.cause.map Cause.message

/-! ## Selection -/

theorem Period.report_sublist (p : Period) :
    p.report.Sublist (p.cause.map Cause.message).toList := by
  rw [report]
  split
  · exact .refl _
  · exact List.nil_sublist _

theorem dueEvents_cons (p : Period) (ps : List Period) :
    dueEvents (p :: ps) = (p.cause.map Cause.message).toList ++ dueEvents ps := by
  rw [dueEvents, List.filterMap_cons]
  cases p.cause <;> rfl

/-- No event is made up, and none is published twice. -/
theorem reports_sublist (ps : List Period) (seen : List String) :
    (reports seen ps).Sublist (dueEvents ps) := by
  induction ps generalizing seen with
  | nil => exact .refl _
  | cons p ps ih =>
    rw [reports, dueEvents_cons]
    refine List.Sublist.append ?_ (ih _)
    split
    · exact p.report_sublist
    · exact List.nil_sublist _

/-! ## Polls of states -/

section Polls

variable {b : Bridge} {polls seen : List String}

/-- These polls have seen states. -/
def States (polls : List String) : Prop := ∀ out ∈ polls, ∃ s, out = stateString s

theorem States.append (h : States polls) (hseen : States seen) : States (polls ++ seen) :=
  fun out hout ↦ (List.mem_append.mp hout).elim (h out) (hseen out)

theorem Period.Seen.states {p : Period} (hp : p.Seen) : States (p.polls ++ p.after) := by
  refine States.append (fun out hout ↦ ?_) fun out hout ↦ ⟨_, hp.after out hout⟩
  obtain ⟨s, -, -, hs⟩ := hp.polls out hout
  exact ⟨s, hs⟩

/-- The bridge remembers its last poll. -/
theorem prev_foldl (h : States polls) :
    (polls.foldl Bridge.pollGateState b).prev = polls.getLast?.getD b.prev := by
  induction polls using List.reverseRecOn with
  | nil => rfl
  | append_singleton polls out _ =>
    obtain ⟨s, rfl⟩ := h out (by simp)
    rw [List.foldl_append, List.foldl_cons, List.foldl_nil, Bridge.prev_pollGateState]
    simp

theorem bridge_prev_iff (h : States seen) :
    (bridge seen).prev = "IDLE" ↔ seen.getLast? = some (stateString .idle) := by
  rw [bridge, prev_foldl h]
  cases seen.getLast? with
  | none => simp [Bridge.init]
  | some out => simp [stateString]

/-- A period is reported if the poll before it has seen `STATE_IDLE`. -/
theorem events_period {p : Period} (hp : p.Seen) :
    (p.polls.foldl Bridge.pollGateState b).events
      = b.events ++ if b.prev = "IDLE" then p.report else [] := by
  by_cases hne : p.polls = []
  · have hreport : p.report = [] := if_neg fun ⟨out, hout, _⟩ ↦ by simp [hne] at hout
    rw [hne, hreport, ite_self, List.append_nil, List.foldl_nil]
  by_cases hb : b.prev = "IDLE"
  · rw [if_pos hb]
    exact foldl_period hp hne hb
  · rw [if_neg hb, List.append_nil]
    refine foldl_open (fun out hout ↦ ?_) hb
    obtain ⟨s, hs, -, hout⟩ := hp.polls out hout
    exact ⟨s, hs, hout⟩

/-- Period after period, whatever polls there are. -/
theorem events_periods {ps : List Period} (hps : ∀ p ∈ ps, p.Seen) (hseen : States seen) :
    (bridge (seen ++ ps.flatMap fun p ↦ p.polls ++ p.after)).events
      = (bridge seen).events ++ reports seen ps := by
  induction ps generalizing seen with
  | nil => simp [reports]
  | cons p ps ih =>
    have hp := hps p List.mem_cons_self
    have hfirst : (bridge (seen ++ (p.polls ++ p.after))).events
        = (bridge seen).events
          ++ if seen.getLast? = some (stateString .idle) then p.report else [] := by
      rw [bridge, List.foldl_append, List.foldl_append, (foldl_idle hp.after).1, events_period hp]
      simp only [← bridge_prev_iff hseen, bridge]
    rw [List.flatMap_cons, ← List.append_assoc,
      ih (fun q hq ↦ hps q (List.mem_cons_of_mem _ hq)) (hseen.append hp.states), hfirst, reports,
      List.append_assoc]

end Polls

/-! ## Every sampling -/

/-- **The events of any sampling.** However a run is polled, the bridge publishes the event of
exactly those periods whose first poll sees the state with which the period began, directly after a
poll that saw `STATE_IDLE`, in their order; so what it publishes is a selection of the events that
are due. -/
theorem events_of_any_sampling {c : GateConfig} (hc : GateReachable c) :
    (bridge (polled c.trace)).events = reports (history c.trace).before (periods c.trace)
      ∧ (bridge (polled c.trace)).events.Sublist (dueEvents (periods c.trace)) := by
  have ha := accounts_of_always (orderly_of_reachable hc) (truthful_of_reachable hc).2
  have hps (p : Period) (hp : p ∈ periods c.trace) : p.Seen :=
    ha.seen p (List.mem_reverse.mp hp)
  have hpolls : polled c.trace = (history c.trace).before
      ++ (periods c.trace).flatMap fun p ↦ p.polls ++ p.after := ha.polls
  have hevents : (bridge (polled c.trace)).events
      = reports (history c.trace).before (periods c.trace) := by
    rw [hpolls, events_periods hps fun out hout ↦ ⟨_, ha.before out hout⟩, bridge,
      (foldl_idle ha.before).1]
    rfl
  exact ⟨hevents, hevents ▸ reports_sublist _ _⟩

/-- A vehicle enters, and the only poll in its period is in time. -/
theorem events_of_any_sampling_entry : ∃ c, GateReachable c
    ∧ periods c.trace = [⟨some .sensor, ["ENTRY_DETECTED"], []⟩]
    ∧ (bridge (polled c.trace)).events = reports (history c.trace).before (periods c.trace)
    ∧ (bridge (polled c.trace)).events.Sublist (dueEvents (periods c.trace)) := by
  obtain ⟨c₁, h₁, -, -, hs₁, tr, htr, hsignals⟩ := turn_entry (c := polledOnce) (e := .ofCm 5) 0
    rfl rfl rfl (vehicleInRange_ofCm (by decide))
  obtain ⟨c, hc, -, -, hperiods⟩ := polled_opening (polledOnce_reachable.trans h₁)
    (entryTurn (.ofCm 5) 0) .sensor hs₁ ⟨tr, htr, hsignals⟩ (polled_entryTurn _ _)
    (foldl_entryTurn _ _ _) (by decide)
  exact ⟨c, hc, hperiods, events_of_any_sampling hc⟩

end ParkingService
