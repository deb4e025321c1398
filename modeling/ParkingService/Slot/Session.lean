import ParkingService.Slot.Daemon
import ParkingService.Slot.Record

/-!
# One session of RPI1

As long as the daemon stays up once it is started, there is no broker that remembers another session
and no daemon that is started without a change to tell. So the proviso of `broker_describes` falls
away: from the first change after the load, what is not published is announced, and before it
nothing has been published at all.

Updates and reads are single steps here. Where they are not, a record may be torn; what the daemon
tells of it is out of date only as long as the flag is up, or one of the two is still under way
(`tells_publish_shown`).
-/

namespace ParkingService.Slots

/-- What holds in a session. -/
structure Rpi1.Session (x : Rpi1) : Prop where
  unloaded : x.driver = none → x.daemon = .off
  silent : x.daemon = .off → x.broker = ⟨none, none, none⟩
  quiet : ∀ d, x.driver = some d → x.announced = false →
    d.statusChanged = false ∧ (∀ st, x.daemon ≠ .publishing st) ∧ x.broker = ⟨none, none, none⟩
  empty : ∀ d, x.driver = some d → x.announced = false → ∀ i, (d.sensor i).occupied = 0
  told : ∀ d, x.driver = some d → x.announced = true →
    d.statusChanged = true ∨ x.daemon ≠ .off ∧ x.Synced d
  held : ∀ d, x.driver = some d → d.status.Storable
  taken : ∀ st, x.daemon = .publishing st → st.Storable

/-- An event of a session: the daemon is not stopped, and the readings have been measured. -/
def Rpi1Event.InSession : Rpi1Event → Prop
  | .stop => False
  | .update _ cm => CanMeasure cm
  | _ => True

section Session

variable {x y : Rpi1} {d : Driver} {i : Slot} {cm : ℤ}

/-- A measured reading can be stored. -/
theorem storable_publish (h : d.status.Storable) (hcm : CanMeasure cm) (i : Slot) :
    (d.publish i cm).status.Storable := by
  have hbefore (j : Slot) := And.intro (h (.occupied j)) (h (.distance j))
  intro f
  cases f with
  | occupied j =>
    by_cases hj : j = i
    · subst hj
      simpa [ParkingStatus.get, Driver.status, Driver.publish, StatusField.CanHold] using
        Or.inr ⟨cm, hcm, rfl⟩
    · simpa [ParkingStatus.get, Driver.status, Driver.publish,
        Driver.modify_sensor_of_ne _ _ hj] using (hbefore j).1
  | distance j =>
    by_cases hj : j = i
    · subst hj
      simpa [ParkingStatus.get, Driver.status, Driver.publish, StatusField.CanHold] using
        Or.inr hcm
    · simpa [ParkingStatus.get, Driver.status, Driver.publish,
        Driver.modify_sensor_of_ne _ _ hj] using (hbefore j).2

theorem Rpi1.Session.init : (Rpi1.init ⟨none, none, none⟩).Session where
  unloaded _ := rfl
  silent _ := rfl
  quiet _ h := by cases h
  empty _ h := by cases h
  told _ h := by cases h
  held _ h := by cases h
  taken _ h := by cases h

theorem storable_driver_init : Driver.init.status.Storable := storable_init

/-- A reading that changes nothing. -/
theorem Rpi1.Synced.publish {dm : Daemon} {b : Broker} {a a' : Bool} {dr dr' : Option Driver}
    (h : Rpi1.Synced ⟨dr, a, dm, b⟩ d) (hsame : (d.sensor i).occupied = occupiedOf cm) :
    Rpi1.Synced ⟨dr', a', dm, b⟩ (d.publish i cm) := by
  have hocc := Driver.occupied_publish hsame
  cases dm with
  | publishing st => exact Eq.trans h hocc.symm
  | off | waiting => exact Broker.Tells.congr h hocc.symm

theorem Rpi1.Session.exec {e : Rpi1Event} (h : x.Session) (he : e.exec x = some y)
    (hin : e.InSession) : y.Session := by
  obtain ⟨driver, announced, daemon, broker⟩ := x
  obtain ⟨hunloaded, hsilent, hquiet, hempty, htold, hheld, htaken⟩ := h
  dsimp only at hunloaded hsilent hquiet hempty htold hheld htaken
  cases e with
  | stop => exact hin.elim
  | load =>
    cases driver with
    | some d => cases he
    | none =>
      obtain rfl := Option.some.inj he
      obtain rfl := hunloaded rfl
      refine ⟨fun h ↦ (by cases h), hsilent, ?_, ?_, fun _ _ h ↦ (by cases h), ?_, htaken⟩
      · rintro _ ⟨⟩ -
        exact ⟨rfl, fun _ h ↦ (by cases h), hsilent rfl⟩
      · rintro _ ⟨⟩ -
        exact fun _ ↦ rfl
      · rintro _ ⟨⟩
        exact storable_driver_init
  | unload =>
    cases driver with
    | none => cases he
    | some d =>
      cases daemon with
      | waiting | publishing => cases he
      | off =>
        obtain rfl := Option.some.inj he
        exact ⟨fun _ ↦ rfl, hsilent, fun _ h ↦ (by cases h), fun _ h ↦ (by cases h),
          fun _ h ↦ (by cases h), fun _ h ↦ (by cases h), htaken⟩
  | start =>
    cases daemon with
    | waiting | publishing => cases driver <;> cases he
    | off =>
      cases driver with
      | none =>
        obtain rfl := Option.some.inj he
        exact ⟨hunloaded, hsilent, hquiet, hempty, htold, hheld, htaken⟩
      | some d =>
        obtain rfl := Option.some.inj he
        refine ⟨fun h ↦ (by cases h), fun h ↦ (by cases h), ?_, hempty, ?_, hheld,
          fun _ h ↦ (by cases h)⟩
        · rintro _ ⟨⟩ hannounced
          exact ⟨(hquiet d rfl hannounced).1, fun _ h ↦ (by cases h), hsilent rfl⟩
        · -- what has been announced before the start has not been taken
          rintro _ ⟨⟩ hannounced
          exact .inl ((htold d rfl hannounced).resolve_right fun h ↦ h.1 rfl)
  | update i cm =>
    cases driver with
    | none => cases he
    | some d =>
      obtain rfl := Option.some.inj he
      refine ⟨fun h ↦ (by cases h), hsilent, ?_, ?_, ?_, ?_, htaken⟩
      · rintro _ ⟨⟩ hannounced
        obtain ⟨hannounced, hsame⟩ := Bool.or_eq_false_iff.mp hannounced
        obtain ⟨hchanged, hrest⟩ := hquiet d rfl hannounced
        refine ⟨?_, hrest⟩
        rw [Driver.publish, hchanged, hsame]
        rfl
      · rintro _ ⟨⟩ hannounced j
        obtain ⟨hannounced, hsame⟩ := Bool.or_eq_false_iff.mp hannounced
        have hocc : (d.sensor i).occupied = occupiedOf cm := not_not.mp (of_decide_eq_false hsame)
        have hzero := hempty d rfl hannounced
        by_cases hj : j = i
        · subst hj
          simpa [Driver.publish, ← hocc] using hzero j
        · simpa [Driver.publish, Driver.modify_sensor_of_ne _ _ hj] using hzero j
      · rintro _ ⟨⟩ hannounced
        by_cases hsame : (d.sensor i).occupied = occupiedOf cm
        · have hbefore : announced = true := by simpa [hsame] using hannounced
          refine (htold d rfl hbefore).imp (fun hchanged ↦ ?_)
            (And.imp id fun hsynced ↦ hsynced.publish hsame)
          rw [Driver.publish, hchanged, Bool.true_or]
        · refine .inl ?_
          simp [Driver.publish, hsame]
      · rintro _ ⟨⟩
        exact storable_publish (hheld d rfl) hin i
  | read =>
    cases daemon with
    | off | publishing => cases driver <;> cases he
    | waiting =>
      cases driver with
      | none => cases he
      | some d =>
        obtain ⟨hchanged, hy⟩ := Option.ite_none_right_eq_some.mp he
        obtain rfl := Option.some.inj hy
        have hannounced : announced = true := by
          by_contra hno
          rw [(hquiet d rfl (Bool.eq_false_iff.mpr hno)).1] at hchanged
          cases hchanged
        have hno (h : announced = false) : False := absurd (hannounced.symm.trans h) (by decide)
        refine ⟨fun h ↦ (by cases h), fun h ↦ (by cases h), fun _ _ h ↦ (hno h).elim,
          fun _ _ h ↦ (hno h).elim, ?_, ?_, ?_⟩
        · rintro _ ⟨⟩ -
          exact .inr ⟨fun h ↦ (by cases h), rfl⟩
        · rintro _ ⟨⟩
          exact hheld d rfl
        · rintro _ ⟨⟩
          exact hheld d rfl
  | publish =>
    cases daemon with
    | off | waiting => cases he
    | publishing st =>
      obtain rfl := Option.some.inj he
      refine ⟨fun h ↦ (by cases hunloaded h), fun h ↦ (by cases h), ?_, hempty, ?_, hheld,
        fun _ h ↦ (by cases h)⟩
      · intro d hd hannounced
        exact absurd rfl ((hquiet d hd hannounced).2.1 st)
      · intro d hd hannounced
        refine (htold d hd hannounced).imp id fun hsynced ↦ ⟨fun h ↦ (by cases h), ?_⟩
        exact (broker.tells_publish st).congr hsynced.2

/-- What the daemon has published last is how things are, once it has nothing more to take. -/
theorem Rpi1.Session.tells (h : x.Session) (hd : x.driver = some d) (hdaemon : x.daemon = .waiting)
    (hchanged : d.statusChanged = false) (hannounced : x.announced = true) :
    x.broker.Tells d.status := by
  obtain hup | ⟨-, hsynced⟩ := h.told d hd hannounced
  · rw [hchanged] at hup
    cases hup
  · rwa [Rpi1.Synced, hdaemon] at hsynced

end Session

/-- What the daemon has published last is how things are, however its reads and the updates of the
worker have been interleaved, once the flag is down and neither is under way. -/
theorem tells_publish_shown {c : WatchedConfig} (hc : WatchedReachable c)
    (hnofail : ∀ l ∈ c.trace, ¬Fails l) (hchanged : c.state.statusChanged = false)
    (hreading : (History.of c.trace).reading = false)
    (hchanging : (History.of c.trace).changing = false) (b : Broker) :
    (b.publish (History.of c.trace).shown).Tells c.state.status := by
  have hocc : (History.of c.trace).shown.occupied = c.state.status.occupied :=
    funext fun i ↦ tells_shown hc hnofail hchanged hreading hchanging (.occupied i)
  exact (b.tells_publish _).congr hocc

end ParkingService.Slots
