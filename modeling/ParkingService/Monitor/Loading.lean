import ParkingService.Monitor.Agreement

/-!
# Loading the page while messages arrive

`fetchState` and `connectMqtt` run side by side: while the request for the snapshot is under way,
the page already takes messages. `applyState` then puts the snapshot over whatever they have said.
Nothing tells the page which of the two is older, so a snapshot that was taken before a message
replaces what the message said, until the next message on its topic.

A `Run` is one load of the page, with every order of what the collector and the page receive, of the
snapshot and of its arrival. Of each topic the page ends up with the last message unless a newer one
than the snapshot's came before the snapshot did and none came after it (`Run.upToDate_iff`).
-/

namespace ParkingService.Monitor

open Json

/-! ## What a message says about a topic -/

inductive Topic
  | slot
  | distance
  | lot
  | gate

/-- What is shown for a topic. -/
def Shown : Topic → Type
  | .slot => Pair Value
  | .distance => Pair (Option Value)
  | .lot | .gate => Value

def Readings.get (b : Readings) : (T : Topic) → Shown T
  | .slot => b.slot
  | .distance => b.distance
  | .lot => b.lotState
  | .gate => b.gateState

/-- What an update says about a topic, if anything. -/
def Update.get? : Update → (T : Topic) → Option (Shown T)
  | .slot v w, .slot => some (⟨v, w⟩ : Pair Value)
  | .distance v w, .distance => some (⟨some v, some w⟩ : Pair (Option Value))
  | .lot v, .lot => some (v : Value)
  | .gate v, .gate => some (v : Value)
  | _, _ => none

/-- What the page makes of a message. -/
def updateOf (m : Message) : Update :=
  match route m.topic, jsonParse m.payload with
  | .slot, some (.obj ms) => .slot (number (field ms "slot1")) (number (field ms "slot2"))
  | .distance, some (.obj ms) => .distance (number (field ms "slot1")) (number (field ms "slot2"))
  | .lot, _ => .lot (text m.payload)
  | .gate, _ => .gate (text m.payload)
  | .event, some (.obj ms) => .event (text m.topic) (field ms "event") (field ms "reason")
  | _, _ => .nothing

/-- What some messages say about a topic. -/
def about (T : Topic) (ms : List Message) : List (Shown T) :=
  ms.filterMap fun m ↦ (updateOf m).get? T

/-- What the last message on a topic says. -/
def latest (T : Topic) (ms : List Message) : Shown T :=
  (about T ms).getLast?.getD (Readings.start.get T)

theorem about_append (T : Topic) (ms ms' : List Message) :
    about T (ms ++ ms') = about T ms ++ about T ms' := List.filterMap_append

theorem latest_append (T : Topic) (ms ms' : List Message) :
    latest T (ms ++ ms') = (about T ms').getLast?.getD (latest T ms) := by
  rw [latest, latest, about_append, List.getLast?_append]
  cases (about T ms').getLast? <;> rfl

theorem Tells.updateOf_eq {p : Platform} {m : Message} {u : Update} (h : Tells p m u) :
    updateOf m = u := by
  unfold updateOf
  cases h with
  | slot hroute hreads hs ht =>
    simp [hroute, hreads.parse, field_of_member hs.member, field_of_member ht.member, number]
  | distance hroute hreads hk hn =>
    simp [hroute, hreads.parse, field_of_member hk.member, field_of_member hn.member, number]
  | lot hroute | gate hroute => simp [hroute]
  | event hroute hreads hv hw =>
    simp [hroute, hreads.parse, field_of_member hv.member, field_of_member hw.member]
  | rejected hroute hloads hparse =>
    rcases hroute with hroute | hroute | hroute <;> simp [hroute, hparse]
  | heartbeat hroute | unknown hroute => simp [hroute]

theorem forall₂_updateOf {p : Platform} {ms : List Message} (h : ∀ m ∈ ms, ∃ u, Tells p m u) :
    List.Forall₂ (Tells p) ms (ms.map updateOf) := by
  refine List.forall₂_map_right_iff.mpr (List.forall₂_same.mpr fun m hm ↦ ?_)
  obtain ⟨u, hu⟩ := h m hm
  rwa [hu.updateOf_eq]

theorem step_get (b : Readings) (u : Update) (T : Topic) :
    (b.step u).get T = (u.get? T).getD (b.get T) := by
  cases u <;> cases T <;> rfl

/-- **The last message on a topic counts.** -/
theorem foldl_get (ms : List Message) (b : Readings) (T : Topic) :
    ((ms.map updateOf).foldl Readings.step b).get T = (about T ms).getLast?.getD (b.get T) := by
  induction ms generalizing b with
  | nil => rfl
  | cons m ms ih =>
    rw [List.map_cons, List.foldl_cons, ih, step_get, ← List.singleton_append, about_append,
      List.getLast?_append]
    cases hms : (about T ms).getLast? with
    | some v => rfl
    | none => cases hm : (updateOf m).get? T <;> simp [about, hm]

/-! ## A load -/

/-- What happens while a page is loaded. -/
inductive LoadEvent
  /-- a message reaches the collector -/
  | stored (m : Message)
  /-- a message reaches the page -/
  | shown (m : Message)
  /-- the server answers the request for the snapshot -/
  | snapshot
  /-- the answer reaches the page -/
  | apply

def LoadEvent.stored? : LoadEvent → Option Message
  | .stored m => some m
  | _ => none

def LoadEvent.shown? : LoadEvent → Option Message
  | .shown m => some m
  | _ => none

/-- A message reaches one of the two. -/
def LoadEvent.IsDelivery : LoadEvent → Prop
  | .stored _ | .shown _ => True
  | .snapshot | .apply => False

structure Loading where
  /-- the messages that have reached the collector -/
  stored : List Message
  response : Option Snapshot
  page : Page

def Loading.start : Loading where
  stored := []
  response := none
  page := .start

def Loading.step (p : Platform) (s : Loading) : LoadEvent → Loading
  | .stored m => { s with stored := s.stored ++ [m] }
  | .shown m => { s with page := s.page.onMessage m.shown m.topic m.payload }
  | .snapshot => { s with response := getDashboardState (collect p .start s.stored).db }
  | .apply => { s with page := (s.response.map s.page.applyState).getD s.page }

/-- A load of the page, by the deliveries before the snapshot, before it arrives, and after that.
All messages reach the collector, and the page all from the moment when it subscribes. -/
structure Run where
  published : List Message
  /-- how many messages are published before the page subscribes -/
  missed : ℕ
  before : List LoadEvent
  between : List LoadEvent
  after : List LoadEvent
  deliveries : ∀ e ∈ before ++ between ++ after, e.IsDelivery
  stored : (before ++ between ++ after).filterMap LoadEvent.stored? = published
  shown : (before ++ between ++ after).filterMap LoadEvent.shown? = published.drop missed

namespace Run

variable (r : Run)

def events : List LoadEvent := r.before ++ .snapshot :: (r.between ++ .apply :: r.after)

/-- The page when everything has been delivered. -/
def page (p : Platform) : Page := (r.events.foldl (Loading.step p) .start).page

/-- The messages in the snapshot. -/
def contained : List Message := r.before.filterMap LoadEvent.stored?

/-- The messages that reach the page before the snapshot does. -/
def shownBefore : List Message := (r.before ++ r.between).filterMap LoadEvent.shown?

/-- The messages that reach the page after the snapshot. -/
def shownAfter : List Message := r.after.filterMap LoadEvent.shown?

/-- The messages that are in the snapshot or reach the page, as they were published. -/
def received : List Message :=
  r.contained ++ r.published.drop (max r.contained.length r.missed)

end Run

theorem foldl_deliveries (p : Platform) {es : List LoadEvent} (h : ∀ e ∈ es, e.IsDelivery)
    (s : Loading) :
    es.foldl (Loading.step p) s =
      { s with
        stored := s.stored ++ es.filterMap LoadEvent.stored?
        page := watch s.page (es.filterMap LoadEvent.shown?) } := by
  induction es generalizing s with
  | nil => simp [watch]
  | cons e es ih =>
    rw [List.foldl_cons, ih fun e' he' ↦ h e' (List.mem_cons_of_mem _ he')]
    cases e with
    | stored m | shown m =>
      simp [Loading.step, List.filterMap_cons, LoadEvent.stored?, LoadEvent.shown?, watch]
    | snapshot | apply => exact absurd (h _ List.mem_cons_self) id

namespace Run

variable {p : Platform} {r : Run}

theorem page_eq (p : Platform) (r : Run) :
    r.page p = watch ((watch .start r.shownBefore).applyState
      (getDashboardState (collect p .start r.contained).db)) r.shownAfter := by
  have hbefore : ∀ e ∈ r.before, e.IsDelivery := fun e he ↦ r.deliveries e (by simp [he])
  have hbetween : ∀ e ∈ r.between, e.IsDelivery := fun e he ↦ r.deliveries e (by simp [he])
  have hafter : ∀ e ∈ r.after, e.IsDelivery := fun e he ↦ r.deliveries e (by simp [he])
  rw [page, events, List.foldl_append, foldl_deliveries p hbefore, List.foldl_cons,
    List.foldl_append, foldl_deliveries p hbetween, List.foldl_cons, foldl_deliveries p hafter]
  simp [Loading.step, Loading.start, watch, shownBefore, shownAfter, contained]

theorem published_eq (r : Run) : ∃ ms, r.published = r.contained ++ ms := by
  refine ⟨(r.between ++ r.after).filterMap LoadEvent.stored?, ?_⟩
  rw [← r.stored, contained, ← List.filterMap_append, List.append_assoc]

theorem drop_missed (r : Run) : r.published.drop r.missed = r.shownBefore ++ r.shownAfter := by
  rw [← r.shown, shownBefore, shownAfter, List.filterMap_append]

/-- **What the page shows of a topic**: the snapshot, unless something has come after it. -/
theorem page_get (r : Run) (h : ∀ m ∈ r.published, ∃ u, Tells p m u) (T : Topic) :
    (r.page p).screen.readings.get T =
      (about T r.shownAfter).getLast?.getD (latest T r.contained) := by
  obtain ⟨ms, hms⟩ := r.published_eq
  have hcontained : ∀ m ∈ r.contained, ∃ u, Tells p m u := fun m hm ↦
    h m (hms ▸ List.mem_append_left _ hm)
  have hafter : ∀ m ∈ r.shownAfter, ∃ u, Tells p m u := fun m hm ↦
    h m (List.mem_of_mem_drop (r.drop_missed ▸ List.mem_append_right _ hm))
  obtain ⟨hcollect, hsound⟩ :=
    collect_readings (forall₂_updateOf hcontained) (s := .start) Database.empty_sound
  -- what was shown before the snapshot is gone
  rw [page_eq, (watch_rendered (Page.applyState_rendered _ _) _).readings,
    watch_readings (forall₂_updateOf hafter), applyState_readings hsound, hcollect, foldl_get,
    foldl_get]
  rfl

/-- What was received last of a topic came with the stream, if anything of it did. -/
theorem latest_received (r : Run) (T : Topic) :
    latest T r.received =
      (about T (r.shownBefore ++ r.shownAfter)).getLast?.getD (latest T r.contained) := by
  rw [← r.drop_missed]
  rcases Nat.le_total r.contained.length r.missed with hle | hle
  -- what the snapshot has was published before the page subscribed
  · rw [received, Nat.max_eq_right hle, latest_append]
  obtain ⟨ms, hms⟩ := r.published_eq
  have hreceived : r.received = r.published := by
    rw [received, Nat.max_eq_left hle, hms, List.drop_left]
  rw [hreceived, ← List.take_append_drop r.missed r.published, latest_append,
    List.take_append_drop]
  cases habout : (about T (r.published.drop r.missed)).getLast? with
  | some v => rfl
  | none =>
    -- of the topic the stream had nothing, so what the snapshot has of it was missed
    have hcontained : r.contained = r.published.take r.missed ++
        (r.published.drop r.missed).take (r.contained.length - r.missed) := by
      rw [← List.take_add, Nat.add_sub_cancel' hle, hms, List.take_left]
    have hnil : about T ((r.published.drop r.missed).take (r.contained.length - r.missed)) = [] :=
      List.filterMap_eq_nil_iff.mpr fun m hm ↦
        List.filterMap_eq_nil_iff.mp (List.getLast?_eq_none_iff.mp habout) m
          (List.mem_of_mem_take hm)
    rw [hcontained, latest_append, hnil]
    rfl

/-- **Which loads lose no update.** A topic is up to date exactly if something on it comes after the
snapshot, or if the snapshot says what the page had last been told. -/
theorem upToDate_iff (p : Platform) (r : Run) (h : ∀ m ∈ r.published, ∃ u, Tells p m u)
    (T : Topic) :
    (r.page p).screen.readings.get T = latest T r.received ↔
      about T r.shownAfter ≠ [] ∨
        ∀ v, (about T r.shownBefore).getLast? = some v → latest T r.contained = v := by
  rw [r.page_get h, r.latest_received, about_append, List.getLast?_append]
  cases hafter : about T r.shownAfter with
  | nil =>
    -- the snapshot has the last word, so it has to agree with what it replaces
    cases (about T r.shownBefore).getLast? <;> simp
  | cons v vs => simp [List.getLast?_cons]

/-- The gate opens before the page is loaded, closes while the snapshot is on its way, and opens
again when the snapshot is there. -/
theorem upToDate_iff_open :
    let p : Platform := { maxDigits := some 4300, maxDepth := 990, cast := fun _ v ↦ v }
    let m (payload : String) : Message :=
      { topic := "parking/rpi2/gate", payload := payload, collected := 0, shown := 0 }
    let r : Run :=
      { published := [m "OPEN", m "CLOSED", m "OPEN"]
        missed := 1
        before := [.stored (m "OPEN")]
        between := [.stored (m "CLOSED"), .shown (m "CLOSED")]
        after := [.stored (m "OPEN"), .shown (m "OPEN")]
        deliveries := fun e he ↦ by
          simp only [List.mem_append, List.mem_cons, List.not_mem_nil, or_false] at he
          obtain (rfl | rfl | rfl) | rfl | rfl := he <;> trivial
        stored := rfl
        shown := rfl }
    (r.page p).screen.readings.gateState = latest .gate r.received := by
  intro p m r
  have h : ∀ m' ∈ r.published, ∃ u, Tells p m' u := by
    intro m' hm'
    obtain rfl | rfl | rfl : m' = m "OPEN" ∨ m' = m "CLOSED" ∨ m' = m "OPEN" := by
      simpa [r] using hm'
    · exact ⟨_, .gate rfl (by decide)⟩
    · exact ⟨_, .gate rfl (by decide)⟩
    · exact ⟨_, .gate rfl (by decide)⟩
  refine (upToDate_iff p r h .gate).mpr (.inl fun hnil ↦ ?_)
  have hafter : (about .gate r.shownAfter).length = 1 := rfl
  rw [hnil] at hafter
  cases hafter

/-- The gate opens while the snapshot is on its way, and the page forgets it. -/
theorem snapshot_forgets_open_gate :
    let p : Platform := { maxDigits := some 4300, maxDepth := 990, cast := fun _ v ↦ v }
    let m : Message :=
      { topic := "parking/rpi2/gate", payload := "OPEN", collected := 0, shown := 0 }
    let r : Run :=
      { published := [m]
        missed := 0
        before := []
        between := [.stored m, .shown m]
        after := []
        deliveries := fun e he ↦ by rcases List.mem_pair.mp he with rfl | rfl <;> trivial
        stored := rfl
        shown := rfl }
    (r.page p).screen.readings.gateState ≠ latest .gate r.received := by
  intro p m r h
  have h' : isText "OPEN" (some (r.page p).screen.readings.gateState) =
      isText "OPEN" (some (latest .gate r.received)) :=
    congrArg (fun v : Value ↦ isText "OPEN" (some v)) h
  exact absurd h' (by decide)

end Run

end ParkingService.Monitor
