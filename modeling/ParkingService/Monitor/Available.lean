import ParkingService.Monitor.Loading

/-!
# The number of available slots

`updateAvailableSlots` writes a dash as long as it knows of no slot, and otherwise how many are
`EMPTY`. It takes any state that is not empty for a known one. The page starts with `null`, but
`get_dashboard_state` has the text `UNKNOWN` for a slot of which it has no row. So once the page has
been loaded there is no dash any more: a parking lot of which nothing has been reported is shown
with 0 available slots.

After the first report the number is right, whenever the page was loaded. The argument is about the
states themselves and not about their texts, since the text `UNKNOWN` also stands for a state that
is missing.
-/

namespace ParkingService.Monitor

open Json

variable {p : Platform} {m : Message} {u : Update}

/-- The values of both slots, none of them undefined. -/
def Pair.defined (s : Pair Value) : Pair JsValue := ⟨some s.slot1, some s.slot2⟩

/-- How many of the slots are `EMPTY`. -/
def emptySlots (s : Pair Value) : ℕ :=
  ([s.slot1, s.slot2].filter fun v ↦ isText "EMPTY" (some v)).length

/-- What is to be shown after these messages: a dash, or the number by the last report. -/
def expectedSlots (ms : List Message) : Option ℕ :=
  ((about .slot ms).getLast? : Option (Pair Value)).map emptySlots

/-! ## The states of the slots -/

theorem Tells.onMessage_states (h : Tells p m u) {g : Page} {b : Readings}
    (hg : g.dashboardState.slot = b.slot.defined) :
    (g.onMessage m.shown m.topic m.payload).dashboardState.slot = (b.step u).slot.defined := by
  cases h with
  | slot hroute hreads hs ht =>
    rw [(Page.onMessage_slot (g := g) hroute hreads.parse (property_of_member hs.member)
      (property_of_member ht.member)).1]
    rfl
  | distance hroute hreads hk hn =>
    rw [(Page.onMessage_distance (g := g) hroute hreads.parse (property_of_member hk.member)
      (property_of_member hn.member)).1]
    exact hg
  | lot hroute =>
    rw [(Page.onMessage_lot hroute).1]
    exact hg
  | gate hroute =>
    rw [(Page.onMessage_gate hroute).1]
    exact hg
  | event hroute hreads hv hw =>
    rw [(Page.onMessage_event (g := g) hroute hreads.parse (property_of_member hv.member)
      (property_of_member hw.member)).1]
    exact hg
  | rejected hroute _ hparse =>
    rw [(Page.onMessage_of_throw hroute hparse).1]
    exact hg
  | heartbeat hroute =>
    rw [(Page.onMessage_other (.inl hroute)).1]
    exact hg
  | unknown hroute =>
    rw [(Page.onMessage_other (.inr hroute)).1]
    exact hg

theorem Stores.states {now : ℚ} {db db' : Database} (h : Stores p m now db u db') {b : Readings}
    (hdb : (getDashboardState db).slot = b.slot) :
    (getDashboardState db').slot = (b.step u).slot := by
  cases h with
  | slot hs ht =>
    simp [getDashboardState, getLatestSlotState, Database.insert, slotRow, Platform.store, present,
      Readings.step]
  | distance k n =>
    rw [Readings.step, ← hdb]
    simp [getDashboardState, getLatestSlotState, Database.insert, distanceRow, present]
  | lot | gate | event | rejected | nothing => exact hdb

theorem applyState_states (g : Page) (data : Snapshot) :
    (g.applyState data).dashboardState.slot = data.slot.defined := by
  unfold Page.applyState
  dsimp only
  split <;> rfl

/-- **The states follow the last report**, and those of the snapshot come before any report. -/
theorem pageAt_states {ms : List Message} (h : ∀ m ∈ ms, ∃ u, Tells p m u) (k : ℕ) :
    (pageAt p ms k).dashboardState.slot = (latest .slot ms : Pair Value).defined := by
  have hus := forall₂_updateOf h
  have hsnapshot : (getDashboardState (collect p .start (ms.take k)).db).slot =
      (((ms.map updateOf).take k).foldl Readings.step .start).slot :=
    collect_simulates (I := fun db (b : Readings) ↦ (getDashboardState db).slot = b.slot) id
      (fun _ hstores hdb ↦ hstores.states hdb) (List.forall₂_take k hus) rfl
  have hpage : (pageAt p ms k).dashboardState.slot =
      ((ms.map updateOf).foldl Readings.step .start).slot.defined := by
    rw [← List.take_append_drop k (ms.map updateOf), List.foldl_append]
    apply watch_simulates (I := fun g (b : Readings) ↦ g.dashboardState.slot = b.slot.defined)
      (fun htells hg ↦ htells.onMessage_states hg) (List.forall₂_drop k hus)
    rw [applyState_states, hsnapshot]
  exact hpage.trans (congrArg Pair.defined (foldl_get ms .start .slot))

/-! ## What is shown -/

theorem truthy_str {s : Str} (hs : s ≠ []) : truthy (some (.str s)) := by
  cases s with
  | nil => exact absurd rfl hs
  | cons c s => rfl

/-- The first slot always has a state that is not empty. -/
theorem truthy_latest_slot1 {ms : List Message} (h : ∀ m ∈ ms, ∃ u, Tells p m u) :
    truthy (some (latest .slot ms : Pair Value).slot1) := by
  unfold latest
  cases hlast : (about .slot ms).getLast? with
  | none => rfl
  | some s =>
    obtain ⟨m, hm, hs⟩ := List.mem_filterMap.mp (List.mem_of_getLast? hlast)
    obtain ⟨u, hu⟩ := h m hm
    rw [hu.updateOf_eq] at hs
    cases hu <;> cases hs
    rename_i hnames _
    exact truthy_str hnames.nonempty

theorem availableSlots_of_truthy {s : Pair Value} (h : truthy (some s.slot1)) :
    availableSlots s.defined = some (emptySlots s) := by
  have hknown : ([some s.slot1, some s.slot2].filter truthy).length ≠ 0 := by
    rw [List.filter_cons_of_pos h]
    exact Nat.succ_ne_zero _
  have hempty : emptySlots s = (([s.slot1, s.slot2].map some).filter (isText "EMPTY")).length := by
    rw [List.filter_map, List.length_map]
    rfl
  exact (if_neg hknown).trans (congrArg some hempty.symm)

/-- Whenever it was loaded, the page shows a number. -/
theorem pageAt_availableSlots {ms : List Message} (h : ∀ m ∈ ms, ∃ u, Tells p m u) (k : ℕ) :
    (pageAt p ms k).screen.availableSlots = some (emptySlots (latest .slot ms)) := by
  rw [(pageAt_rendered p ms k).availableSlots, pageAt_states h]
  exact availableSlots_of_truthy (truthy_latest_slot1 h)

theorem about_slot_eq_nil_iff {ms : List Message} (h : ∀ m ∈ ms, ∃ u, Tells p m u) :
    about .slot ms = [] ↔ ¬ ∃ m ∈ ms, ∃ v w, Tells p m (.slot v w) := by
  constructor
  · rintro habout ⟨m, hm, v, w, hslot⟩
    have hnone := List.filterMap_eq_nil_iff.mp habout m hm
    rw [hslot.updateOf_eq] at hnone
    cases hnone
  · intro hno
    refine List.filterMap_eq_nil_iff.mpr fun m hm ↦ ?_
    obtain ⟨u, hu⟩ := h m hm
    rw [hu.updateOf_eq]
    cases u with
    | slot v w => exact absurd ⟨m, hm, v, w, hu⟩ hno
    | _ => rfl

/-- **When the number is right**: once a state has been reported. -/
theorem availableSlots_iff (p : Platform) (ms : List Message) (h : ∀ m ∈ ms, ∃ u, Tells p m u)
    (k : ℕ) :
    (pageAt p ms k).screen.availableSlots = expectedSlots ms ↔
      ∃ m ∈ ms, ∃ v w, Tells p m (.slot v w) := by
  rw [pageAt_availableSlots h, expectedSlots, latest]
  cases hlast : (about .slot ms).getLast? with
  | none =>
    have hnil := List.getLast?_eq_none_iff.mp hlast
    exact iff_of_false (fun heq ↦ by cases heq) ((about_slot_eq_nil_iff h).mp hnil)
  | some s =>
    have hne : about .slot ms ≠ [] := List.ne_nil_of_mem (List.mem_of_getLast? hlast)
    exact iff_of_true rfl (not_not.mp ((about_slot_eq_nil_iff h).not.mp hne))

/-- One slot is free, and the page is loaded after the report. -/
theorem one_slot_available :
    let p : Platform := { maxDigits := some 4300, maxDepth := 990, cast := fun _ v ↦ v }
    let m : Message :=
      { topic := "parking/rpi1/slot"
        payload := "\x7b\"slot1\": \"OCCUPIED\", \"slot2\": \"EMPTY\"\x7d"
        collected := 0, shown := 0 }
    (pageAt p [m] 1).screen.availableSlots = expectedSlots [m] ∧ expectedSlots [m] = some 1 := by
  have hreads : Reads { maxDigits := some 4300, maxDepth := 990, cast := fun _ v ↦ v }
      "\x7b\"slot1\": \"OCCUPIED\", \"slot2\": \"EMPTY\"\x7d"
      [(Str.of "slot1", text "OCCUPIED"), (Str.of "slot2", text "EMPTY")] := ⟨rfl, rfl⟩
  intro p m
  have hslot : Tells p m (.slot (text "OCCUPIED") (text "EMPTY")) :=
    .slot rfl hreads ⟨rfl, by decide, rfl⟩ ⟨rfl, by decide, rfl⟩
  have htells : ∀ m' ∈ [m], ∃ u, Tells p m' u := fun m' hm' ↦
    ⟨_, List.mem_singleton.mp hm' ▸ hslot⟩
  exact ⟨(availableSlots_iff p [m] htells 1).mpr ⟨m, List.mem_singleton_self m, _, _, hslot⟩,
    by decide⟩

/-- The page is loaded before anything has been reported. -/
theorem zero_for_dash :
    let p : Platform := { maxDigits := some 4300, maxDepth := 990, cast := fun _ v ↦ v }
    (pageAt p [] 0).screen.availableSlots ≠ expectedSlots [] := by
  intro p h
  cases h

end ParkingService.Monitor
