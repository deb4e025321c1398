import ParkingService.Slot.Readings

/-!
# Sustained occupancy

`sensor_work_func` locks a slot on the strength of the lock state, the time at which the slot was
first seen occupied, and a counter of readings in succession that were not. Between two work items
these say of the past what `Watch` says; within one they lag behind by the reading that is being
processed, and `Seen` keeps the two apart.

That the bar moves as it should is known from `lock_holds` and not proved again.
-/

namespace ParkingService.Slots

open Concurrency

variable {i : Slot} {s : SlotSnap} {l : SlotLabel} {x : Driver} {b : Bar} {t : Thread}

/-! ## Variables and past -/

/-- The variables of a slot that stand for its past. -/
def SensorDev.watched (d : SensorDev) : ℤ × ℤ := (d.occupyStart, d.consecutiveUnoccupied)

/-- What the variables say about the past when the bar is in this state. -/
def WatchAt (i : Slot) (vars : ℤ × ℤ) : Bar → List SlotLabel → Prop
  | .free, tr => Cleared i tr
  | .timing, tr => Timing i vars.1 vars.2 tr
  | _, _ => True

/-- What the variables say between two work items. -/
def Watch (i : Slot) (s : SlotSnap) : Prop :=
  ∀ b, barOf i s.trace = some b → WatchAt i (s.state.sensor i).watched b s.trace

/-- A label that is neither a reading nor a move of slot `i`. -/
def Calm (i : Slot) (l : SlotLabel) : Prop := reading? i l = none ∧ move? i l = none

theorem ChangesLock.move_ne_none (h : ChangesLock i l) : move? i l ≠ none := by
  cases l with
  | op t o r =>
    cases o with
    | setLockSt j st =>
      obtain ⟨rfl, -⟩ := h
      simp [move?]
    | _ => exact h.elim
  | _ => exact h.elim

theorem Calm.not_changesLock (h : Calm i l) : ¬ChangesLock i l := fun hl ↦ hl.move_ne_none h.2

theorem WatchAt.append {vars : ℤ × ℤ} {tr : List SlotLabel} (h : WatchAt i vars b tr)
    (hl : Calm i l) : WatchAt i vars b (tr ++ [l]) := by
  cases b with
  | free => exact Cleared.append h fun hends ↦ hl.not_changesLock hends.changesLock
  | timing => exact Timing.append h hl.1 hl.not_changesLock
  | _ => trivial

/-- Only the slot's own assignments change its variables. -/
theorem watched_of_emits {x' : Driver} (hx : slotMachine.Emits x l x')
    (hstore : ∀ t v y, l = .op t (.store i v y) () → v = .lastBtnTime) :
    (x'.sensor i).watched = (x.sensor i).watched := by
  cases l with
  | start t j => rw [sensor_of_start hx]
  | op t o r =>
    obtain ⟨-, rfl⟩ := emits_op.mp hx
    cases o with
    | store j v y =>
      by_cases hij : i = j
      · subst hij
        obtain rfl := hstore t v y rfl
        rw [SlotOp.effect, Driver.modify_sensor_self]
        rfl
      · rw [SlotOp.effect, Driver.modify_sensor_of_ne _ _ hij]
    | queueWork w => rw [SlotOp.effect, Driver.queueWork_sensor]
    | request j =>
      rw [SlotOp.effect]
      refine x.modify_sensor_congr j i _ SensorDev.watched fun d ↦ ?_
      split <;> rfl
    | fireTrigger | readOccupied | notify | ktime | load | readLockSt | readLockPending | printk =>
      rfl
    | _ =>
      rw [SlotOp.effect]
      exact x.modify_sensor_congr _ i _ SensorDev.watched fun _ ↦ rfl
  | ext e =>
    obtain ⟨j, now, pinVal⟩ := e
    obtain rfl : (SlotEvent.echoIsr j now pinVal).exec x = x' := Option.some.inj hx
    obtain ⟨-, -, hexec⟩ | ⟨-, -, hexec⟩ | ⟨-, -, hexec⟩ := SlotEvent.exec_cases j now pinVal x
    · rw [hexec]
      exact x.modify_sensor_congr j i _ SensorDev.watched fun _ ↦ rfl
    · rw [hexec, Driver.queueWork_sensor]
      exact x.modify_sensor_congr j i _ SensorDev.watched fun _ ↦ rfl
    · rw [hexec]

/-! ## Steps that do not decide anything -/

/-- The bar is down. -/
def Bar.Unlocked : Bar → Prop
  | free | timing | waitEmpty => True
  | _ => False

theorem Bar.Moves.eq_become {dir : ℤ} {b₀ : Bar} {m : Move} (h : Bar.Moves dir b₀ m b)
    (hb : b.Unlocked) : m = .become b.lockSt := by
  cases h with
  | @finish p =>
    cases p with
    | true => exact hb.elim
    | false => rfl
  | occupy | release | empty => rfl
  | _ => exact hb.elim

/-- A step that is no reading, leaves the variables alone and sets no lock state of an unlocked
bar. -/
structure Harmless (i : Slot) (s : SlotSnap) (l : SlotLabel) (x : Driver) : Prop where
  silent : reading? i l = none
  vars : (x.sensor i).watched = (s.state.sensor i).watched
  become : ∀ t st, l = .op t (.setLockSt i st) () → st ∉ [.free, .timing, .waitEmpty]

/-- It does not lead to an unlocked bar. -/
theorem Harmless.calm (h : Harmless i s l x) (hb : barOf i (s.log x l).trace = some b)
    (hunlocked : b.Unlocked) : Calm i l ∧ barOf i s.trace = some b := by
  rw [Snap.log_trace] at hb
  cases hm : move? i l with
  | none =>
    rw [barOf_append_of_none hm] at hb
    exact ⟨⟨h.silent, hm⟩, hb⟩
  | some m =>
    obtain ⟨b₀, -, hmove⟩ := (barOf_append_of_some hm).mp hb
    obtain rfl := hmove.eq_become hunlocked
    cases makes_of_move hm with
    | become =>
      refine absurd ?_ (h.become _ _ rfl)
      cases b with
      | locked | changing => exact hunlocked.elim
      | _ => simp [Bar.lockSt]

theorem Watch.log (h : Watch i s) (hl : Harmless i s l x) : Watch i (s.log x l) := by
  intro b hb
  by_cases hunlocked : b.Unlocked
  · obtain ⟨hcalm, hbar⟩ := hl.calm hb hunlocked
    rw [Snap.log_state, hl.vars]
    exact (h b hbar).append hcalm
  · cases b with
    | free | timing => exact absurd trivial hunlocked
    | _ => trivial

/-! ## The outline -/

/-- The slot has always been locked for a reason, and its variables are the worker's. -/
structure WatchSound (i : Slot) (s : SlotSnap) : Prop where
  sustained :
    Always (fun pre l ↦ ∀ t, l = .op t (.setLockSt i .locking) () → Sustained i pre) s.trace
  owned : Always (fun _ l ↦ ∀ t v y, l = .op t (.store i v y) () → v ≠ .lastBtnTime →
    t = .worker) s.trace

theorem WatchSound.log (h : WatchSound i s)
    (hlocking : ∀ t, l = .op t (.setLockSt i .locking) () → Sustained i s.trace)
    (hstore : ∀ t v y, l = .op t (.store i v y) () → v ≠ .lastBtnTime → t = .worker) :
    WatchSound i (s.log x l) :=
  ⟨always_append_singleton.mpr ⟨h.sustained, hlocking⟩,
    always_append_singleton.mpr ⟨h.owned, hstore⟩⟩

/-- Bars are known to be sound. -/
def watchOutline : Outline slotMachine where
  known s := ∀ i, LockSound i s
  inv s := ∀ i, WatchSound i s

/-- The only lock state that anyone but the worker sets. -/
theorem unlocking_of_other {st : LockState} (h : LockSound i (s.log x (.op t (.setLockSt i st) ())))
    (ht : t ≠ .worker) : st = .unlocking := by
  have hm : move? i (.op t (.setLockSt i st) ()) = some (.become st) := if_pos rfl
  obtain ⟨b, hb, hby⟩ := (always_append_singleton.mp h.owned).2 _ hm
  obtain ⟨b', hb', -⟩ := h.lawful
  obtain ⟨b₀, hb₀, hmove⟩ := (barOf_append_of_some hm).mp hb'
  obtain rfl : b₀ = b := Option.some.inj (hb₀.symm.trans hb)
  have howner : b₀.owner i ≠ .worker := fun h ↦ ht (Option.some.inj (hby.trans (congrArg some h)))
  cases hmove with
  | unlock => rfl
  | @finish p => cases p <;> exact absurd rfl howner
  | _ => exact absurd rfl howner

/-- What others do is harmless to the worker. -/
theorem harmless_of_other (hs' : watchOutline.Good (s.log x l)) (hl : l.by? ≠ some .worker)
    (hx : slotMachine.Emits s.state l x) (i : Slot) : Harmless i s l x where
  silent := by
    cases l with
    | op t o r => cases t <;> first | rfl | exact absurd rfl hl
    | _ => rfl
  vars := by
    refine watched_of_emits hx ?_
    rintro t v y rfl
    by_contra hv
    have ht := (always_append_singleton.mp (hs'.2 i).owned).2 t v y rfl hv
    exact hl (congrArg some ht)
  become := by
    rintro t st rfl
    have ht : t ≠ .worker := fun h ↦ hl (congrArg some h)
    rw [unlocking_of_other (hs'.1 i) ht]
    simp

/-- The variables of slot `i` are up to date. -/
def watching (i : Slot) : watchOutline.Assertion .worker where
  holds := Watch i
  stable _ hl hx hs' h := h.log (harmless_of_other hs' hl hx i)

/-- All variables are up to date. -/
def watchingAll : watchOutline.Assertion .worker := .all watching

/-! ## Within a work item -/

/-- What the worker knows of a slot after a reading: the state of the bar, the variables as they
were at the reading, what the clock has said since, and the variables as they are now. -/
structure Glance where
  bar : Bar
  old : ℤ × ℤ
  clock : Option ℤ
  new : ℤ × ℤ

/-- The work item that is under way has taken reading `r` of slot `i`. -/
structure Seen (i : Slot) (r : ℤ × ℤ) (g : Glance) (s : SlotSnap) : Prop where
  bar : barOf i s.trace = some g.bar
  vars : (s.state.sensor i).watched = g.new
  past : ∃ before since, s.trace = before ++ .op .worker (.takeEcho i) r :: since
    ∧ (∀ l ∈ since, Calm i l ∧ ¬StartsWork l) ∧ (∀ now ∈ g.clock, .op .worker .ktime now ∈ since)
    ∧ WatchAt i g.old g.bar before

/-- The same before the lock state has been read: it is known what there would be to know if the bar
is down. -/
def Taken (i : Slot) (r : ℤ × ℤ) (s : SlotSnap) : Prop :=
  ∀ b, barOf i s.trace = some b → b.Unlocked →
    Seen i r ⟨b, (s.state.sensor i).watched, none, (s.state.sensor i).watched⟩ s

variable {r : ℤ × ℤ} {g : Glance}

theorem Seen.log {clock : Option ℤ} {new : ℤ × ℤ} (h : Seen i r g s) (hcalm : Calm i l)
    (hstart : ¬StartsWork l) (hclock : ∀ now ∈ clock, now ∈ g.clock ∨ l = .op .worker .ktime now)
    (hnew : (x.sensor i).watched = new) :
    Seen i r { g with clock := clock, new := new } (s.log x l) := by
  obtain ⟨hbar, -, before, since, htrace, hsince, hread, hwatch⟩ := h
  refine ⟨?_, hnew, before, since ++ [l], by simp [htrace], fun l' hl' ↦ ?_, fun now hnow ↦ ?_,
    hwatch⟩
  · rw [Snap.log_trace, barOf_append_of_none hcalm.2, hbar]
  · rcases List.mem_append.mp hl' with hl' | hl'
    · exact hsince l' hl'
    · rw [List.mem_singleton.mp hl']
      exact ⟨hcalm, hstart⟩
  · rcases hclock now hnow with hold | rfl
    · exact List.mem_append_left _ (hread now hold)
    · simp

theorem Taken.log (h : Taken i r s) (hl : Harmless i s l x) (hstart : ¬StartsWork l) :
    Taken i r (s.log x l) := by
  intro b hb hunlocked
  obtain ⟨hcalm, hbar⟩ := hl.calm hb hunlocked
  rw [Snap.log_state, hl.vars]
  exact (h b hbar hunlocked).log hcalm hstart (fun now hnow ↦ .inl hnow) hl.vars

theorem Bar.Unlocked.owner (h : b.Unlocked) (i : Slot) : b.owner i = .worker := by
  cases b with
  | locked | changing => exact h.elim
  | _ => rfl

theorem not_startsWork_of_other (hl : l.by? ≠ some .worker) : ¬StartsWork l := by
  cases l with
  | start t j => cases t <;> first | exact id | exact absurd rfl hl
  | _ => exact id

/-- The variables of the other slots are up to date. -/
def elsewhere (i : Slot) : watchOutline.Assertion .worker :=
  .all fun j : {j // j ≠ i} ↦ watching j.1

def taken (i : Slot) (r : ℤ × ℤ) : watchOutline.Assertion .worker where
  holds := Taken i r
  stable _ hl hx hs' h := h.log (harmless_of_other hs' hl hx i) (not_startsWork_of_other hl)

def seen (i : Slot) (r : ℤ × ℤ) (g : Glance) (hg : g.bar.Unlocked) :
    watchOutline.Assertion .worker where
  holds := Seen i r g
  stable {s l x} _ hl hx hs' h := by
    have hharmless := harmless_of_other hs' hl hx i
    have hbar := (hs'.1 i).barOf_of_other h.bar (by rwa [hg.owner i])
    exact h.log (hharmless.calm hbar hg).1 (not_startsWork_of_other hl) (fun now hnow ↦ .inl hnow)
      (hharmless.vars.trans h.vars)

/-- What the worker does to one slot is harmless to the others. -/
theorem harmless_elsewhere {j : Slot} {o : SlotOp} {a : o.Resp} (ho : o.Decides i) (hji : j ≠ i)
    (hx : slotMachine.Emits s.state (.op .worker o a) x) : Harmless j s (.op .worker o a) x where
  silent := by
    cases o <;> first | rfl | exact ho.elim
  vars := by
    refine watched_of_emits hx fun t v y hl ↦ ?_
    obtain ⟨-, rfl, -⟩ := Label.op.inj hl
    exact absurd ho hji
  become t st hl := by
    obtain ⟨-, rfl, -⟩ := Label.op.inj hl
    exact absurd ho hji

/-- The worker performs an operation that neither takes a reading nor moves the bar. -/
theorem seen_call {o : SlotOp} {clock : o.Resp → Option ℤ} {new : o.Resp → ℤ × ℤ}
    {φ : o.Resp → Prop} (hg : g.bar.Unlocked) (ho : o.Decides i)
    (hcalm : ∀ a, Calm i (.op .worker o a))
    (hclock : ∀ a, ∀ now ∈ clock a, now ∈ g.clock
      ∨ (.op .worker o a : SlotLabel) = .op .worker .ktime now)
    (h : ∀ a (x : Driver), o.Answers a x → (x.sensor i).watched = g.new →
      ((o.effect x).sensor i).watched = new a ∧ φ a) :
    watchOutline.Triple .worker ((seen i r g hg).and (elsewhere i)) (perform o) fun a ↦
      ((seen i r { g with clock := clock a, new := new a } hg).and (elsewhere i)).and
        (.pure (φ a)) := by
  refine .call fun s a x hs hseen hexec _ ↦ ?_
  obtain ⟨hseen, helse⟩ := hseen
  obtain ⟨hans, rfl⟩ := SlotOp.exec_eq_some.mp hexec
  obtain ⟨hnew, hφ⟩ := h a s.state hans hseen.vars
  refine ⟨fun j ↦ (hs.2 j).log (fun t hl ↦ ?_) fun t v y hl _ ↦ ?_, ⟨?_, fun j ↦ ?_⟩, hφ⟩
  · obtain ⟨-, rfl, -⟩ := Label.op.inj hl
    obtain rfl : j = i := ho
    have hmove := (hcalm a).2
    simp [move?] at hmove
  · exact (Label.op.inj hl).1.symm
  · exact hseen.log (hcalm a) id (hclock a) hnew
  · exact (helse j).log (harmless_elsewhere ho j.2 hexec)

/-- The worker sets the lock state. -/
theorem become_call {st : LockState} (hg : g.bar.Unlocked)
    (hlocking : st = .locking → ∀ s, Seen i r g s → Sustained i s.trace)
    (hwatch : ∀ s b, Seen i r g s → b.lockSt = st →
      WatchAt i g.new b (s.trace ++ [.op .worker (.setLockSt i st) ()])) :
    watchOutline.Triple .worker ((seen i r g hg).and (elsewhere i)) (perform (.setLockSt i st))
      fun _ ↦ watchingAll := by
  refine .call fun s a x hs hseen hexec hknown ↦ ?_
  have hx : slotMachine.Emits s.state (.op .worker (.setLockSt i st) a) x := hexec
  obtain ⟨hseen, helse⟩ := hseen
  refine ⟨fun j ↦ (hs.2 j).log (fun t hl ↦ ?_) (fun t v y hl ↦ by cases hl), fun j ↦ ?_⟩
  · obtain ⟨-, ho, -⟩ := Label.op.inj hl
    obtain ⟨rfl, rfl⟩ := SlotOp.setLockSt.inj ho
    exact hlocking rfl s hseen
  · by_cases hji : j = i
    · subst hji
      intro b hb
      have hst : b.lockSt = st := by
        rw [← ((hknown j).matches_bar hb).lockSt, ← (emits_op.mp hx).2]
        simp [SlotOp.effect]
      have hvars : (x.sensor j).watched = g.new :=
        (watched_of_emits hx fun _ _ _ hl ↦ by cases hl).trans hseen.vars
      rw [Snap.log_state, hvars]
      exact hwatch s b hseen hst
    · exact (helse ⟨j, hji⟩).log (harmless_elsewhere rfl hji hx)

/-- The worker leaves the bar as it is. -/
theorem leave {hg : g.bar.Unlocked} (hwatch : ∀ s, Seen i r g s → WatchAt i g.new g.bar s.trace) :
    watchOutline.Triple .worker ((seen i r g hg).and (elsewhere i)) (pure ())
      fun _ ↦ watchingAll := by
  refine .ret fun s _ hseen j ↦ ?_
  obtain ⟨hseen, helse⟩ := hseen
  by_cases hji : j = i
  · subst hji
    intro b hb
    obtain rfl : g.bar = b := Option.some.inj (hseen.bar.symm.trans hb)
    rw [hseen.vars]
    exact hwatch s hseen
  · exact helse ⟨j, hji⟩

/-! ## From reading to decision -/

/-- What the reading makes of the past, and calm labels leave alone, holds now. -/
theorem Seen.induction {P : List SlotLabel → Prop} (h : Seen i r g s)
    (hread : ∀ before, WatchAt i g.old g.bar before → P (before ++ [.op .worker (.takeEcho i) r]))
    (hcalm : ∀ tr l, Calm i l → P tr → P (tr ++ [l])) : P s.trace := by
  obtain ⟨-, -, before, since, htrace, hsince, -, hwatch⟩ := h
  rw [htrace, List.append_cons]
  exact append_induction (hread before hwatch) (fun l hl ↦ (hsince l hl).1) hcalm

variable {old new : ℤ × ℤ} {clock : Option ℤ} {tr : List SlotLabel} {now : ℤ}

theorem Cleared.append_calm (h : Cleared i tr) (hl : Calm i l) : Cleared i (tr ++ [l]) :=
  h.append fun hends ↦ hl.not_changesLock hends.changesLock

theorem Timing.append_calm {start n : ℤ} (h : Timing i start n tr) (hl : Calm i l) :
    Timing i start n (tr ++ [l]) :=
  h.append hl.1 hl.not_changesLock

theorem Seen.cleared_of_free (h : Seen i r ⟨.free, old, clock, new⟩ s) : Cleared i s.trace :=
  h.induction (fun _ hwatch ↦ Cleared.append hwatch id) fun _ _ hl h ↦ h.append_calm hl

theorem Seen.cleared_of_unoccupied (h : Seen i r g s)
    (hr : reading? i (.op .worker (.takeEcho i) r) = some false) : Cleared i s.trace :=
  h.induction (fun _ _ ↦ ParkingService.Slots.cleared_of_unoccupied hr)
    fun _ _ hl h ↦ h.append_calm hl

/-- The slot was free and now is not: a stay begins. -/
theorem Seen.timing_of_free (h : Seen i r ⟨.free, old, some now, new⟩ s)
    (hr : reading? i (.op .worker (.takeEcho i) r) = some true) : Timing i now 0 s.trace := by
  obtain ⟨-, -, before, since, htrace, hsince, hread, hwatch⟩ := h
  obtain ⟨since₁, since₂, rfl⟩ := List.append_of_mem (hread now rfl)
  have hclocked : Clocked now (since₁ ++ .op .worker .ktime now :: since₂) :=
    ⟨since₁, since₂, rfl, fun l hl ↦ (hsince l (List.mem_append_left _ hl)).2⟩
  refine ⟨before, _, _, htrace, ⟨hwatch, hr, hclocked, fun l hl ↦ ?_⟩, 0, ⟨[], ?_, ?_⟩,
    by decide, rfl⟩
  · exact (hsince l hl).1.not_changesLock
  · have hnone : readings i (since₁ ++ .op .worker .ktime now :: since₂) = [] :=
      List.filterMap_eq_nil_iff.mpr fun l hl ↦ (hsince l hl).1.1
    rw [readings, List.filterMap_cons, hr]
    exact congrArg _ hnone
  · decide

theorem Seen.timing_of_occupied {start n : ℤ} (h : Seen i r ⟨.timing, (start, n), clock, new⟩ s)
    (hr : reading? i (.op .worker (.takeEcho i) r) = some true) : Timing i start 0 s.trace :=
  h.induction (fun _ hwatch ↦ Timing.occupied hwatch hr) fun _ _ hl h ↦ h.append_calm hl

theorem Seen.timing_of_unoccupied {start n : ℤ} (h : Seen i r ⟨.timing, (start, n), clock, new⟩ s)
    (hr : reading? i (.op .worker (.takeEcho i) r) = some false)
    (hn : n + 1 < unoccupiedReleaseCount) : Timing i start (n + 1) s.trace :=
  h.induction (fun _ hwatch ↦ Timing.unoccupied hwatch hr hn) fun _ _ hl h ↦ h.append_calm hl

/-- The stay has lasted long enough. -/
theorem Seen.sustained {start n : ℤ} (h : Seen i r ⟨.timing, (start, n), some now, new⟩ s)
    (hr : reading? i (.op .worker (.takeEcho i) r) = some true)
    (helapsed : lockTimeoutMs ≤ ktimeToMs (now - start)) : Sustained i s.trace := by
  obtain ⟨-, -, before, since, htrace, hsince, hread, hwatch⟩ := h
  obtain ⟨before₀, first, rest, rfl, hstay, k, hruns, hk, -⟩ := hwatch
  obtain ⟨since₁, since₂, rfl⟩ := List.append_of_mem (hread now rfl)
  have hclocked : Clocked now (since₁ ++ .op .worker .ktime now :: since₂) :=
    ⟨since₁, since₂, rfl, fun l hl ↦ (hsince l (List.mem_append_left _ hl)).2⟩
  refine ⟨before₀, first, rest ++ .op .worker (.takeEcho i) r :: _, start, now,
    by rw [htrace, List.append_assoc, List.cons_append], ?_, ⟨rest, _, _, rfl, hr, hclocked, ?_⟩,
    helapsed, ?_⟩
  · rw [List.append_cons]
    exact append_induction (hstay.append id) (fun l hl ↦ (hsince l hl).1.not_changesLock)
      fun _ _ hl h ↦ h.append hl
  · exact fun l hl ↦ (hsince l hl).2
  · have htail : readings i (.op .worker (.takeEcho i) r
        :: (since₁ ++ .op .worker .ktime now :: since₂)) = [true] := by
      rw [readings, List.filterMap_cons, hr]
      exact congrArg _ (List.filterMap_eq_nil_iff.mpr fun l hl ↦ (hsince l hl).1.1)
    rw [readings] at htail
    rw [← List.cons_append, readings, List.filterMap_append, htail]
    exact (hruns.never (by decide) hk).append_singleton (by decide) (by decide)

/-! ## The routines -/

variable {hg : g.bar.Unlocked}

theorem ktime_call :
    watchOutline.Triple .worker ((seen i r g hg).and (elsewhere i)) (perform .ktime) fun now ↦
      (seen i r { g with clock := some now } hg).and (elsewhere i) := by
  have hcall : watchOutline.Triple .worker ((seen i r g hg).and (elsewhere i)) (perform .ktime)
      fun now ↦ ((seen i r { g with clock := some now, new := g.new } hg).and (elsewhere i)).and
        (.pure True) := by
    refine seen_call hg trivial (fun _ ↦ ⟨rfl, rfl⟩) (fun a now hnow ↦ .inr ?_)
      fun _ _ _ h ↦ ⟨h, trivial⟩
    rw [Option.mem_some.mp hnow]
  exact hcall.post (by exact fun _ _ _ h ↦ h.1)

/-- What is read is what is known of the variable. -/
theorem load_call {v : SlotVar} {z : ℤ} (hv : ∀ d : SensorDev, d.watched = g.new → d.get v = z) :
    watchOutline.Triple .worker ((seen i r g hg).and (elsewhere i)) (perform (.load i v)) fun y ↦
      ((seen i r g hg).and (elsewhere i)).and (.pure (y = z)) :=
  seen_call hg rfl (fun _ ↦ ⟨rfl, rfl⟩) (fun _ _ hnow ↦ .inl hnow)
    fun _ _ hans h ↦ ⟨h, hans.trans (hv _ h)⟩

theorem store_call {v : SlotVar} {y : ℤ} {new : ℤ × ℤ}
    (hv : ∀ d : SensorDev, d.watched = g.new → (d.set y v).watched = new) :
    watchOutline.Triple .worker ((seen i r g hg).and (elsewhere i)) (perform (.store i v y)) fun _ ↦
      (seen i r { g with new := new } hg).and (elsewhere i) := by
  have hcall : watchOutline.Triple .worker ((seen i r g hg).and (elsewhere i))
      (perform (.store i v y)) fun _ ↦
        ((seen i r { g with clock := g.clock, new := new } hg).and (elsewhere i)).and
          (.pure True) := by
    refine seen_call hg rfl (fun _ ↦ ⟨rfl, rfl⟩) (fun _ _ hnow ↦ .inl hnow)
      fun _ x _ h ↦ ⟨?_, trivial⟩
    rw [SlotOp.effect, Driver.modify_sensor_self]
    exact hv _ h
  exact hcall.post (by exact fun _ _ _ h ↦ h.1)

theorem store_start {y : ℤ} : watchOutline.Triple .worker ((seen i r g hg).and (elsewhere i))
    (perform (.store i .occupyStart y)) fun _ ↦
      (seen i r { g with new := (y, g.new.2) } hg).and (elsewhere i) := by
  refine store_call fun d hd ↦ ?_
  have hsame : d.watched.2 = g.new.2 := by rw [hd]
  exact Prod.ext rfl hsame

theorem store_count {y : ℤ} : watchOutline.Triple .worker ((seen i r g hg).and (elsewhere i))
    (perform (.store i .consecutiveUnoccupied y)) fun _ ↦
      (seen i r { g with new := (g.new.1, y) } hg).and (elsewhere i) := by
  refine store_call fun d hd ↦ ?_
  have hsame : d.watched.1 = g.new.1 := by rw [hd]
  exact Prod.ext hsame rfl

/-- Operations that are harmless to every slot. -/
def SlotOp.Neutral : SlotOp → Prop
  | .takeEcho _ | .setLockSt _ _ | .store _ _ _ => False
  | _ => True

theorem harmless_of_neutral {o : SlotOp} {a : o.Resp} (ho : o.Neutral)
    (hx : slotMachine.Emits s.state (.op t o a) x) (i : Slot) : Harmless i s (.op t o a) x where
  silent := by
    cases t <;> cases o <;> first | rfl | exact ho.elim
  vars := by
    refine watched_of_emits hx fun t v y hl ↦ ?_
    obtain ⟨-, rfl, -⟩ := Label.op.inj hl
    exact ho.elim
  become t st hl := by
    obtain ⟨-, rfl, -⟩ := Label.op.inj hl
    exact ho.elim

theorem WatchSound.neutral {o : SlotOp} {a : o.Resp} (h : WatchSound i s) (ho : o.Neutral) :
    WatchSound i (s.log x (.op t o a)) := by
  refine h.log (fun t hl ↦ ?_) fun t v y hl ↦ ?_
  · obtain ⟨-, rfl, -⟩ := Label.op.inj hl
    exact ho.elim
  · obtain ⟨-, rfl, -⟩ := Label.op.inj hl
    exact ho.elim

theorem neutral_watch {p : SlotProg Unit} (hp : p.Uses SlotOp.Neutral) :
    watchOutline.Triple .worker watchingAll p fun _ ↦ watchingAll :=
  .frame hp fun _ ho _ _ _ hs hwatch hexec _ ↦ ⟨fun j ↦ (hs.2 j).neutral ho,
    fun j ↦ (hwatch j).log (harmless_of_neutral ho hexec j)⟩

theorem neutral_taken {p : SlotProg Unit} (hp : p.Uses SlotOp.Neutral) :
    watchOutline.Triple .worker ((taken i r).and (elsewhere i)) p
      fun _ ↦ (taken i r).and (elsewhere i) :=
  .frame hp fun _ ho _ _ _ hs htaken hexec _ ↦ ⟨fun j ↦ (hs.2 j).neutral ho,
    htaken.1.log (harmless_of_neutral ho hexec i) id,
    fun j ↦ (htaken.2 j).log (harmless_of_neutral ho hexec j.1)⟩

/-- A slot is freed at an empty reading. -/
theorem release_call (hg : g.bar.Unlocked)
    (hr : reading? i (.op .worker (.takeEcho i) r) = some false) :
    watchOutline.Triple .worker ((seen i r g hg).and (elsewhere i)) (perform (.setLockSt i .free))
      fun _ ↦ watchingAll := by
  refine become_call hg (fun h ↦ by cases h) fun s b h hb ↦ ?_
  cases b with
  | free => exact (h.cleared_of_unoccupied hr).append fun hl ↦ by cases hl.2
  | changing p => cases p <;> cases hb
  | _ => cases hb

section Machine

variable {occupied : ℤ}
  (hr : reading? i (.op .worker (.takeEcho i) r) = some (decide (occupied ≠ 0)))

include hr

theorem whenFree_watch {clock : Option ℤ} :
    watchOutline.Triple .worker ((seen i r ⟨.free, old, clock, new⟩ trivial).and (elsewhere i))
      (whenFree i occupied) fun _ ↦ watchingAll := by
  refine .ite (fun hocc ↦ ?_) fun _ ↦ leave fun s h ↦ h.cleared_of_free
  rw [decide_eq_true hocc] at hr
  refine .bind ktime_call fun now ↦ .bind store_start fun _ ↦ .bind store_count fun _ ↦ ?_
  refine become_call (by trivial) (fun h ↦ by cases h) fun s b h hb ↦ ?_
  cases b with
  | timing => exact (h.timing_of_free hr).append rfl fun hl ↦ by simp [ChangesLock] at hl
  | changing p => cases p <;> cases hb
  | _ => cases hb

theorem whenTiming_watch {start n : ℤ} {clock : Option ℤ} :
    watchOutline.Triple .worker
      ((seen i r ⟨.timing, (start, n), clock, (start, n)⟩ trivial).and (elsewhere i))
      (whenTiming i occupied) fun _ ↦ watchingAll := by
  refine .ite (fun hocc ↦ ?_) fun hocc ↦ ?_
  · rw [decide_eq_false (not_not.mpr hocc)] at hr
    refine .bind (load_call fun d hd ↦ congrArg Prod.snd hd) fun n' ↦ ?_
    refine .of_pure (fun _ _ h ↦ h.2) fun hn ↦ .pre (fun _ _ h ↦ h.1) ?_
    subst hn
    refine .bind store_count fun _ ↦ .ite ?_ ?_
    · -- one reading too many
      exact fun _ ↦ release_call (by trivial) hr
    · exact fun hn ↦ leave fun s h ↦ h.timing_of_unoccupied hr (Int.not_le.mp hn)
  · rw [decide_eq_true hocc] at hr
    refine .bind ktime_call fun now ↦ ?_
    refine .bind (load_call fun d hd ↦ congrArg Prod.fst hd) fun start' ↦ ?_
    refine .of_pure (fun _ _ h ↦ h.2) fun hstart ↦ .pre (fun _ _ h ↦ h.1) ?_
    subst hstart
    refine .bind store_count fun _ ↦ .ite ?_ ?_
    · -- the stay has lasted long enough
      intro helapsed
      refine .bind
        (become_call (by trivial) (fun _ s h ↦ h.sustained hr helapsed) fun s b _ hb ↦ ?_)
        fun _ ↦ neutral_watch ⟨trivial, fun _ ↦ ⟨trivial, fun _ ↦ trivial⟩⟩
      cases b with
      | changing p => trivial
      | _ => cases hb
    · exact fun _ ↦ leave fun s h ↦ h.timing_of_occupied hr

theorem whenWaitEmpty_watch {clock : Option ℤ} :
    watchOutline.Triple .worker ((seen i r ⟨.waitEmpty, old, clock, new⟩ trivial).and (elsewhere i))
      (whenWaitEmpty i occupied) fun _ ↦ watchingAll := by
  refine .ite (fun hocc ↦ ?_) fun _ ↦ leave fun s h ↦ trivial
  rw [decide_eq_false (not_not.mpr hocc)] at hr
  exact release_call (by trivial) hr

/-- `sensor_work_func` after the measurement. -/
theorem lockMachine_watch :
    watchOutline.Triple .worker ((taken i r).and (elsewhere i)) (lockMachine i occupied)
      fun _ ↦ watchingAll := by
  let R : LockState → watchOutline.Assertion .worker
    | .free => .any fun v ↦ (seen i r ⟨.free, v, none, v⟩ trivial).and (elsewhere i)
    | .timing => .any fun v ↦ (seen i r ⟨.timing, v, none, v⟩ trivial).and (elsewhere i)
    | .waitEmpty => .any fun v ↦ (seen i r ⟨.waitEmpty, v, none, v⟩ trivial).and (elsewhere i)
    | .locking | .locked | .unlocking => watchingAll
  refine .bind (.call (R := R) fun s st x hs htaken hexec hknown ↦ ?_) fun st ↦ ?_
  · have hx : slotMachine.Emits s.state (.op .worker (.readLockSt i) st) x := hexec
    have hharmless := harmless_of_neutral (t := .worker) (o := .readLockSt i) trivial hx
    have htaken' := htaken.1.log (hharmless i) id
    have helse' : elsewhere i (s.log x (.op .worker (.readLockSt i) st)) :=
      fun j ↦ (htaken.2 j).log (hharmless j.1)
    refine ⟨fun j ↦ (hs.2 j).neutral (o := .readLockSt i) trivial, ?_⟩
    obtain ⟨b, hbar, hmatches⟩ := (hknown i).lawful
    obtain ⟨hst, rfl⟩ := emits_op.mp hx
    obtain rfl : st = b.lockSt := hst.trans hmatches.lockSt
    -- above an unlocked bar there is nothing to know
    have hlocked (hb : ¬b.Unlocked) :
        watchingAll (s.log s.state (.op .worker (.readLockSt i) b.lockSt)) := by
      intro j
      by_cases hji : j = i
      · subst hji
        intro b' hb'
        obtain rfl : b = b' := Option.some.inj (hbar.symm.trans hb')
        cases b with
        | free | timing => exact absurd trivial hb
        | _ => trivial
      · exact helse' ⟨j, hji⟩
    cases b with
    | free | timing | waitEmpty => exact ⟨_, htaken' _ hbar trivial, helse'⟩
    | locked => exact hlocked id
    | changing p => cases p <;> exact hlocked id
  · cases st with
    | free => exact .any fun v ↦ whenFree_watch hr
    | timing => exact .any fun v ↦ whenTiming_watch hr
    | waitEmpty => exact .any fun v ↦ whenWaitEmpty_watch hr
    | _ => exact .ret fun _ _ h ↦ h

end Machine

/-- The critical section of `sensor_work_func`. -/
theorem takeEcho_watch : watchOutline.Triple .worker watchingAll (perform (.takeEcho i)) fun r ↦
    (taken i r).and (elsewhere i) := by
  refine .call fun s r x hs hwatch hexec _ ↦ ?_
  have hx : slotMachine.Emits s.state (.op .worker (.takeEcho i) r) x := hexec
  have hvars (j : Slot) : (x.sensor j).watched = (s.state.sensor j).watched :=
    watched_of_emits hx fun _ _ _ hl ↦ by cases hl
  refine ⟨fun j ↦ (hs.2 j).log (fun _ hl ↦ by cases hl) (fun _ _ _ hl ↦ by cases hl), ?_,
    fun ⟨j, hji⟩ ↦ ?_⟩
  · intro b hb hunlocked
    have hbar : barOf i s.trace = some b := by
      rwa [Snap.log_trace, barOf_append_of_none rfl] at hb
    refine ⟨hb, rfl, s.trace, [], rfl, by simp, by simp, ?_⟩
    rw [Snap.log_state, hvars i]
    exact hwatch i b hbar
  · have hne : ¬(i = j ∧ ValidEcho (ktimeToUs (r.2 - r.1))) := fun h ↦ hji h.1.symm
    exact (hwatch j).log ⟨if_neg hne, hvars j, fun _ _ hl ↦ by cases hl⟩

theorem sensorWorkFunc_watch (i : Slot) : watchOutline.Triple .worker watchingAll (sensorWorkFunc i)
    fun _ ↦ watchingAll := by
  refine .bind takeEcho_watch fun r ↦ ?_
  obtain ⟨start, stop⟩ := r
  refine .ite (fun hvalid ↦ ?_) fun hvalid ↦ .ret fun s _ ⟨htaken, helse⟩ j ↦ ?_
  · have hread : reading? i (.op .worker (.takeEcho i) (start, stop))
        = some (decide (occupiedOf (echoCm (ktimeToUs (stop - start))) ≠ 0)) := by
      rw [reading?, if_pos ⟨rfl, hvalid⟩]
      by_cases hnear : echoCm (ktimeToUs (stop - start)) ≤ occupiedThresholdCm <;>
        simp [occupiedOf, hnear]
    refine .bind (neutral_taken ((updateStatus_uses i _).mono fun o ho ↦ ?_))
      fun _ ↦ lockMachine_watch hread
    cases o <;> trivial
  · by_cases hji : j = i
    · subst hji
      intro b hb
      by_cases hunlocked : b.Unlocked
      · have hcalm : Calm j (.op .worker (.takeEcho j) (start, stop)) :=
          ⟨if_neg fun h ↦ hvalid h.2, rfl⟩
        exact (htaken b hb hunlocked).induction (fun _ h ↦ h.append hcalm)
          fun _ _ hl h ↦ h.append hl
      · cases b with
        | free | timing => exact absurd trivial hunlocked
        | _ => trivial
    · exact helse ⟨j, hji⟩

theorem lockWorkFunc_watch (i : Slot) : watchOutline.Triple .worker watchingAll (lockWorkFunc i)
    fun _ ↦ watchingAll := by
  refine .frame (lockWorkFunc_uses i) fun o ho s a x hs hwatch hexec hknown ↦ ?_
  have hx : slotMachine.Emits s.state (.op .worker o a) x := hexec
  by_cases hneutral : o.Neutral
  · exact ⟨fun j ↦ (hs.2 j).neutral hneutral,
      fun j ↦ (hwatch j).log (harmless_of_neutral hneutral hx j)⟩
  -- the bar comes to rest, locked or not
  · obtain ⟨st, hst, rfl⟩ : ∃ st, (st = .locked ∨ st = .waitEmpty) ∧ o = .setLockSt i st := by
      cases o with
      | setLockSt j st =>
        obtain ⟨rfl, hst⟩ := ho
        exact ⟨st, hst, rfl⟩
      | takeEcho | store => exact ho.elim
      | _ => exact absurd trivial hneutral
    refine ⟨fun j ↦ (hs.2 j).log (fun t hl ↦ ?_) (fun _ _ _ hl ↦ by cases hl), fun j ↦ ?_⟩
    · obtain ⟨-, hop, -⟩ := Label.op.inj hl
      obtain ⟨-, rfl⟩ := SlotOp.setLockSt.inj hop
      rcases hst with hst | hst <;> cases hst
    · by_cases hji : j = i
      · subst hji
        intro b hb
        have hlockSt : b.lockSt = st := by
          rw [← ((hknown j).matches_bar hb).lockSt, ← (emits_op.mp hx).2]
          simp [SlotOp.effect]
        cases b with
        | free | timing => rcases hst with rfl | rfl <;> cases hlockSt
        | _ => trivial
      · have hvars : (x.sensor j).watched = (s.state.sensor j).watched :=
          watched_of_emits hx fun _ _ _ hl ↦ by cases hl
        refine (hwatch j).log ⟨rfl, hvars, fun t st' hl ↦ ?_⟩
        obtain ⟨-, hop, -⟩ := Label.op.inj hl
        exact absurd (SlotOp.setLockSt.inj hop).1.symm hji

/-! ## Every run -/

def watchIdle : ∀ t, watchOutline.Assertion t
  | .worker => watchingAll
  | _ => .top

theorem btnIsr_watch (i : Slot) :
    watchOutline.Triple (.button i) .top (btnIsr i) fun _ ↦ .top := by
  refine .frame (btnIsr_uses i) fun o ho s a x hs _ hexec _ ↦ ⟨fun j ↦ (hs.2 j).log (fun t hl ↦ ?_)
    fun t v y hl hv ↦ ?_, trivial⟩
  · obtain ⟨-, rfl, -⟩ := Label.op.inj hl
    cases ho.2
  · obtain ⟨-, rfl, -⟩ := Label.op.inj hl
    exact absurd ho.2 hv

theorem watchOutline_valid : watchOutline.Valid watchIdle where
  ext hs _ _ i := (hs.2 i).log (fun _ hl ↦ by cases hl) fun _ _ _ hl ↦ by cases hl
  start {t j s p x} hs hidle hentry hknown := by
    have hx : slotMachine.Emits s.state (.start t j) x := ⟨p, hentry⟩
    have hinv : watchOutline.inv (s.log x (.start t j)) :=
      fun i ↦ (hs.2 i).log (fun _ hl ↦ by cases hl) fun _ _ _ hl ↦ by cases hl
    refine ⟨hinv, ?_⟩
    obtain ⟨w, rfl, rfl, rfl, -, -⟩ | ⟨rfl, rfl, rfl, -⟩ | ⟨k, rfl, rfl, rfl, -⟩ :=
      slotEntry_cases hentry
    · have hvars (i : Slot) : (x.sensor i).watched = (s.state.sensor i).watched :=
        watched_of_emits hx fun _ _ _ hl ↦ by cases hl
      have hwatch : watchingAll (s.log x (.start .worker (.work w))) :=
        fun i ↦ (hidle i).log ⟨rfl, hvars i, fun _ _ hl ↦ by cases hl⟩
      cases w with
      | sensor i => exact sensorWorkFunc_watch i _ ⟨hknown, hinv⟩ hwatch
      | lock i => exact lockWorkFunc_watch i _ ⟨hknown, hinv⟩ hwatch
    · have htick : watchOutline.Triple .timer .top measureTimerCb fun _ ↦ .top :=
        .frame measureTimerCb_uses fun o ho _ _ _ hs _ _ _ ↦
          ⟨fun i ↦ (hs.2 i).neutral (by cases o <;> trivial), trivial⟩
      exact htick _ ⟨hknown, hinv⟩ trivial
    · exact btnIsr_watch k _ ⟨hknown, hinv⟩ trivial

/-- **Locked for a reason.** Whenever the worker sets out to lock a slot, a vehicle has stayed there
for long enough: an earlier reading found the slot occupied, `LOCK_TIMEOUT_MS` have passed since it
was processed, the present reading finds it occupied too, in between there have never been
`UNOCCUPIED_RELEASE_COUNT` readings in succession that did not, nor has the slot been locked or
unlocked; and if it was unlocked before, it has been seen unoccupied between that and the earlier
reading. -/
theorem locked_only_when_sustained {c : SlotConfig} (hc : SlotReachable c) (i : Slot) :
    Always (fun pre l ↦ ∀ t, l = .op t (.setLockSt i .locking) () → Sustained i pre) c.trace := by
  refine ((watchOutline_valid.reachable (fun j ↦ ⟨always_nil, always_nil⟩) (fun t ↦ ?_) hc
    fun c₁ h₁ ↦ (lock_holds h₁).1).1 i).sustained
  cases t with
  | worker =>
    intro j b hb
    obtain rfl : .free = b := Option.some.inj hb
    intro before l after heq
    simp at heq
  | _ => trivial

/-- A vehicle stays long enough, and the worker sets out to lock its slot. -/
theorem locked_only_when_sustained_first : ∃ c pre post, SlotReachable c
    ∧ c.trace = pre ++ .op .worker (.setLockSt 0 .locking) () :: post ∧ Sustained 0 pre := by
  have hvalid : ValidEcho (ktimeToUs (290000 - 0)) := by decide
  have hocc : occupiedOf (echoCm (ktimeToUs (290000 - 0))) ≠ 0 := by decide
  have helapsed : lockTimeoutMs ≤ ktimeToMs (10000000000 - 0) := by decide
  obtain ⟨c, hc, -, -, -, -, pre, post, htrace⟩ :=
    exists_locking (c := .init .init) (i := 0) rfl rfl rfl
    rfl hvalid hocc helapsed
  exact ⟨c, pre, post, hc, htrace, locked_only_when_sustained hc 0 pre _ post htrace .worker rfl⟩

end ParkingService.Slots
