import ParkingService.Slot.Lock

/-!
# The readings of a slot

What a trace says about the occupancy of a slot. `Sustained` is the reason for locking it, in terms
of the past alone. The code keeps no record of the past but three variables: `Timing` is what they
stand for while a stay is being timed, and `Cleared` what it means that the slot is free. Each comes
with what becomes of it when the trace grows.
-/

namespace ParkingService.Slots

open Concurrency

/-! ## Readings -/

/-- A valid reading of slot `i`, and whether it finds the slot occupied. -/
def reading? (i : Slot) : SlotLabel → Option Bool
  | .op .worker (.takeEcho j) (start, stop) =>
    if j = i ∧ ValidEcho (ktimeToUs (stop - start)) then
      some (decide (echoCm (ktimeToUs (stop - start)) ≤ occupiedThresholdCm))
    else none
  | _ => none

def readings (i : Slot) (tr : List SlotLabel) : List Bool := tr.filterMap (reading? i)

/-- The lock or the unlock of slot `i` is begun or ended. -/
def ChangesLock (i : Slot) : SlotLabel → Prop
  | .op _ (.setLockSt j st) _ => j = i ∧ st ∈ [.locking, .locked, .unlocking, .waitEmpty]
  | _ => False

/-- The unlock of slot `i` is ended. -/
def EndsUnlock (i : Slot) : SlotLabel → Prop
  | .op _ (.setLockSt j st) _ => j = i ∧ st = .waitEmpty
  | _ => False

/-- The work queue takes a work item. -/
def StartsWork : SlotLabel → Prop
  | .start .worker _ => True
  | _ => False

/-- The work item that is under way reads the clock, which says `now`. -/
def Clocked (now : ℤ) (tr : List SlotLabel) : Prop :=
  ∃ before after, tr = before ++ .op .worker .ktime now :: after ∧ ∀ l ∈ before, ¬StartsWork l

/-- Since the slot was last unlocked it has been seen unoccupied. -/
def Cleared (i : Slot) (tr : List SlotLabel) : Prop :=
  ∀ before l after, tr = before ++ l :: after → EndsUnlock i l → false ∈ readings i after

/-- A vehicle has come, so the reading `first` says, which was processed at `start`; and all of
`rest` has happened since. -/
structure Stay (i : Slot) (start : ℤ) (before : List SlotLabel) (first : SlotLabel)
    (rest : List SlotLabel) : Prop where
  cleared : Cleared i before
  occupied : reading? i first = some true
  clocked : Clocked start rest
  unchanged : ∀ l ∈ rest, ¬ChangesLock i l

/-- The work item that is under way has read slot `i` occupied and the clock at `now`. -/
def OccupiedNow (i : Slot) (now : ℤ) (tr : List SlotLabel) : Prop :=
  ∃ before last after, tr = before ++ last :: after ∧ reading? i last = some true
    ∧ Clocked now after ∧ ∀ l ∈ after, ¬StartsWork l

/-- The reason for locking slot `i`: a stay of `LOCK_TIMEOUT_MS`, during which
`UNOCCUPIED_RELEASE_COUNT` readings in succession have never found it unoccupied. -/
def Sustained (i : Slot) (tr : List SlotLabel) : Prop :=
  ∃ before first rest start now, tr = before ++ first :: rest ∧ Stay i start before first rest
    ∧ OccupiedNow i now rest ∧ lockTimeoutMs ≤ ktimeToMs (now - start)
    ∧ NeverRuns false unoccupiedReleaseCount (readings i (first :: rest))

/-- What `LOCK_TIMING`, `occupy_start` and `consecutive_unoccupied` say about the past. -/
def Timing (i : Slot) (start n : ℤ) (tr : List SlotLabel) : Prop :=
  ∃ before first rest, tr = before ++ first :: rest ∧ Stay i start before first rest
    ∧ ∃ k : ℕ, RunsSince false true unoccupiedReleaseCount k (readings i (first :: rest))
      ∧ k < unoccupiedReleaseCount ∧ (k : ℤ) = n

variable {i : Slot} {s : SlotSnap} {l : SlotLabel} {tr : List SlotLabel} {start n : ℤ}

theorem readings_append (b : Option Bool) (hl : reading? i l = b) :
    readings i (tr ++ [l]) = readings i tr ++ b.toList := by
  rw [readings, List.filterMap_append, readings]
  cases b <;> simp [hl]

theorem EndsUnlock.changesLock (h : EndsUnlock i l) : ChangesLock i l := by
  cases l with
  | op t o r =>
    cases o with
    | setLockSt j st =>
      obtain ⟨rfl, rfl⟩ := h
      exact ⟨rfl, by simp⟩
    | _ => exact h.elim
  | _ => exact h.elim

theorem ChangesLock.reading_eq_none (h : ChangesLock i l) (j : Slot) : reading? j l = none := by
  cases l with
  | op t o r =>
    cases o with
    | setLockSt => cases t <;> rfl
    | _ => exact h.elim
  | _ => exact h.elim

/-! ## How the past grows -/

theorem Cleared.append (h : Cleared i tr) (hl : ¬EndsUnlock i l) : Cleared i (tr ++ [l]) := by
  intro before l' after heq hl'
  rcases List.eq_nil_or_concat after with rfl | ⟨after, l'', rfl⟩
  · obtain ⟨-, hlast⟩ := List.append_inj' heq rfl
    obtain rfl : l = l' := by simpa using hlast
    exact absurd hl' hl
  · have hcat : tr ++ [l] = (before ++ l' :: after) ++ [l''] := by simpa using heq
    have hmem := h before l' after (List.append_inj' hcat rfl).1 hl'
    rw [List.concat_eq_append, readings, List.filterMap_append]
    exact List.mem_append_left _ hmem

theorem cleared_of_unoccupied (hl : reading? i l = some false) : Cleared i (tr ++ [l]) := by
  intro before l' after heq hl'
  rcases List.eq_nil_or_concat after with rfl | ⟨after, l'', rfl⟩
  · obtain ⟨-, hlast⟩ := List.append_inj' heq rfl
    obtain rfl : l = l' := by simpa using hlast
    rw [hl'.changesLock.reading_eq_none] at hl
    cases hl
  · have hcat : tr ++ [l] = (before ++ l' :: after) ++ [l''] := by simpa using heq
    obtain rfl : l = l'' := by simpa using (List.append_inj' hcat rfl).2
    rw [List.concat_eq_append, readings_append _ hl]
    simp

theorem Clocked.append {now : ℤ} (h : Clocked now tr) : Clocked now (tr ++ [l]) := by
  obtain ⟨before, after, rfl, hbefore⟩ := h
  exact ⟨before, after ++ [l], by simp, hbefore⟩

theorem Stay.append {before rest : List SlotLabel} {first : SlotLabel}
    (h : Stay i start before first rest) (hl : ¬ChangesLock i l) :
    Stay i start before first (rest ++ [l]) where
  cleared := h.cleared
  occupied := h.occupied
  clocked := h.clocked.append
  unchanged l' hl' := by
    rcases List.mem_append.mp hl' with hl' | hl'
    · exact h.unchanged l' hl'
    · rwa [List.mem_singleton.mp hl']

namespace Timing

theorem append (h : Timing i start n tr) (hr : reading? i l = none) (hl : ¬ChangesLock i l) :
    Timing i start n (tr ++ [l]) := by
  obtain ⟨before, first, rest, rfl, hstay, hcount⟩ := h
  refine ⟨before, first, rest ++ [l], by simp, hstay.append hl, ?_⟩
  rw [← List.cons_append, readings_append none hr]
  simpa using hcount

/-- A reading that finds the slot occupied. -/
theorem occupied (h : Timing i start n tr) (hr : reading? i l = some true) :
    Timing i start 0 (tr ++ [l]) := by
  have hl : ¬ChangesLock i l := fun hl ↦ by simp [hl.reading_eq_none] at hr
  obtain ⟨before, first, rest, rfl, hstay, k, hruns, hk, -⟩ := h
  refine ⟨before, first, rest ++ [l], by simp, hstay.append hl, 0, ?_, by decide, rfl⟩
  rw [← List.cons_append, readings_append _ hr]
  exact hruns.broken (by decide) hk

/-- A reading that does not, and is not one too many. -/
theorem unoccupied (h : Timing i start n tr) (hr : reading? i l = some false)
    (hn : n + 1 < unoccupiedReleaseCount) : Timing i start (n + 1) (tr ++ [l]) := by
  have hl : ¬ChangesLock i l := fun hl ↦ by simp [hl.reading_eq_none] at hr
  obtain ⟨before, first, rest, rfl, hstay, k, hruns, hk, rfl⟩ := h
  refine ⟨before, first, rest ++ [l], by simp, hstay.append hl, k + 1, ?_, by omega, rfl⟩
  rw [← List.cons_append, readings_append _ hr]
  exact hruns.again

end Timing

end ParkingService.Slots
