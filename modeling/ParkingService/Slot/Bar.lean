import ParkingService.Slot.Driver

/-!
# The locking bar of one slot

What the bar of a slot goes through, without threads, work items and clocks. `Bar.move` is a partial
function: it says which moves are allowed in which state, so a sequence of moves is lawful if
`Bar.run` accepts it. Every change of the bar is one round of the same five stages: the lock state
is entered, the direction is written down, the work item is queued (and was not queued before), it
starts, it reads back the direction that was written down, and it turns `LOCK_STEPS` times that way.

A lawful sequence turns the bar to and fro: `run_steps` gives the direction of the `n`-th motor step
as a function of `n` alone.
-/

namespace ParkingService.Slots

/-- How far a change of the bar has got. -/
inductive Stage
  | entered
  | flagged
  | queued
  | started
  | turning (k : ℕ)
  deriving DecidableEq

/-- Motor steps that the change has made. -/
def Stage.turned : Stage → ℕ
  | turning k => k
  | _ => 0

/-- The bar at rest in one of four states, or changing to locked or to unlocked. -/
inductive Bar
  | free
  | timing
  | locked
  | waitEmpty
  | changing (lock : Bool) (stage : Stage)
  deriving DecidableEq

/-- What can happen to the bar of a slot. -/
inductive Move
  /-- `lock_st` is set -/
  | become (st : LockState)
  /-- `lock_pending` is set -/
  | flag (lock : Bool)
  /-- `lock_work` is queued; it was not pending before if `fresh` -/
  | queue (fresh : Bool)
  /-- `lock_work` starts -/
  | start
  /-- `lock_work` reads `lock_pending` -/
  | read (lock : Bool)
  /-- one motor step -/
  | step (dir : ℤ)

namespace Bar

/-- `lock_st` -/
def lockSt : Bar → LockState
  | free => .free
  | timing => .timing
  | locked => .locked
  | waitEmpty => .waitEmpty
  | changing lock _ => if lock then .locking else .unlocking

/-- The way the motor turns. -/
def turnDir (dir : ℤ) (lock : Bool) : ℤ := if lock then dir else -dir

/-- Where a change leads to. -/
def goal (lock : Bool) : Bar := if lock then locked else waitEmpty

/-- The allowed moves. -/
def move (dir : ℤ) : Bar → Move → Option Bar
  | free, .become .timing => some timing
  | timing, .become .free => some free
  | timing, .become .locking => some (changing true .entered)
  | locked, .become .unlocking => some (changing false .entered)
  | waitEmpty, .become .free => some free
  | changing lock .entered, .flag p => if p = lock then some (changing lock .flagged) else none
  | changing lock .flagged, .queue fresh => if fresh then some (changing lock .queued) else none
  | changing lock .queued, .start => some (changing lock .started)
  | changing lock .started, .read p =>
    if p = lock then some (changing lock (.turning 0)) else none
  | changing lock (.turning k), .step d =>
    if k < lockSteps ∧ d = turnDir dir lock then some (changing lock (.turning (k + 1))) else none
  | changing lock (.turning k), .become st =>
    if k = lockSteps ∧ st = (goal lock).lockSt then some (goal lock) else none
  | _, _ => none

/-- The allowed moves, one by one. -/
inductive Moves (dir : ℤ) : Bar → Move → Bar → Prop
  | occupy : Moves dir free (.become .timing) timing
  | release : Moves dir timing (.become .free) free
  | lock : Moves dir timing (.become .locking) (changing true .entered)
  | unlock : Moves dir locked (.become .unlocking) (changing false .entered)
  | empty : Moves dir waitEmpty (.become .free) free
  | flag {p} : Moves dir (changing p .entered) (.flag p) (changing p .flagged)
  | queue {p} : Moves dir (changing p .flagged) (.queue true) (changing p .queued)
  | start {p} : Moves dir (changing p .queued) .start (changing p .started)
  | read {p} : Moves dir (changing p .started) (.read p) (changing p (.turning 0))
  | step {p k} (hk : k < lockSteps) :
    Moves dir (changing p (.turning k)) (.step (turnDir dir p)) (changing p (.turning (k + 1)))
  | finish {p} :
    Moves dir (changing p (.turning lockSteps)) (.become (goal p).lockSt) (goal p)

theorem move_eq_some {dir : ℤ} {b b' : Bar} {m : Move} :
    move dir b m = some b' ↔ Moves dir b m b' := by
  constructor
  · intro h
    unfold move at h
    split at h <;> simp only [Option.ite_none_right_eq_some, Option.some.injEq, reduceCtorEq] at h
    case h_1 => subst h; exact .occupy
    case h_2 => subst h; exact .release
    case h_3 => subst h; exact .lock
    case h_4 => subst h; exact .unlock
    case h_5 => subst h; exact .empty
    case h_6 => obtain ⟨rfl, rfl⟩ := h; exact .flag
    case h_7 => obtain ⟨rfl, rfl⟩ := h; exact .queue
    case h_8 => subst h; exact .start
    case h_9 => obtain ⟨rfl, rfl⟩ := h; exact .read
    case h_10 => obtain ⟨⟨hk, rfl⟩, rfl⟩ := h; exact .step hk
    case h_11 => obtain ⟨⟨rfl, rfl⟩, rfl⟩ := h; exact .finish
  · intro h
    cases h with
    | step hk => simp [move, hk]
    | _ => simp [move]

/-- Steps of the present rotation. -/
def turned : Bar → ℕ
  | changing _ stage => stage.turned
  | _ => 0

/-- Steps away from the unlocked position. -/
def position : Bar → ℤ
  | locked => lockSteps
  | changing lock stage => if lock then stage.turned else lockSteps - stage.turned
  | _ => 0

/-- The work item has been queued and has not started. -/
def Queued : Bar → Prop
  | changing _ .queued => True
  | _ => False

instance : DecidablePred Queued
  | changing _ .queued => isTrue trivial
  | free | timing | locked | waitEmpty | changing _ .entered | changing _ .flagged
  | changing _ .started | changing _ (.turning _) => isFalse id

/-- The direction that is written down, from the moment it is until the work item reads it. -/
def flagged : Bar → Option Bool
  | changing lock .flagged | changing lock .queued | changing lock .started => some lock
  | _ => none

/-- Nothing is left to do for whoever is responsible: the bar is at rest, or its work item is
queued. -/
def Settled : Bar → Prop
  | changing _ .queued => True
  | changing _ _ => False
  | _ => True

/-! ## Lawful sequences -/

def run (dir : ℤ) (ms : List Move) : Option Bar := ms.foldlM (move dir) free

theorem run_append_singleton (dir : ℤ) (ms : List Move) (m : Move) :
    run dir (ms ++ [m]) = (run dir ms).bind (move dir · m) := by
  rw [run, List.foldlM_append]
  simp [run]

/-- The directions of the motor steps. -/
def steps (ms : List Move) : List ℤ :=
  ms.filterMap fun
    | .step d => some d
    | _ => none

/-- The direction of the `n`-th motor step: `LOCK_STEPS` times one way, then as often back. -/
def scheduled (dir : ℤ) (n : ℕ) : ℤ := turnDir dir (n / lockSteps % 2 = 0)

/-- Motor steps since the bar was last unlocked. -/
def phase : Bar → ℕ
  | locked => lockSteps
  | changing lock stage => if lock then stage.turned else lockSteps + stage.turned
  | _ => 0

/-- What the allowed moves preserve holds after every lawful sequence. -/
theorem run_induction {dir : ℤ} {P : List Move → Bar → Prop} (hnil : P [] free)
    (hstep : ∀ ms b m b', P ms b → Moves dir b m b' → P (ms ++ [m]) b') {ms : List Move} {b : Bar}
    (h : run dir ms = some b) : P ms b := by
  induction ms using List.reverseRecOn generalizing b with
  | nil =>
    obtain rfl : free = b := Option.some.inj h
    exact hnil
  | append_singleton ms m ih =>
    rw [run_append_singleton, Option.bind_eq_some_iff] at h
    obtain ⟨b₀, hb₀, hmove⟩ := h
    exact hstep ms b₀ m b (ih hb₀) (move_eq_some.mp hmove)

theorem turned_le_of_run {dir : ℤ} {ms : List Move} {b : Bar} (h : run dir ms = some b) :
    b.turned ≤ lockSteps := by
  refine run_induction (P := fun _ b ↦ b.turned ≤ lockSteps) (Nat.zero_le _) ?_ h
  intro ms b m b' _ hmove
  cases hmove with
  | step hk => exact hk
  | @finish p => cases p <;> exact Nat.zero_le _
  | _ => exact Nat.zero_le _

/-- A motor step is the one that is due. -/
theorem scheduled_eq (dir : ℤ) {n k : ℕ} {p : Bool} (hk : k < lockSteps)
    (hn : n % (2 * lockSteps) = (changing p (.turning k)).phase % (2 * lockSteps)) :
    scheduled dir n = turnDir dir p ∧ (n + 1) % (2 * lockSteps)
      = (changing p (.turning (k + 1))).phase % (2 * lockSteps) := by
  cases p with
  | true =>
    have heven : n / lockSteps % 2 = 0 := by
      simp [phase, Stage.turned, lockSteps] at *
      omega
    refine ⟨by rw [scheduled, decide_eq_true heven], ?_⟩
    simp [phase, Stage.turned, lockSteps] at *
    omega
  | false =>
    have hodd : ¬n / lockSteps % 2 = 0 := by
      simp [phase, Stage.turned, lockSteps] at *
      omega
    refine ⟨by rw [scheduled, decide_eq_false hodd], ?_⟩
    simp [phase, Stage.turned, lockSteps] at *
    omega

/-- Setting the lock state moves nothing. -/
theorem Moves.become_eq {dir : ℤ} {b b' : Bar} {st : LockState} (h : Moves dir b (.become st) b') :
    b'.lockSt = st ∧ b'.position = b.position ∧ ¬b.Queued ∧ ¬b'.Queued ∧ b'.flagged = none := by
  cases h with
  | @finish p => cases p <;> exact ⟨rfl, by simp [goal, position, Stage.turned], id, id, rfl⟩
  | _ => exact ⟨rfl, rfl, id, id, rfl⟩

/-- A motor step moves the bar by one. -/
theorem position_step {dir : ℤ} (hdir : dir = 1 ∨ dir = -1) (p : Bool) (k : ℕ) :
    (changing p (.turning (k + 1))).position
      = (changing p (.turning k)).position + turnDir dir p * dir := by
  rcases hdir with rfl | rfl <;> cases p <;> simp [position, Stage.turned, turnDir]
  · omega
  · omega

/-- Neither does anything that is done about a change before it turns. -/
theorem Moves.changing_eq {dir : ℤ} {b b' : Bar} {m : Move} (h : Moves dir b m b')
    (hm : ∀ st, m ≠ .become st) (hm' : ∀ d, m ≠ .step d) :
    b'.lockSt = b.lockSt ∧ b'.position = b.position := by
  cases h with
  | flag | queue | start | read => exact ⟨rfl, rfl⟩
  | step => exact absurd rfl (hm' _)
  | _ => exact absurd rfl (hm _)

/-- Moves other than motor steps keep the phase. -/
theorem Moves.phase_eq {dir : ℤ} {b b' : Bar} {m : Move} (h : Moves dir b m b')
    (hm : ∀ d, m ≠ .step d) : b'.phase % (2 * lockSteps) = b.phase % (2 * lockSteps) := by
  cases h with
  | step => exact absurd rfl (hm _)
  | @finish p => cases p <;> rfl
  | _ => rfl

/-- **The bar goes to and fro.** In a lawful sequence the direction of every motor step follows from
its number. -/
theorem run_steps {dir : ℤ} {ms : List Move} {b : Bar} (h : run dir ms = some b) :
    steps ms = (List.range (steps ms).length).map (scheduled dir)
      ∧ (steps ms).length % (2 * lockSteps) = b.phase % (2 * lockSteps) := by
  refine run_induction (P := fun ms b ↦
    steps ms = (List.range (steps ms).length).map (scheduled dir)
    ∧ (steps ms).length % (2 * lockSteps) = b.phase % (2 * lockSteps)) ⟨rfl, rfl⟩ ?_ h
  rintro ms b m b' ⟨hsteps, hphase⟩ hmove
  by_cases hm : ∃ d, m = .step d
  · obtain ⟨d, rfl⟩ := hm
    have hcat : steps (ms ++ [.step d]) = steps ms ++ [d] := by simp [steps]
    cases hmove with
    | step hk =>
      obtain ⟨hdue, hnext⟩ := scheduled_eq dir hk hphase
      rw [hcat, List.length_append, List.length_singleton, List.range_succ, List.map_append,
        ← hsteps, List.map_singleton, hdue]
      exact ⟨rfl, hnext⟩
  · have hne (d : ℤ) : m ≠ .step d := fun h ↦ hm ⟨d, h⟩
    have hsame : steps (ms ++ [m]) = steps ms := by
      cases m <;> first | exact absurd rfl (hne _) | simp [steps]
    rw [hsame, hmove.phase_eq hne]
    exact ⟨hsteps, hphase⟩

end Bar

end ParkingService.Slots
