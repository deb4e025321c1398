import Mathlib.Order.Nat
import ParkingService.Gate.StateMachine
import ParkingService.Streams.Decisions

/-!
# Debouncing on a counter that wraps

`switch_irq_handler` compares `jiffies`, a 32-bit word, with the word it stored at the last press it
accepted. The comparison is the kernel's `time_before`: the difference, read as a signed word, is
negative. It answers the question "has the time come?" for half of all differences, and for the
other half it answers the opposite.

Before the first press the stored word is 0, which is no press at all. The kernel starts `jiffies`
five minutes before the word wraps, so a press in these minutes is taken for one that comes *before*
the time `0 + D`, and is ignored (`first_press_ignored`).
-/

namespace ParkingService

open Streams

/-! ## The handler -/

/-- `jiffies`, `t` ticks after it was `j₀`. -/
def jiffies (j₀ t : ℕ) : BitVec 32 := .ofNat 32 (j₀ + t)

/-- `time_before(a, b)` -/
def timeBefore (a b : BitVec 32) : Bool := (a - b).toInt < 0

/-- `DEBOUNCE_MS` -/
def debounceMs : ℕ := 300

section Handler

variable (msecsToJiffies : ℕ → ℕ)

/-- What the handler does to the state machine, and `last_switch_time` after it. -/
def switchIrqHandler (now lastSwitchTime : BitVec 32) : Option GateEvent × BitVec 32 :=
  if timeBefore now (lastSwitchTime + .ofNat 32 (msecsToJiffies debounceMs)) then
    (none, lastSwitchTime)
  else (some .press, now)

/-- What the handler does at a sequence of edges, given by their ticks. -/
def switchEdges (j₀ : ℕ) : (lastSwitchTime : BitVec 32) → List ℕ → List (Option GateEvent)
  | _, [] => []
  | lastSwitchTime, t :: ts =>
    let r := switchIrqHandler msecsToJiffies (jiffies j₀ t) lastSwitchTime
    r.1 :: switchEdges j₀ r.2 ts

end Handler

/-! ## What it is for -/

/-- Accept the first edge, and then every edge that comes `d` ticks or more after the last accepted
one. -/
def debounce (d : ℕ) : (last : Option ℕ) → (t : ℕ) → Bool
  | none, _ => true
  | some a, t => decide (a + d ≤ t)

/-- An accepted edge is a press for the state machine, an ignored one is nothing. -/
def pressIf (b : Bool) : Option GateEvent := if b then some .press else none

/-- The edges that debouncing accepts become presses. -/
def debouncedEdges (d : ℕ) (ts : List ℕ) : List (Option GateEvent) :=
  (decisions (debounce d) none ts).map pressIf

/-- An edge, with the last accepted one, at which the words compare as the times do: less than 2³¹
ticks, up to a multiple of 2³², have passed since it could be accepted. -/
def ComparesRight (d j₀ : ℕ) : Option ℕ × ℕ → Prop
  | (none, t) => (j₀ + t + 2 ^ 32 - d) % 2 ^ 32 < 2 ^ 31
  | (some a, t) => a + d ≤ t → (t - (a + d)) % 2 ^ 32 < 2 ^ 31

instance (d j₀ : ℕ) : DecidablePred (ComparesRight d j₀)
  | (none, _) => inferInstanceAs (Decidable (_ < _))
  | (some _, _) => inferInstanceAs (Decidable (_ → _))

/-! ## The comparison -/

/-- The word stored when the press at `a` was accepted. -/
def storedTime (j₀ : ℕ) : Option ℕ → BitVec 32
  | none => 0
  | some a => jiffies j₀ a

/-- The handler's decision, in terms of the last press it accepted. -/
def handlerKeeps (d j₀ : ℕ) (last : Option ℕ) (t : ℕ) : Bool :=
  !timeBefore (jiffies j₀ t) (storedTime j₀ last + .ofNat 32 d)

theorem timeBefore_ofNat {x y : ℕ} :
    timeBefore (.ofNat 32 x) (.ofNat 32 y)
      = decide (2 ^ 31 ≤ (x + 2 ^ 32 - y % 2 ^ 32) % 2 ^ 32) := by
  have hneg := BitVec.toInt_neg_iff (x := BitVec.ofNat 32 x - BitVec.ofNat 32 y)
  rw [BitVec.toNat_sub, BitVec.toNat_ofNat, BitVec.toNat_ofNat] at hneg
  rw [timeBefore, decide_eq_decide, hneg]
  omega

theorem handlerKeeps_none {d j₀ t : ℕ} (hd : d < 2 ^ 31) :
    handlerKeeps d j₀ none t = decide ((j₀ + t + 2 ^ 32 - d) % 2 ^ 32 < 2 ^ 31) := by
  have hsum : storedTime j₀ none + BitVec.ofNat 32 d = BitVec.ofNat 32 d := BitVec.zero_add _
  rw [handlerKeeps, hsum, jiffies, timeBefore_ofNat, ← decide_not, decide_eq_decide]
  omega

theorem handlerKeeps_some {d j₀ a t : ℕ} (hd : d < 2 ^ 31) (hat : a ≤ t) :
    handlerKeeps d j₀ (some a) t = decide (a + d ≤ t ∧ (t - (a + d)) % 2 ^ 32 < 2 ^ 31) := by
  have hsum : storedTime j₀ (some a) + BitVec.ofNat 32 d = BitVec.ofNat 32 (j₀ + a + d) :=
    (BitVec.ofNat_add _ _).symm
  rw [handlerKeeps, hsum, jiffies, timeBefore_ofNat, ← decide_not, decide_eq_decide]
  omega

/-- The handler and debouncing agree about an edge exactly if the words compare right there. -/
theorem handlerKeeps_eq_debounce {d j₀ t : ℕ} {last : Option ℕ} (hd : d < 2 ^ 31)
    (hlast : ∀ a ∈ last, a ≤ t) :
    handlerKeeps d j₀ last t = debounce d last t ↔ ComparesRight d j₀ (last, t) := by
  cases last with
  | none => rw [handlerKeeps_none hd, debounce, decide_eq_true_iff, ComparesRight]
  | some a =>
    rw [handlerKeeps_some hd (hlast a rfl), debounce, decide_eq_decide, ComparesRight]
    exact ⟨fun h hdue ↦ (h.mpr hdue).2, fun h ↦ ⟨And.left, fun hdue ↦ ⟨hdue, h hdue⟩⟩⟩

/-! ## A sequence of edges -/

/-- The word is all the handler needs to remember of the last press it accepted. -/
theorem switchEdges_eq_decisions (msecsToJiffies : ℕ → ℕ) (j₀ : ℕ) (last : Option ℕ) (ts : List ℕ) :
    switchEdges msecsToJiffies j₀ (storedTime j₀ last) ts
      = (decisions (handlerKeeps (msecsToJiffies debounceMs) j₀) last ts).map pressIf := by
  induction ts generalizing last with
  | nil => rfl
  | cons t ts ih =>
    rw [switchEdges, decisions, List.map_cons]
    cases htime : timeBefore (jiffies j₀ t)
        (storedTime j₀ last + .ofNat 32 (msecsToJiffies debounceMs)) with
    | true =>
      have hkeeps : handlerKeeps (msecsToJiffies debounceMs) j₀ last t = false := by
        rw [handlerKeeps, htime, Bool.not_true]
      rw [remember, hkeeps, switchIrqHandler, htime]
      exact congrArg (none :: ·) (ih last)
    | false =>
      have hkeeps : handlerKeeps (msecsToJiffies debounceMs) j₀ last t = true := by
        rw [handlerKeeps, htime, Bool.not_false]
      rw [remember, hkeeps, switchIrqHandler, htime]
      exact congrArg (some .press :: ·) (ih (some t))

theorem pressIf_injective : Function.Injective pressIf := by
  intro a b hab
  cases a <;> cases b
  all_goals first | rfl | cases hab

/-- **When debouncing is exact.** The handler accepts the edges it should exactly if, at the first
edge, `jiffies` is less than half of its range past `D`, and at every later edge that is to be
accepted less than half of it, up to full turns of the counter, has passed since it could be. -/
theorem debounced_iff (msecsToJiffies : ℕ → ℕ) (hspan : msecsToJiffies debounceMs < 2 ^ 31)
    (j₀ : ℕ) {ts : List ℕ} (hsorted : ts.Pairwise (· ≤ ·)) :
    switchEdges msecsToJiffies j₀ 0 ts = debouncedEdges (msecsToJiffies debounceMs) ts
      ↔ ∀ p ∈ withLast (debounce (msecsToJiffies debounceMs)) none ts,
          ComparesRight (msecsToJiffies debounceMs) j₀ p := by
  have hdecisions := switchEdges_eq_decisions msecsToJiffies j₀ none ts
  rw [storedTime] at hdecisions
  rw [hdecisions, debouncedEdges, (List.map_injective_iff.mpr pressIf_injective).eq_iff,
    decisions_eq_iff]
  apply forall₂_congr
  intro p hp
  apply handlerKeeps_eq_debounce hspan
  intro a ha
  exact le_of_mem_withLast hsorted (fun b hb ↦ absurd hb (Option.not_mem_none b)) hp ha

/-- 100 ticks a second. -/
def centiseconds (ms : ℕ) : ℕ := (ms + 9) / 10

/-- The module is loaded 100 s after the kernel was started, and the button pressed 10 s later: the
press is ignored, and so is every other one of the next three minutes. -/
theorem first_press_ignored :
    switchEdges centiseconds (2 ^ 32 - 20000) 0 [1000, 2000, 19999] = [none, none, none]
      ∧ debouncedEdges (centiseconds debounceMs) [1000, 2000, 19999]
          = [some .press, some .press, some .press] :=
  ⟨rfl, rfl⟩

/-- The same button after the counter has wrapped: a bouncing contact and a second press. -/
theorem late_presses_debounced :
    switchEdges centiseconds (2 ^ 32 - 20000) 0 [21000, 21002, 21029, 21030]
      = debouncedEdges (centiseconds debounceMs) [21000, 21002, 21029, 21030] :=
  (debounced_iff centiseconds (by decide) (2 ^ 32 - 20000) (by decide)).mpr (by decide)

end ParkingService
