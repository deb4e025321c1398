import ParkingService.Concurrency.Machine

/-!
# Sessions

A machine that is started, runs for a while, is stopped and started again, any number of times. A
start resets the state of the machine, except for what it finds in the world and what the last
session has left there. `Lifecycle.Steps` are the lives this makes possible; they alternate between
machines that are on, somewhere in a session, and machines that are off, with only the world left.

A session starts from what is found and knows nothing of earlier ones. So a fact about lives is a
fact about single sessions, for every world that a start may find, and a fact about those worlds, by
induction on the number of sessions.
-/

namespace Concurrency

variable {ι J Op : Type} {Resp : Op → Type} {E σ κ : Type}

/-- A machine with what starts and stops it. -/
structure Lifecycle (ι J : Type) {Op : Type} (Resp : Op → Type) (E σ κ : Type) where
  machine : Machine ι J Resp E σ
  /-- The state that a session starts in, given what it finds. -/
  boot : κ → σ
  /-- A session may stop here, and this is what it leaves. -/
  halt : Config ι J Resp E σ → κ → Prop

/-- A machine that is on or off. -/
inductive Life (ι J : Type) {Op : Type} (Resp : Op → Type) (E σ κ : Type)
  | on (c : Config ι J Resp E σ)
  | off (k : κ)

namespace Lifecycle

/-- The lives in which sessions only stop in configurations of this kind. -/
def onlyIf (L : Lifecycle ι J Resp E σ κ) (C : Config ι J Resp E σ → Prop) :
    Lifecycle ι J Resp E σ κ where
  machine := L.machine
  boot := L.boot
  halt c k := L.halt c k ∧ C c

variable [DecidableEq ι] {L : Lifecycle ι J Resp E σ κ} {c : Config ι J Resp E σ} {k k₀ : κ}
  {x : Life ι J Resp E σ κ}

/-- A machine that is off may be started in any world that is left to it, and one that is on takes a
step of its own or stops where it may. -/
inductive Step (L : Lifecycle ι J Resp E σ κ) :
    Life ι J Resp E σ κ → Life ι J Resp E σ κ → Prop
  | load (k : κ) : L.Step (.off k) (.on (.init (L.boot k)))
  | run {c c' : Config ι J Resp E σ} (h : L.machine.Step c c') : L.Step (.on c) (.on c')
  | unload {c : Config ι J Resp E σ} {k : κ} (h : L.halt c k) : L.Step (.on c) (.off k)

/-- Any number of sessions, or parts of them. -/
def Steps (L : Lifecycle ι J Resp E σ κ) : Life ι J Resp E σ κ → Life ι J Resp E σ κ → Prop :=
  Relation.ReflTransGen L.Step

/-- Part of a session is part of a life. -/
theorem steps_of_steps {c c' : Config ι J Resp E σ} (h : L.machine.Steps c c') :
    L.Steps (.on c) (.on c') := by
  induction h with
  | refl => exact .refl
  | tail _ hstep ih => exact .tail ih (.run hstep)

/-- A whole session. -/
theorem steps_of_session (h : L.machine.Steps (.init (L.boot k₀)) c) (hhalt : L.halt c k) :
    L.Steps (.off k₀) (.off k) :=
  (Relation.ReflTransGen.head (.load k₀) (steps_of_steps h)).tail (.unload hhalt)

/-- **Sessions.** If every session that finds something good leaves something good, then everything
that is found is good, and whoever is on is in a session that has found something good. -/
theorem steps_induction {G : κ → Prop} (h : L.Steps (.off k₀) x) (h₀ : G k₀)
    (hsession : ∀ {k k' c}, G k → L.machine.Steps (.init (L.boot k)) c → L.halt c k' → G k') :
    (∀ k, x = .off k → G k)
      ∧ ∀ c, x = .on c → ∃ k, G k ∧ L.machine.Steps (.init (L.boot k)) c := by
  induction h with
  | refl =>
    constructor
    · rintro k hk
      obtain rfl : k₀ = k := by injection hk
      exact h₀
    · intro c hc
      cases hc
  | tail _ hstep ih =>
    cases hstep with
    | load k =>
      refine ⟨(fun _ hk ↦ by cases hk), fun c hc ↦ ⟨k, ih.1 k rfl, ?_⟩⟩
      obtain rfl : .init (L.boot k) = c := by injection hc
      exact .refl
    | run hrun =>
      obtain ⟨k, hk, hsteps⟩ := ih.2 _ rfl
      refine ⟨(fun _ hk ↦ by cases hk), fun c hc ↦ ⟨k, hk, ?_⟩⟩
      obtain rfl : _ = c := by injection hc
      exact hsteps.tail hrun
    | unload hhalt =>
      obtain ⟨k, hk, hsteps⟩ := ih.2 _ rfl
      refine ⟨fun k' hk' ↦ ?_, fun _ hc ↦ by cases hc⟩
      obtain rfl : _ = k' := by injection hk'
      -- the only step that changes what is found
      exact hsession hk hsteps hhalt

end Lifecycle

end Concurrency
