import Mathlib.Data.Sum.Basic
import ParkingService.Concurrency.Outline

/-!
# Two machines over one state

`Machine.par` lets two machines share a state: it has the threads, the jobs and the events of both,
and a program of either is one of its programs. Nothing keeps the two apart but what they do, so a
run of the pair is any interleaving of the two, one operation at a time.

A run of the first machine is a run of the pair in which the second one never moves (`steps_inl`).
-/

namespace Concurrency

variable {ι ι' J J' Op Op' : Type} {Resp : Op → Type} {Resp' : Op' → Type} {E E' σ α β : Type}

/-- The answers of either kind of operation. -/
abbrev RespSum (Resp : Op → Type) (Resp' : Op' → Type) : Op ⊕ Op' → Type := Sum.elim Resp Resp'

namespace Prog

/-- A program of the first machine. -/
def inl : Prog Resp α → Prog (RespSum Resp Resp') α
  | ret a => ret a
  | op o k => op (.inl o) fun r ↦ (k r).inl

/-- A program of the second machine. -/
def inr : Prog Resp' α → Prog (RespSum Resp Resp') α
  | ret a => ret a
  | op o k => op (.inr o) fun r ↦ (k r).inr

theorem inl_bind (p : Prog Resp α) (f : α → Prog Resp β) :
    (p >>= f).inl = (p.inl >>= fun a ↦ (f a).inl : Prog (RespSum Resp Resp') β) := by
  induction p with
  | ret a => rfl
  | op o k ih => exact congrArg (op _) (funext ih)

theorem inr_bind (p : Prog Resp' α) (f : α → Prog Resp' β) :
    (p >>= f).inr = (p.inr >>= fun a ↦ (f a).inr : Prog (RespSum Resp Resp') β) := by
  induction p with
  | ret a => rfl
  | op o k ih => exact congrArg (op _) (funext ih)

theorem inl_times (p : Prog Resp Unit) (n : ℕ) :
    (times n p).inl = (times n p.inl : Prog (RespSum Resp Resp') Unit) := by
  induction n with
  | zero => rfl
  | succ n ih =>
    rw [times, inl_bind, ih]
    rfl

end Prog

theorem Prog.uses_inl {S : Op ⊕ Op' → Prop} {p : Prog Resp α} (hp : p.Uses fun o ↦ S (.inl o)) :
    (p.inl : Prog (RespSum Resp Resp') α).Uses S := by
  induction p with
  | ret a => trivial
  | op o k ih => exact ⟨hp.1, fun r ↦ ih r (hp.2 r)⟩

theorem Prog.uses_inr {S : Op ⊕ Op' → Prop} {p : Prog Resp' α} (hp : p.Uses fun o ↦ S (.inr o)) :
    (p.inr : Prog (RespSum Resp Resp') α).Uses S := by
  induction p with
  | ret a => trivial
  | op o k ih => exact ⟨hp.1, fun r ↦ ih r (hp.2 r)⟩

/-- A label of the first machine. -/
def Label.inl : Label ι J Resp E → Label (ι ⊕ ι') (J ⊕ J') (RespSum Resp Resp') (E ⊕ E')
  | .start t j => .start (.inl t) (.inl j)
  | .op t o r => .op (.inl t) (.inl o) r
  | .ext e => .ext (.inl e)

namespace Machine

/-- Two machines over one state. -/
def par (M : Machine ι J Resp E σ) (N : Machine ι' J' Resp' E' σ) :
    Machine (ι ⊕ ι') (J ⊕ J') (RespSum Resp Resp') (E ⊕ E') σ where
  entry
    | .inl t, .inl j, s => (M.entry t j s).map fun (p, x) ↦ (p.inl, x)
    | .inr t, .inr j, s => (N.entry t j s).map fun (p, x) ↦ (p.inr, x)
    | .inl _, .inr _, _ | .inr _, .inl _, _ => none
  exec
    | .inl o, r, s => M.exec o r s
    | .inr o, r, s => N.exec o r s
  ext
    | .inl e, s => M.ext e s
    | .inr e, s => N.ext e s

end Machine

/-! ## Rules -/

section Rules

variable {K : Machine ι J (RespSum Resp Resp') E σ} {O : Outline K} {t : ι}
  {P : O.Assertion t} {R : α → O.Assertion t} {Q : β → O.Assertion t}

/-- A sequence of the first kind. -/
theorem Outline.Triple.bind_inl {p : Prog Resp α} {f : α → Prog Resp β} (hp : O.Triple t P p.inl R)
    (hf : ∀ a, O.Triple t (R a) (f a).inl Q) : O.Triple t P (p >>= f).inl Q := by
  rw [Prog.inl_bind]
  exact hp.bind hf

/-- A sequence of the second kind. -/
theorem Outline.Triple.bind_inr {p : Prog Resp' α} {f : α → Prog Resp' β}
    (hp : O.Triple t P p.inr R)
    (hf : ∀ a, O.Triple t (R a) (f a).inr Q) : O.Triple t P (p >>= f).inr Q := by
  rw [Prog.inr_bind]
  exact hp.bind hf

/-- A sequence of the second kind, run alone. -/
theorem Machine.May.bind_inr {p : Prog Resp' α} {f : α → Prog Resp' β}
    {Q : β → Snap ι J (RespSum Resp Resp') E σ → Prop} {s : Snap ι J (RespSum Resp Resp') E σ}
    (h : K.May t p.inr (fun a s' ↦ K.May t (f a).inr Q s') s) : K.May t (p >>= f).inr Q s := by
  rw [Prog.inr_bind]
  exact .bind h

end Rules

/-! ## Runs of the first machine -/

/-- What the first machine has done. -/
def Snap.inl (s : Snap ι J Resp E σ) : Snap (ι ⊕ ι') (J ⊕ J') (RespSum Resp Resp') (E ⊕ E') σ :=
  ⟨s.state, s.trace.map .inl⟩

/-- What the threads of the first machine have left to do; the others are idle. -/
def Prog.threads (f : ι → Option (Prog Resp Unit)) :
    ι ⊕ ι' → Option (Prog (RespSum Resp Resp') Unit) :=
  Sum.elim (fun t ↦ (f t).map Prog.inl) fun _ ↦ none

/-- A configuration of the first machine, with the second one idle. -/
def Config.inl (c : Config ι J Resp E σ) :
    Config (ι ⊕ ι') (J ⊕ J') (RespSum Resp Resp') (E ⊕ E') σ :=
  ⟨c.toSnap.inl, Prog.threads c.thread⟩

theorem Config.inl_init (x : σ) : (Config.init x : Config ι J Resp E σ).inl
    = (.init x : Config (ι ⊕ ι') (J ⊕ J') (RespSum Resp Resp') (E ⊕ E') σ) := by
  have hidle : (Prog.threads fun _ ↦ none : ι ⊕ ι' → Option (Prog (RespSum Resp Resp') Unit))
      = fun _ ↦ none := by
    funext t
    cases t <;> rfl
  simp only [inl, init, Snap.inl, hidle, List.map_nil]

theorem Snap.inl_log (s : Snap ι J Resp E σ) (x : σ) (l : Label ι J Resp E) :
    (s.log x l).inl =
      (s.inl.log x l.inl : Snap (ι ⊕ ι') (J ⊕ J') (RespSum Resp Resp') (E ⊕ E') σ) := by
  simp [inl, log]

namespace Machine

variable [DecidableEq ι] [DecidableEq ι'] {M : Machine ι J Resp E σ} {N : Machine ι' J' Resp' E' σ}
  {c c' : Config ι J Resp E σ}

theorem threads_update (f : ι → Option (Prog Resp Unit)) (t : ι) (p : Option (Prog Resp Unit)) :
    (Prog.threads (Function.update f t p) : ι ⊕ ι' → Option (Prog (RespSum Resp Resp') Unit))
      = Function.update (Prog.threads f) (.inl t) (p.map Prog.inl) := by
  rw [Prog.threads, Prog.threads, Sum.update_elim_inl]
  congr 1
  exact Function.comp_update (Option.map Prog.inl) f t p

theorem step_inl (h : M.Step c c') : (M.par N).Step c.inl c'.inl := by
  cases h with
  | @start t j p x hidle hentry =>
    rw [Config.inl, Config.inl, Snap.inl_log, threads_update]
    refine .start (c := ⟨c.toSnap.inl, Prog.threads c.thread⟩) ?_ ?_
    · simp [Prog.threads, hidle]
    · simp [par, Snap.inl, hentry]
  | op hrun hexec =>
    rw [Config.inl, Config.inl, Snap.inl_log, threads_update]
    refine .op (c := ⟨c.toSnap.inl, Prog.threads c.thread⟩) (k := fun r ↦ (_ : Prog _ _).inl)
      ?_ hexec
    simp [Prog.threads, hrun, Prog.inl]
  | finish hrun =>
    rw [Config.inl, Config.inl, threads_update]
    refine .finish (c := ⟨c.toSnap.inl, Prog.threads c.thread⟩) ?_
    simp [Prog.threads, hrun, Prog.inl]
  | ext hext =>
    rw [Config.inl, Config.inl, Snap.inl_log]
    exact .ext (c := ⟨c.toSnap.inl, Prog.threads c.thread⟩) hext

/-- A run of the first machine alone. -/
theorem steps_inl (h : M.Steps c c') : (M.par N).Steps c.inl c'.inl := by
  induction h with
  | refl => exact .refl
  | tail _ hstep ih => exact ih.tail (step_inl hstep)

omit [DecidableEq ι] [DecidableEq ι'] in
/-- The threads of the first machine keep to its operations. -/
theorem par_confines : (M.par N).Confines fun t o ↦ t.isLeft = true → o.isLeft = true := by
  intro t j s p x hentry
  rcases t with t | t <;> rcases j with j | j
  · obtain ⟨⟨q, y⟩, -, heq⟩ := Option.map_eq_some_iff.mp hentry
    rw [← (Prod.mk.inj heq).1]
    exact Prog.uses_inl (Prog.uses_of_forall (fun _ _ ↦ rfl) q)
  · cases hentry
  · cases hentry
  · exact Prog.uses_of_forall (fun o ht ↦ by cases ht) p

/-- They perform none of the second machine. -/
theorem Steps.isLeft_of_mem {c : Config (ι ⊕ ι') (J ⊕ J') (RespSum Resp Resp') (E ⊕ E') σ} {x : σ}
    (h : (M.par N).Steps (.init x) c) {t : ι} {o : Op ⊕ Op'} {r : RespSum Resp Resp' o}
    (hl : .op (.inl t) o r ∈ c.trace) : o.isLeft = true :=
  Steps.confined par_confines h hl rfl

end Machine

end Concurrency
