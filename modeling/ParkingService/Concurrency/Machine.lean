import Mathlib.Logic.Function.Iterate
import Mathlib.Logic.Relation
import ParkingService.Concurrency.Program

/-!
# Machines, runs and traces

A `Machine` gives the operations of its threads a meaning over a shared state, says which program
a thread runs next when it is idle, and lists the events its environment may add at any moment. A
`Config` is the shared state, the trace of everything that happened so far, and what each thread
has left to do. Threads and environment take turns one operation at a time, in any order.

The trace is part of the configuration, so a statement about every run is a statement about every
reachable configuration, and every prefix of a run is itself the trace of one.

## Running alone

`Machine.May` is what a thread that no one interrupts can end in, for *some* choice of the answers,
and `Machine.MayPass` what it can come through. Both compose along the program, and their `steps`
turn them into reachability: this is how particular runs are exhibited without listing their steps.
`Machine.Must` is about *every* choice of the answers.
-/

namespace Concurrency

variable {ι J Op : Type} {Resp : Op → Type} {E σ : Type}

/-! ## Labels and snapshots -/

/-- What one step of a machine looks like from outside. -/
inductive Label (ι J : Type) {Op : Type} (Resp : Op → Type) (E : Type) : Type
  /-- Thread `t` takes up job `j`. -/
  | start (t : ι) (j : J)
  /-- Thread `t` performs `o` and is answered `r`. -/
  | op (t : ι) (o : Op) (r : Resp o)
  /-- The environment acts. -/
  | ext (e : E)

/-- The thread whose step it is; `none` for the environment. -/
def Label.by? : Label ι J Resp E → Option ι
  | .start t _ => some t
  | .op t _ _ => some t
  | .ext _ => none

/-- The shared state and the trace that led to it, oldest label first. -/
structure Snap (ι J : Type) {Op : Type} (Resp : Op → Type) (E σ : Type) where
  state : σ
  trace : List (Label ι J Resp E)

/-- The snapshot after one more step. -/
def Snap.log (s : Snap ι J Resp E σ) (x : σ) (l : Label ι J Resp E) : Snap ι J Resp E σ :=
  ⟨x, s.trace ++ [l]⟩

@[simp] theorem Snap.log_state (s : Snap ι J Resp E σ) (x : σ) (l : Label ι J Resp E) :
    (s.log x l).state = x := rfl

@[simp] theorem Snap.log_trace (s : Snap ι J Resp E σ) (x : σ) (l : Label ι J Resp E) :
    (s.log x l).trace = s.trace ++ [l] := rfl

/-- The labels that have come since an earlier snapshot. -/
def Snap.since (s s₀ : Snap ι J Resp E σ) : List (Label ι J Resp E) :=
  s.trace.drop s₀.trace.length

theorem Snap.since_log {s s₀ : Snap ι J Resp E σ} {x : σ} {l : Label ι J Resp E}
    (h : s₀.trace <+: s.trace) : (s.log x l).since s₀ = s.since s₀ ++ [l] := by
  rw [since, log_trace, List.drop_append_of_le_length h.length_le, since]

theorem Snap.trace_append_since {s s₀ : Snap ι J Resp E σ} (h : s₀.trace <+: s.trace) :
    s₀.trace ++ s.since s₀ = s.trace :=
  List.prefix_iff_eq_append.mp h

theorem Snap.since_trans {s s₁ s₂ : Snap ι J Resp E σ} (h : s.trace <+: s₁.trace)
    (h' : s₁.trace <+: s₂.trace) : s₂.since s = s₁.since s ++ s₂.since s₁ := by
  rw [since, ← trace_append_since h', List.drop_append_of_le_length h.length_le]
  rfl

/-! ## Machines and their steps -/

/-- The meaning of the operations, of taking up a job and of the environment's events. A result of
`none` says that the step is not possible in that state. -/
structure Machine (ι J : Type) {Op : Type} (Resp : Op → Type) (E σ : Type) where
  /-- The program with which an idle thread takes up a job. -/
  entry : ι → J → σ → Option (Prog Resp Unit × σ)
  /-- The effect of an operation that is given this answer. -/
  exec : (o : Op) → Resp o → σ → Option σ
  /-- The effect of an event of the environment. -/
  ext : E → σ → Option σ

/-- A step with this label may lead from one state to the other. -/
def Machine.Emits (M : Machine ι J Resp E σ) (s : σ) : Label ι J Resp E → σ → Prop
  | .start t j, x => ∃ p, M.entry t j s = some (p, x)
  | .op _ o r, x => M.exec o r s = some x
  | .ext e, x => M.ext e s = some x

/-- A snapshot together with what every thread has left to do; an idle thread has `none`. -/
structure Config (ι J : Type) {Op : Type} (Resp : Op → Type) (E σ : Type) extends
    Snap ι J Resp E σ where
  thread : ι → Option (Prog Resp Unit)

variable [DecidableEq ι]

/-- One step of one thread or of the environment. -/
inductive Machine.Step (M : Machine ι J Resp E σ) :
    Config ι J Resp E σ → Config ι J Resp E σ → Prop
  | start {c t j p x} (hidle : c.thread t = none) (h : M.entry t j c.state = some (p, x)) :
      M.Step c ⟨c.toSnap.log x (.start t j), Function.update c.thread t (some p)⟩
  | op {c t o k r x} (hrun : c.thread t = some (.op o k)) (h : M.exec o r c.state = some x) :
      M.Step c ⟨c.toSnap.log x (.op t o r), Function.update c.thread t (some (k r))⟩
  | finish {c t} (hrun : c.thread t = some (.ret ())) :
      M.Step c ⟨c.toSnap, Function.update c.thread t none⟩
  | ext {c e x} (h : M.ext e c.state = some x) :
      M.Step c ⟨c.toSnap.log x (.ext e), c.thread⟩

/-- Any number of steps, in any interleaving. -/
def Machine.Steps (M : Machine ι J Resp E σ) :
    Config ι J Resp E σ → Config ι J Resp E σ → Prop :=
  Relation.ReflTransGen M.Step

/-- All threads idle, nothing has happened. -/
def Config.init (x : σ) : Config ι J Resp E σ := ⟨⟨x, []⟩, fun _ ↦ none⟩

namespace Machine

variable {M : Machine ι J Resp E σ} {c c' : Config ι J Resp E σ}

/-- A step appends at most one label. -/
theorem Step.trace_prefix (h : M.Step c c') : c.trace <+: c'.trace := by
  cases h with
  | start => exact List.prefix_append _ _
  | op => exact List.prefix_append _ _
  | finish => exact List.prefix_refl _
  | ext => exact List.prefix_append _ _

theorem Steps.trace_prefix (h : M.Steps c c') : c.trace <+: c'.trace := by
  induction h with
  | refl => exact List.prefix_refl _
  | tail _ hstep ih => exact ih.trans hstep.trace_prefix

/-- The past does not matter: a run can be repeated with other labels before it. -/
theorem Steps.rebase (h : M.Steps c c') (pre : List (Label ι J Resp E)) :
    ∃ tr, c'.trace = c.trace ++ tr
      ∧ M.Steps ⟨⟨c.state, pre⟩, c.thread⟩ ⟨⟨c'.state, pre ++ tr⟩, c'.thread⟩ := by
  induction h with
  | refl => exact ⟨[], by simp, by simpa using .refl⟩
  | @tail c₁ c₂ _ hstep ih =>
    obtain ⟨tr, htr, hsteps⟩ := ih
    cases hstep with
    | start hidle hentry =>
      refine ⟨tr ++ [_], by rw [Snap.log_trace, htr, List.append_assoc], hsteps.tail ?_⟩
      rw [← List.append_assoc]
      exact .start (c := ⟨⟨c₁.state, pre ++ tr⟩, c₁.thread⟩) hidle hentry
    | op hrun hexec =>
      refine ⟨tr ++ [_], by rw [Snap.log_trace, htr, List.append_assoc], hsteps.tail ?_⟩
      rw [← List.append_assoc]
      exact .op (c := ⟨⟨c₁.state, pre ++ tr⟩, c₁.thread⟩) hrun hexec
    | finish hrun =>
      exact ⟨tr, htr, hsteps.tail (.finish (c := ⟨⟨c₁.state, pre ++ tr⟩, c₁.thread⟩) hrun)⟩
    | ext hext =>
      refine ⟨tr ++ [_], by rw [Snap.log_trace, htr, List.append_assoc], hsteps.tail ?_⟩
      rw [← List.append_assoc]
      exact .ext (c := ⟨⟨c₁.state, pre ++ tr⟩, c₁.thread⟩) hext

/-- A step emits one label, unless a thread finishes its job. -/
theorem Step.emits (h : M.Step c c') : c'.toSnap = c.toSnap
    ∨ ∃ l, M.Emits c.state l c'.state ∧ c'.toSnap = c.toSnap.log c'.state l := by
  cases h with
  | start _ hentry => exact .inr ⟨.start _ _, ⟨_, hentry⟩, rfl⟩
  | op _ hexec => exact .inr ⟨.op _ _ _, hexec, rfl⟩
  | finish => exact .inl rfl
  | ext hevent => exact .inr ⟨.ext _, hevent, rfl⟩

/-- What every step of every kind preserves, whichever thread makes it and whatever its program,
holds in every run. -/
theorem Steps.invariant {I : Snap ι J Resp E σ → Prop} (h : M.Steps c c') (hc : I c.toSnap)
    (hstep : ∀ {s l x}, I s → M.Emits s.state l x → I (s.log x l)) : I c'.toSnap := by
  induction h with
  | refl => exact hc
  | tail _ h ih =>
    obtain hsame | ⟨l, hl, hlog⟩ := h.emits
    · rwa [hsame]
    · rw [hlog]
      exact hstep ih hl

/-- What every step with a permitted label preserves holds in every run with permitted labels. -/
theorem Steps.invariant_of_labels {I : Snap ι J Resp E σ → Prop} {P : Label ι J Resp E → Prop}
    (h : M.Steps c c') (hP : ∀ l ∈ c'.since c.toSnap, P l) (hc : I c.toSnap)
    (hstep : ∀ {c₁ c₂ l}, M.Steps c c₁ → M.Step c₁ c₂ → M.Emits c₁.state l c₂.state →
      c₂.toSnap = c₁.toSnap.log c₂.state l → P l → I c₁.toSnap → I c₂.toSnap) : I c'.toSnap := by
  induction h with
  | refl => exact hc
  | @tail c₁ c₂ hsteps h ih =>
    obtain hsame | ⟨l, hl, hlog⟩ := h.emits
    · rw [hsame] at hP ⊢
      exact ih hP
    · rw [hlog, Snap.since_log (Steps.trace_prefix hsteps)] at hP
      refine hstep hsteps h hl hlog (hP l (by simp)) (ih fun l' hl' ↦ ?_)
      exact hP l' (List.mem_append_left _ hl')

/-- The programs that a thread takes up keep to certain operations. -/
def Confines (M : Machine ι J Resp E σ) (S : ι → Op → Prop) : Prop :=
  ∀ t j s p x, M.entry t j s = some (p, x) → p.Uses (S t)

/-- What is left of a program keeps to them as well. -/
theorem Steps.uses {S : ι → Op → Prop} {x : σ} (hM : M.Confines S) (h : M.Steps (.init x) c)
    {t : ι} {p : Prog Resp Unit} (hrun : c.thread t = some p) : p.Uses (S t) := by
  induction h generalizing p with
  | refl => cases hrun
  | @tail c₁ c₂ _ hstep ih =>
    cases hstep with
    | @start t' j p' y _ hentry =>
      change Function.update c₁.thread t' (some p') t = some p at hrun
      rw [Function.update_apply] at hrun
      split at hrun
      · subst t'
        obtain rfl := Option.some.inj hrun
        exact hM t j _ p' y hentry
      · exact ih hrun
    | @op t' o k r y hop _ =>
      change Function.update c₁.thread t' (some (k r)) t = some p at hrun
      rw [Function.update_apply] at hrun
      split at hrun
      · subst t'
        obtain rfl := Option.some.inj hrun
        exact (ih hop).2 r
      · exact ih hrun
    | @finish t' hop =>
      change Function.update c₁.thread t' none t = some p at hrun
      rw [Function.update_apply] at hrun
      split at hrun
      · cases hrun
      · exact ih hrun
    | ext => exact ih hrun

/-- A thread has performed no other operation. -/
theorem Steps.confined {S : ι → Op → Prop} {x : σ} (hM : M.Confines S) (h : M.Steps (.init x) c)
    {t : ι} {o : Op} {r : Resp o} (hl : .op t o r ∈ c.trace) : S t o := by
  induction h with
  | refl => cases hl
  | @tail c₁ c₂ hsteps hstep ih =>
    cases hstep with
    | start =>
      rcases List.mem_append.mp hl with hl | hl
      · exact ih hl
      · cases List.mem_singleton.mp hl
    | op hrun =>
      rcases List.mem_append.mp hl with hl | hl
      · exact ih hl
      · cases List.mem_singleton.mp hl
        exact (Steps.uses hM hsteps hrun).1
    | finish => exact ih hl
    | ext =>
      rcases List.mem_append.mp hl with hl | hl
      · exact ih hl
      · cases List.mem_singleton.mp hl

end Machine

/-! ## Running one thread alone -/

/-- Thread `t`, left alone, may get from program `p` in one snapshot to what is left of it in
another. -/
inductive Machine.Advances (M : Machine ι J Resp E σ) (t : ι) {α : Type} :
    Prog Resp α → Snap ι J Resp E σ → Prog Resp α → Snap ι J Resp E σ → Prop
  | refl {p s} : M.Advances t p s p s
  | op {o k r x s p s'} (h : M.exec o r s.state = some x)
      (hk : M.Advances t (k r) (s.log x (.op t o r)) p s') : M.Advances t (.op o k) s p s'

namespace Machine.Advances

variable {M : Machine ι J Resp E σ} {t : ι} {α β : Type} {s s' s'' : Snap ι J Resp E σ}

omit [DecidableEq ι] in
theorem trans {p p' p'' : Prog Resp α} (h : M.Advances t p s p' s')
    (h' : M.Advances t p' s' p'' s'') : M.Advances t p s p'' s'' := by
  induction h with
  | refl => exact h'
  | op hexec _ ih => exact .op hexec (ih h')

omit [DecidableEq ι] in
theorem bind {p p' : Prog Resp α} (h : M.Advances t p s p' s') (f : α → Prog Resp β) :
    M.Advances t (p >>= f) s (p' >>= f) s' := by
  induction h with
  | refl => exact .refl
  | op hexec _ ih => exact .op hexec ih

omit [DecidableEq ι] in
/-- A loop that logs the same label at every pass. -/
theorem times {body : Prog Resp Unit} {l : Label ι J Resp E} {next : σ → σ}
    (h : ∀ s, M.Advances t body s (.ret ()) (s.log (next s.state) l)) (n : ℕ) :
    M.Advances t (.times n body) s (.ret ())
      ⟨Nat.iterate next n s.state, s.trace ++ List.replicate n l⟩ := by
  induction n generalizing s with
  | zero => simpa [Prog.times] using Advances.refl (M := M) (t := t) (p := .ret ()) (s := s)
  | succ n ih =>
    have hrest := ih (s := s.log (next s.state) l)
    rw [Snap.log_trace, List.append_assoc, List.singleton_append, ← List.replicate_succ] at hrest
    exact ((h s).bind fun _ ↦ .times n body).trans hrest

theorem steps {p p' : Prog Resp Unit} {c : Config ι J Resp E σ}
    (h : M.Advances t p c.toSnap p' s') (hrun : c.thread t = some p) :
    M.Steps c ⟨s', Function.update c.thread t (some p')⟩ := by
  generalize hs : c.toSnap = s at h
  induction h generalizing c with
  | refl =>
    subst hs
    rw [← hrun, Function.update_eq_self]
    exact .refl
  | @op o k r x s p s' hexec _ ih =>
    subst hs
    have hstep : M.Step c
        ⟨c.toSnap.log x (.op t o r), Function.update c.thread t (some (k r))⟩ := .op hrun hexec
    have hrest := ih (c := ⟨c.toSnap.log x (.op t o r),
      Function.update c.thread t (some (k r))⟩) (Function.update_self ..) rfl
    rw [Function.update_idem] at hrest
    exact .head hstep hrest

/-- A job of a lone thread, from the moment it is taken up. -/
theorem steps_of_start {p p' : Prog Resp Unit} {j : J} {x : σ} {c : Config ι J Resp E σ}
    (h : M.Advances t p (c.toSnap.log x (.start t j)) p' s') (hidle : c.thread t = none)
    (hentry : M.entry t j c.state = some (p, x)) :
    M.Steps c ⟨s', Function.update c.thread t (some p')⟩ := by
  have hstart : M.Step c ⟨c.toSnap.log x (.start t j), Function.update c.thread t (some p)⟩ :=
    .start hidle hentry
  have hrest := h.steps
    (c := ⟨c.toSnap.log x (.start t j), Function.update c.thread t (some p)⟩)
    (Function.update_self ..)
  rw [Function.update_idem] at hrest
  exact .head hstart hrest

end Machine.Advances

/-- Program `p` of thread `t`, left alone, may end in `Q`: for some answers, that is. -/
def Machine.May (M : Machine ι J Resp E σ) (t : ι) {α : Type} (p : Prog Resp α)
    (Q : α → Snap ι J Resp E σ → Prop) (s : Snap ι J Resp E σ) : Prop :=
  ∃ a s', M.Advances t p s (.ret a) s' ∧ Q a s'

/-- Program `p` of thread `t`, left alone, may come through `Q`. -/
def Machine.MayPass (M : Machine ι J Resp E σ) (t : ι) {α : Type} (p : Prog Resp α)
    (Q : Snap ι J Resp E σ → Prop) (s : Snap ι J Resp E σ) : Prop :=
  ∃ p' s', M.Advances t p s p' s' ∧ Q s'

section May

variable {M : Machine ι J Resp E σ} {t : ι} {α β : Type} {s : Snap ι J Resp E σ}

omit [DecidableEq ι] in
theorem Machine.May.ret {a : α} {Q : α → Snap ι J Resp E σ → Prop} (h : Q a s) :
    M.May t (.ret a) Q s :=
  ⟨a, s, .refl, h⟩

omit [DecidableEq ι] in
theorem Machine.May.call {o : Op} (r : Resp o) {x : σ} {Q : Resp o → Snap ι J Resp E σ → Prop}
    (h : M.exec o r s.state = some x) (hQ : Q r (s.log x (.op t o r))) :
    M.May t (.call o) Q s :=
  ⟨r, _, .op h .refl, hQ⟩

omit [DecidableEq ι] in
theorem Machine.May.imp {p : Prog Resp α} {Q Q' : α → Snap ι J Resp E σ → Prop}
    (h : M.May t p Q s) (hQ : ∀ a s', Q a s' → Q' a s') : M.May t p Q' s := by
  obtain ⟨a, s', hp, ha⟩ := h
  exact ⟨a, s', hp, hQ a s' ha⟩

omit [DecidableEq ι] in
theorem Machine.May.bind {p : Prog Resp α} {f : α → Prog Resp β}
    {Q : β → Snap ι J Resp E σ → Prop} (h : M.May t p (fun a s' ↦ M.May t (f a) Q s') s) :
    M.May t (p >>= f) Q s := by
  obtain ⟨a, s', hp, b, s'', hf, hQ⟩ := h
  exact ⟨b, s'', (hp.bind f).trans hf, hQ⟩

omit [DecidableEq ι] in
/-- What none of the operations of a program changes is the same at its end. -/
theorem Machine.May.frame {β : Type} {f : σ → β} {S : Op → Prop} {p : Prog Resp α}
    {Q : α → Snap ι J Resp E σ → Prop} (huses : p.Uses S)
    (hkeep : ∀ o r x y, S o → M.exec o r x = some y → f y = f x) (h : M.May t p Q s) :
    M.May t p (fun a s' ↦ Q a s' ∧ f s'.state = f s.state) s := by
  obtain ⟨a, s', hp, hQ⟩ := h
  have hframe {p p' : Prog Resp α} {s s' : Snap ι J Resp E σ} (hp : M.Advances t p s p' s')
      (huses : p.Uses S) : f s'.state = f s.state := by
    induction hp with
    | refl => rfl
    | op hexec _ ih => exact (ih (huses.2 _)).trans (hkeep _ _ _ _ huses.1 hexec)
  exact ⟨a, s', hp, hQ, hframe hp huses⟩

omit [DecidableEq ι] in
theorem Machine.MayPass.here {p : Prog Resp α} {Q : Snap ι J Resp E σ → Prop} (h : Q s) :
    M.MayPass t p Q s :=
  ⟨p, s, .refl, h⟩

omit [DecidableEq ι] in
theorem Machine.MayPass.of_advances {p p' : Prog Resp α} {s' : Snap ι J Resp E σ}
    {Q : Snap ι J Resp E σ → Prop} (hp : M.Advances t p s p' s') (h : M.MayPass t p' Q s') :
    M.MayPass t p Q s := by
  obtain ⟨q, s'', hq, hQ⟩ := h
  exact ⟨q, s'', hp.trans hq, hQ⟩

omit [DecidableEq ι] in
/-- What is passed after the first part. -/
theorem Machine.MayPass.bind {p : Prog Resp α} {f : α → Prog Resp β}
    {Q : Snap ι J Resp E σ → Prop} (h : M.May t p (fun a s' ↦ M.MayPass t (f a) Q s') s) :
    M.MayPass t (p >>= f) Q s := by
  obtain ⟨a, s', hp, q, s'', hf, hQ⟩ := h
  exact ⟨q, s'', (hp.bind f).trans hf, hQ⟩

omit [DecidableEq ι] in
/-- What is passed within the first part. -/
theorem Machine.MayPass.left {p : Prog Resp α} {f : α → Prog Resp β}
    {Q : Snap ι J Resp E σ → Prop} (h : M.MayPass t p Q s) : M.MayPass t (p >>= f) Q s := by
  obtain ⟨p', s', hp, hQ⟩ := h
  exact ⟨p' >>= f, s', hp.bind f, hQ⟩

variable {p : Prog Resp Unit} {j : J} {x : σ} {c : Config ι J Resp E σ}

/-- The rest of a job of a lone thread. -/
theorem Machine.May.steps_of_run {Q : Unit → Snap ι J Resp E σ → Prop} (h : M.May t p Q c.toSnap)
    (hrun : c.thread t = some p) :
    ∃ c', M.Steps c c' ∧ c'.thread = Function.update c.thread t none ∧ Q () c'.toSnap := by
  obtain ⟨⟨⟩, s', hp, hQ⟩ := h
  have hfinish := Step.finish (M := M) (t := t)
    (c := ⟨s', Function.update c.thread t (some (.ret ()))⟩) (Function.update_self ..)
  rw [Function.update_idem] at hfinish
  exact ⟨⟨s', Function.update c.thread t none⟩, (hp.steps hrun).tail hfinish, rfl, hQ⟩

/-- A whole job of a lone thread, from idle to idle. -/
theorem Machine.May.steps {Q : Unit → Snap ι J Resp E σ → Prop}
    (h : M.May t p Q (c.toSnap.log x (.start t j))) (hidle : c.thread t = none)
    (hentry : M.entry t j c.state = some (p, x)) :
    ∃ c', M.Steps c c' ∧ c'.thread = c.thread ∧ Q () c'.toSnap := by
  have hstart : M.Step c ⟨c.toSnap.log x (.start t j), Function.update c.thread t (some p)⟩ :=
    .start hidle hentry
  obtain ⟨c', hsteps, hthread, hQ⟩ := h.steps_of_run
    (c := ⟨c.toSnap.log x (.start t j), Function.update c.thread t (some p)⟩)
    (Function.update_self ..)
  rw [Function.update_idem, ← hidle, Function.update_eq_self] at hthread
  exact ⟨c', .head hstart hsteps, hthread, hQ⟩

theorem Machine.MayPass.steps {Q : Snap ι J Resp E σ → Prop}
    (h : M.MayPass t p Q (c.toSnap.log x (.start t j))) (hidle : c.thread t = none)
    (hentry : M.entry t j c.state = some (p, x)) : ∃ c', M.Steps c c' ∧ Q c'.toSnap := by
  obtain ⟨p', s', hrun, hQ⟩ := h
  exact ⟨_, hrun.steps_of_start hidle hentry, hQ⟩

end May

/-- Program `p` of thread `t`, left alone, can only end in `Q`, whatever it is answered. -/
def Machine.Must (M : Machine ι J Resp E σ) (t : ι) {α : Type} (p : Prog Resp α)
    (Q : α → Snap ι J Resp E σ → Prop) (s : Snap ι J Resp E σ) : Prop :=
  ∀ a s', M.Advances t p s (.ret a) s' → Q a s'

namespace Machine.Must

variable {M : Machine ι J Resp E σ} {t : ι} {α β : Type} {s : Snap ι J Resp E σ}

omit [DecidableEq ι] in
theorem ret {a : α} {Q : α → Snap ι J Resp E σ → Prop} (h : Q a s) : M.Must t (.ret a) Q s := by
  intro b s' hb
  cases hb
  exact h

omit [DecidableEq ι] in
theorem call {o : Op} {Q : Resp o → Snap ι J Resp E σ → Prop}
    (h : ∀ r x, M.exec o r s.state = some x → Q r (s.log x (.op t o r))) :
    M.Must t (.call o) Q s := by
  intro b s' hb
  cases hb with
  | op hexec hk =>
    cases hk
    exact h _ _ hexec

omit [DecidableEq ι] in
theorem bind {p : Prog Resp α} {f : α → Prog Resp β} {Q : β → Snap ι J Resp E σ → Prop}
    (h : M.Must t p (fun a s' ↦ M.Must t (f a) Q s') s) : M.Must t (p >>= f) Q s := by
  induction p generalizing s with
  | ret a => exact h a s .refl
  | op o k ih =>
    intro b s' hb
    cases hb with
    | op hexec hk => exact ih _ (fun a s₁ ha ↦ h a s₁ (.op hexec ha)) b s' hk

end Machine.Must

end Concurrency
