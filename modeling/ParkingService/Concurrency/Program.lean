import Mathlib.Data.Nat.Notation
import Mathlib.Logic.Function.Iterate

/-!
# Interruptible programs

A thread of execution is a `Prog`: a tree whose nodes are the atomic operations the thread
performs and whose branches are the answers it may get. Everything between two operations is pure
computation and cannot be observed, so a program written with `do` over `Prog.call` has exactly
the interleaving points its operations give it. Nothing here says what an operation does; that is
the business of a `Machine`.

`Prog.run` is what a program does when nobody interferes and the answers are given by a function.
`Prog.Uses` confines a program to a set of operations. It is what the frame rule of the program
logic asks for.
-/

namespace Concurrency

/-- A program over the operations `Op`, where operation `o` is answered by a `Resp o`. -/
inductive Prog {Op : Type} (Resp : Op → Type) (α : Type) : Type
  | ret (a : α) : Prog Resp α
  | op (o : Op) (k : Resp o → Prog Resp α) : Prog Resp α

namespace Prog

variable {Op : Type} {Resp : Op → Type} {α β : Type}

/-- Sequencing: the second program continues at every leaf of the first. -/
protected def bind : Prog Resp α → (α → Prog Resp β) → Prog Resp β
  | ret a, f => f a
  | op o k, f => op o fun r ↦ (k r).bind f

instance : Monad (Prog Resp) where
  pure := ret
  bind := Prog.bind

/-- The program that performs one operation and returns its answer. -/
def call (o : Op) : Prog Resp (Resp o) := op o ret

/-- `for (i = 0; i < n; i++) p`. -/
def times : ℕ → Prog Resp Unit → Prog Resp Unit
  | 0, _ => pure ()
  | n + 1, p => do p; times n p

@[simp] theorem pure_eq_ret (a : α) : (pure a : Prog Resp α) = ret a := rfl

@[simp] theorem op_bind (o : Op) (k : Resp o → Prog Resp α) (f : α → Prog Resp β) :
    op o k >>= f = op o fun r ↦ k r >>= f := rfl

instance : LawfulMonad (Prog Resp) := by
  refine LawfulMonad.mk' _ ?_ ?_ ?_
  · intro α p
    induction p with
    | ret a => rfl
    | op o k ih => exact congrArg (op o) (funext ih)
  · intro α β a f
    rfl
  · intro α β γ p f g
    induction p with
    | ret a => rfl
    | op o k ih => exact congrArg (op o) (funext ih)

/-! ## Running a program alone -/

section Run

variable {σ : Type} (h : (o : Op) → σ → Resp o × σ)

/-- Run a program whose operations are answered by a function of some state. -/
def run : Prog Resp α → σ → α × σ
  | ret a, s => (a, s)
  | op o k, s => (k (h o s).1).run (h o s).2

variable {h} {s : σ}

theorem run_bind (p : Prog Resp α) (f : α → Prog Resp β) :
    (p >>= f).run h s = (f (p.run h s).1).run h (p.run h s).2 := by
  induction p generalizing s with
  | ret a => rfl
  | op o k ih => exact ih _

/-- A counted loop repeats what its body does to the state. -/
theorem run_times (p : Prog Resp Unit) (n : ℕ) :
    ((times n p).run h s).2 = (fun s ↦ (p.run h s).2)^[n] s := by
  induction n generalizing s with
  | zero => rfl
  | succ n ih =>
    rw [times, run_bind, Function.iterate_succ_apply]
    exact ih

end Run

/-! ## Footprints -/

/-- Every operation the program may perform satisfies `S`. -/
def Uses (S : Op → Prop) : Prog Resp α → Prop
  | ret _ => True
  | op o k => S o ∧ ∀ r, (k r).Uses S

variable {S : Op → Prop}

@[simp] theorem uses_call {o : Op} : (call o : Prog Resp _).Uses S ↔ S o :=
  ⟨fun h ↦ h.1, fun h ↦ ⟨h, fun _ ↦ trivial⟩⟩

theorem Uses.mono {T : Op → Prop} {p : Prog Resp α} (h : ∀ o, S o → T o) (hp : p.Uses S) :
    p.Uses T := by
  induction p with
  | ret a => trivial
  | op o k ih => exact ⟨h o hp.1, fun r ↦ ih r (hp.2 r)⟩

theorem uses_of_forall (h : ∀ o, S o) (p : Prog Resp α) : p.Uses S := by
  induction p with
  | ret a => trivial
  | op o k ih => exact ⟨h o, ih⟩

theorem uses_bind {p : Prog Resp α} {f : α → Prog Resp β} (hp : p.Uses S)
    (hf : ∀ a, (f a).Uses S) : (p >>= f).Uses S := by
  induction p with
  | ret a => exact hf a
  | op o k ih => exact ⟨hp.1, fun r ↦ ih r (hp.2 r)⟩

theorem uses_times {p : Prog Resp Unit} (hp : p.Uses S) (n : ℕ) : (times n p).Uses S := by
  induction n with
  | zero => trivial
  | succ n ih => exact uses_bind hp fun _ ↦ ih

theorem uses_ite {c : Prop} [Decidable c] {p q : Prog Resp α} (hp : c → p.Uses S)
    (hq : ¬c → q.Uses S) : (if c then p else q).Uses S := by
  split
  · exact hp ‹_›
  · exact hq ‹_›

end Prog

end Concurrency
