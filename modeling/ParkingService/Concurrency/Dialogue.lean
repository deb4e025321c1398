import ParkingService.Concurrency.Parallel

/-!
# What a thread has been answered

Whatever the other threads do meanwhile, the operations that a thread performs in a run, with the
answers it is given, are a path through its program. `Prog.Makes` is that path, from the program to
what it returns, and `Machine.Steps.makes` finds it in a run that has brought the thread to its end.
A property of single calls is so proved about paths alone.
-/

namespace Concurrency

variable {ι ι' J J' Op Op' : Type} {Resp : Op → Type} {Resp' : Op' → Type} {E E' σ α β : Type}

namespace Prog

/-- The program may be answered this, one operation after the other, and then return `a`. -/
inductive Makes : Prog Resp α → List ((o : Op) × Resp o) → α → Prop
  | ret (a : α) : Makes (ret a) [] a
  | op {o k r xs a} (h : Makes (k r) xs a) : Makes (op o k) (⟨o, r⟩ :: xs) a

variable {p : Prog Resp α} {xs : List ((o : Op) × Resp o)}

theorem makes_ret {a b : α} : (ret a : Prog Resp α).Makes xs b ↔ xs = [] ∧ b = a := by
  constructor
  · rintro ⟨⟩
    exact ⟨rfl, rfl⟩
  · rintro ⟨rfl, rfl⟩
    exact .ret _

theorem makes_op {o : Op} {k : Resp o → Prog Resp α} {a : α} :
    (op o k).Makes xs a ↔ ∃ r ys, xs = ⟨o, r⟩ :: ys ∧ (k r).Makes ys a := by
  constructor
  · rintro (_ | ⟨h⟩)
    exact ⟨_, _, rfl, h⟩
  · rintro ⟨r, ys, rfl, h⟩
    exact .op h

/-- The path of a sequence is a path of its first part and then one of the second. -/
theorem makes_bind {f : α → Prog Resp β} {b : β} :
    (p >>= f).Makes xs b ↔ ∃ ys a zs, xs = ys ++ zs ∧ p.Makes ys a ∧ (f a).Makes zs b := by
  induction p generalizing xs with
  | ret a =>
    constructor
    · intro h
      exact ⟨[], a, xs, rfl, .ret a, h⟩
    · rintro ⟨ys, a', zs, rfl, hys, hzs⟩
      obtain ⟨rfl, rfl⟩ := makes_ret.mp hys
      exact hzs
  | op o k ih =>
    rw [op_bind, makes_op]
    constructor
    · rintro ⟨r, rest, rfl, h⟩
      obtain ⟨ys, a, zs, rfl, hys, hzs⟩ := (ih r).mp h
      exact ⟨⟨o, r⟩ :: ys, a, zs, rfl, .op hys, hzs⟩
    · rintro ⟨ys, a, zs, rfl, hys, hzs⟩
      obtain ⟨r, rest, rfl, hrest⟩ := makes_op.mp hys
      exact ⟨r, rest ++ zs, rfl, (ih r).mpr ⟨rest, a, zs, rfl, hrest, hzs⟩⟩

/-- An operation comes first. -/
theorem makes_call_bind {o : Op} {f : Resp o → Prog Resp β} {b : β} :
    (call o >>= f).Makes xs b ↔ ∃ r ys, xs = ⟨o, r⟩ :: ys ∧ (f r).Makes ys b :=
  makes_op

theorem makes_call {o : Op} {r : Resp o} :
    (call o : Prog Resp (Resp o)).Makes xs r ↔ xs = [⟨o, r⟩] := by
  rw [call, makes_op]
  constructor
  · rintro ⟨r', ys, rfl, h⟩
    obtain ⟨rfl, rfl⟩ := makes_ret.mp h
    rfl
  · rintro rfl
    exact ⟨r, [], rfl, .ret r⟩

/-- An answer to an operation of the second machine. -/
def answerInr (x : (o : Op') × Resp' o) : (o : Op ⊕ Op') × RespSum Resp Resp' o := ⟨.inr x.1, x.2⟩

/-- The answer, if it is one to an operation of the second machine. -/
def inrAnswer? : (o : Op ⊕ Op') × RespSum Resp Resp' o → Option ((o : Op') × Resp' o)
  | ⟨.inl _, _⟩ => none
  | ⟨.inr o, r⟩ => some ⟨o, r⟩

theorem filterMap_inrAnswer (xs : List ((o : Op') × Resp' o)) :
    (xs.map answerInr : List ((o : Op ⊕ Op') × RespSum Resp Resp' o)).filterMap inrAnswer?
      = xs := by
  rw [List.filterMap_map]
  exact List.filterMap_some

theorem mem_filterMap_inrAnswer {x : (o : Op') × Resp' o}
    {xs : List ((o : Op ⊕ Op') × RespSum Resp Resp' o)} :
    x ∈ xs.filterMap inrAnswer? ↔ answerInr x ∈ xs := by
  rw [List.mem_filterMap]
  constructor
  · rintro ⟨⟨o | o, r⟩, hmem, heq⟩
    · cases heq
    · cases heq
      exact hmem
  · intro hmem
    exact ⟨_, hmem, rfl⟩

theorem makes_inr {p : Prog Resp' α} {a : α} {xs : List ((o : Op ⊕ Op') × RespSum Resp Resp' o)}
    (h : p.inr.Makes xs a) : ∃ ys, xs = ys.map answerInr ∧ p.Makes ys a := by
  induction p generalizing xs with
  | ret a =>
    obtain ⟨rfl, rfl⟩ := makes_ret.mp h
    exact ⟨[], rfl, .ret _⟩
  | op o k ih =>
    obtain ⟨r, rest, rfl, hrest⟩ := makes_op.mp h
    obtain ⟨ys, rfl, hys⟩ := ih r hrest
    exact ⟨⟨o, r⟩ :: ys, rfl, .op hys⟩

end Prog

/-! ## In a run -/

theorem Snap.since_of_append {new : List (Label ι J Resp E)} {s s₁ s₂ : Snap ι J Resp E σ}
    (hnew : s₁.trace = s.trace ++ new) (h : s₁.trace <+: s₂.trace) :
    s₂.since s = new ++ s₂.since s₁ := by
  rw [since_trans (hnew ▸ List.prefix_append _ _) h, since, hnew, List.drop_left]

section Run

variable [DecidableEq ι]

/-- What thread `t` has been answered. -/
def answerTo (t : ι) : Label ι J Resp E → Option ((o : Op) × Resp o)
  | .op t' o r => if t' = t then some ⟨o, r⟩ else none
  | _ => none

/-- A label with which thread `t` begins a job. -/
def Begins (t : ι) : Label ι J Resp E → Prop
  | .start t' _ => t' = t
  | _ => False

namespace Machine

variable {M : Machine ι J Resp E σ} {c c' : Config ι J Resp E σ} {t : ι}

/-- What a step does to a thread that does not begin a job in it. -/
theorem Step.thread_cases (h : M.Step c c') (t : ι) :
    (∃ l, c'.trace = c.trace ++ [l] ∧ Begins t l)
      ∨ (∃ o k r, c'.trace = c.trace ++ [.op t o r] ∧ c.thread t = some (.op o k)
        ∧ c'.thread t = some (k r))
      ∨ c'.trace = c.trace ∧ c.thread t = some (.ret ()) ∧ c'.thread t = none
      ∨ (∃ new, c'.trace = c.trace ++ new ∧ (∀ l ∈ new, answerTo t l = none)
        ∧ c'.thread t = c.thread t) := by
  cases h with
  | @start t' j _ x =>
    by_cases ht : t' = t
    · exact .inl ⟨.start t' j, rfl, ht⟩
    · refine .inr (.inr (.inr ⟨[.start t' j], rfl, ?_, Function.update_of_ne (Ne.symm ht) _ _⟩))
      exact List.forall_mem_singleton.mpr rfl
  | @op t' o k r x hrun =>
    by_cases ht : t' = t
    · subst ht
      exact .inr (.inl ⟨o, k, r, rfl, hrun, Function.update_self _ _ _⟩)
    · refine .inr (.inr (.inr ⟨[.op t' o r], rfl, ?_, Function.update_of_ne (Ne.symm ht) _ _⟩))
      exact List.forall_mem_singleton.mpr (if_neg ht)
  | @finish t' hrun =>
    by_cases ht : t' = t
    · subst ht
      exact .inr (.inr (.inl ⟨rfl, hrun, Function.update_self _ _ _⟩))
    · refine .inr (.inr (.inr ⟨[], (List.append_nil _).symm, ?_,
        Function.update_of_ne (Ne.symm ht) _ _⟩))
      exact fun _ hl ↦ absurd hl List.not_mem_nil
  | @ext e x =>
    exact .inr (.inr (.inr ⟨[.ext e], rfl, List.forall_mem_singleton.mpr rfl, rfl⟩))

/-- What thread `t` has been answered in a list of labels. -/
abbrev answers (t : ι) (tr : List (Label ι J Resp E)) : List ((o : Op) × Resp o) :=
  tr.filterMap (answerTo t)

theorem mem_answers {tr : List (Label ι J Resp E)} {o : Op} {r : Resp o} :
    ⟨o, r⟩ ∈ answers t tr ↔ .op t o r ∈ tr := by
  rw [answers, List.mem_filterMap]
  constructor
  · rintro ⟨l, hl, heq⟩
    cases l with
    | op t' o' r' =>
      obtain ⟨rfl, hans⟩ := Option.ite_none_right_eq_some.mp heq
      cases hans
      exact hl
    | start | ext => cases heq
  · intro hl
    exact ⟨_, hl, if_pos rfl⟩

/-- A thread that is idle and begins nothing is asked nothing. -/
theorem Steps.answers_of_idle (h : M.Steps c c') (hidle : c.thread t = none)
    (honce : ∀ l ∈ c'.since c.toSnap, ¬Begins t l) : answers t (c'.since c.toSnap) = [] := by
  induction h using Relation.ReflTransGen.head_induction_on with
  | refl => simp [Snap.since]
  | @head c c₁ hstep hrest ih =>
    obtain ⟨l, htr, hl⟩ | ⟨o, k, r, -, hrun, -⟩ | ⟨-, hrun, -⟩ | ⟨new, htr, hnew, hthread⟩ :=
      hstep.thread_cases t
    · rw [Snap.since_of_append htr (Steps.trace_prefix hrest)] at honce
      exact absurd hl (honce l (List.mem_append_left _ List.mem_cons_self))
    · rw [hidle] at hrun
      cases hrun
    · rw [hidle] at hrun
      cases hrun
    · rw [Snap.since_of_append htr (Steps.trace_prefix hrest)] at honce ⊢
      rw [answers, List.filterMap_append, List.filterMap_eq_nil_iff.mpr hnew, List.nil_append]
      exact ih (hthread.trans hidle) fun l hl ↦ honce l (List.mem_append_right _ hl)

/-- What a thread is answered until it is idle again is a path of its program. -/
theorem Steps.makes (h : M.Steps c c') {p : Prog Resp Unit} (hrun : c.thread t = some p)
    (hdone : c'.thread t = none) (honce : ∀ l ∈ c'.since c.toSnap, ¬Begins t l) :
    p.Makes (answers t (c'.since c.toSnap)) () := by
  induction h using Relation.ReflTransGen.head_induction_on generalizing p with
  | refl =>
    rw [hrun] at hdone
    cases hdone
  | @head c c₁ hstep hrest ih =>
    obtain ⟨l, htr, hl⟩ | ⟨o, k, r, htr, hrun', hthread⟩ | ⟨htr, hrun', hthread⟩ |
      ⟨new, htr, hnew, hthread⟩ := hstep.thread_cases t
    · rw [Snap.since_of_append htr (Steps.trace_prefix hrest)] at honce
      exact absurd hl (honce l (List.mem_append_left _ List.mem_cons_self))
    · obtain rfl := Option.some.inj (hrun.symm.trans hrun')
      rw [Snap.since_of_append htr (Steps.trace_prefix hrest)] at honce ⊢
      have hanswer : answerTo t (.op t o r : Label ι J Resp E) = some ⟨o, r⟩ := if_pos rfl
      rw [answers, List.filterMap_append, List.filterMap_cons, hanswer]
      exact .op (ih hthread fun l hl ↦ honce l (List.mem_append_right _ hl))
    · obtain rfl := Option.some.inj (hrun.symm.trans hrun')
      have hsince : c'.since c.toSnap = c'.since c₁.toSnap := by rw [Snap.since, Snap.since, htr]
      rw [hsince] at honce ⊢
      rw [Steps.answers_of_idle hrest hthread honce]
      exact .ret ()
    · rw [Snap.since_of_append htr (Steps.trace_prefix hrest)] at honce ⊢
      rw [answers, List.filterMap_append, List.filterMap_eq_nil_iff.mpr hnew, List.nil_append]
      exact ih (hthread.trans hrun) fun l hl ↦ honce l (List.mem_append_right _ hl)

omit [DecidableEq ι] in
theorem Advances.not_begins {α : Type} {p p' : Prog Resp α} {s s' : Snap ι J Resp E σ} {t' : ι}
    (h : M.Advances t p s p' s') :
    s.trace <+: s'.trace ∧ ∀ l ∈ s'.since s, ¬Begins t' l := by
  induction h with
  | refl => exact ⟨List.prefix_refl _, by simp [Snap.since]⟩
  | @op o k r x s p' s' hexec _ ih =>
    obtain ⟨htr, hnew⟩ := ih
    refine ⟨(List.prefix_append _ _).trans htr, ?_⟩
    rw [Snap.since_of_append rfl htr]
    exact List.forall_mem_append.mpr ⟨List.forall_mem_singleton.mpr id, hnew⟩

/-- The rest of a job of a lone thread, which begins no other meanwhile. -/
theorem May.steps_once {p : Prog Resp Unit} {Q : Unit → Snap ι J Resp E σ → Prop}
    (h : M.May t p Q c.toSnap) (hrun : c.thread t = some p) :
    ∃ c', M.Steps c c' ∧ c'.thread = Function.update c.thread t none ∧ Q () c'.toSnap
      ∧ ∀ l ∈ c'.since c.toSnap, ¬Begins t l := by
  obtain ⟨a, s', hp, hQ⟩ := h
  have hmay : M.May t p (fun a s' ↦ Q a s' ∧ ∀ l ∈ s'.since c.toSnap, ¬Begins t l) c.toSnap :=
    ⟨a, s', hp, hQ, hp.not_begins.2⟩
  exact hmay.steps_of_run hrun

end Machine

end Run

end Concurrency
