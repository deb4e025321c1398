import ParkingService.Concurrency.Mutex

/-!
# Threads that serve a queue

A thread takes up the oldest item of a queue, does what there is to do for it and takes up the next
one, while anybody may add items at the other end. How long an item has to wait is then a question
of what is before it: `Service.carried_out` bounds the operations that the thread performs until it
has performed one that the item is there for, whatever the others do meanwhile.

Two things are asked of the programs: how many operations they perform at most, `Prog.Within`, and
within how many they come to one of a kind, `Prog.Reaches`. Both are proved along the program.
-/

namespace Concurrency

variable {ι J Op : Type} {Resp : Op → Type} {E σ α β W : Type}

namespace Prog

/-- The program performs at most `n` operations, whatever it is answered. -/
def Within : Prog Resp α → ℕ → Prop
  | ret _, _ => True
  | op _ _, 0 => False
  | op _ k, n + 1 => ∀ r, (k r).Within n

/-- Whatever it is answered, one of the program's first `n` operations satisfies `P`. -/
def Reaches (P : Op → Prop) : Prog Resp α → ℕ → Prop
  | ret _, _ => False
  | op _ _, 0 => False
  | op o k, n + 1 => P o ∨ ∀ r, (k r).Reaches P n

variable {p q : Prog Resp α} {f : α → Prog Resp β} {P : Op → Prop} {m n : ℕ}

theorem Within.mono (h : p.Within m) (hmn : m ≤ n) : p.Within n := by
  induction p generalizing m n with
  | ret a => trivial
  | op o k ih =>
    obtain _ | m := m
    · exact h.elim
    obtain ⟨n, rfl⟩ := Nat.exists_eq_add_of_le' (Nat.lt_of_lt_of_le m.succ_pos hmn)
    exact fun r ↦ ih r (h r) (Nat.le_of_succ_le_succ hmn)

theorem Within.bind (hp : p.Within m) (hf : ∀ a, (f a).Within n) : (p >>= f).Within (m + n) := by
  induction p generalizing m with
  | ret a => exact (hf a).mono (Nat.le_add_left n m)
  | op o k ih =>
    obtain _ | m := m
    · exact hp.elim
    rw [Nat.succ_add]
    exact fun r ↦ ih r (hp r)

theorem within_call {o : Op} : (call o : Prog Resp _).Within 1 := fun _ ↦ trivial

theorem within_times {body : Prog Resp Unit} (h : body.Within m) (n : ℕ) :
    (times n body).Within (n * m) := by
  induction n with
  | zero => trivial
  | succ n ih =>
    rw [Nat.succ_mul, Nat.add_comm (n * m)]
    exact h.bind fun _ ↦ ih

theorem within_ite {c : Prop} [Decidable c] (hp : p.Within n) (hq : q.Within n) :
    (if c then p else q).Within n := by
  split
  · exact hp
  · exact hq

theorem not_reaches_zero : ¬p.Reaches P 0 := by
  cases p <;> exact id

theorem Reaches.mono (h : p.Reaches P m) (hmn : m ≤ n) : p.Reaches P n := by
  induction p generalizing m n with
  | ret a => exact h
  | op o k ih =>
    obtain _ | m := m
    · exact h.elim
    obtain ⟨n, rfl⟩ := Nat.exists_eq_add_of_le' (Nat.lt_of_lt_of_le m.succ_pos hmn)
    exact h.imp_right fun h r ↦ ih r (h r) (Nat.le_of_succ_le_succ hmn)

theorem reaches_call {o : Op} (ho : P o) (f : Resp o → Prog Resp β) (n : ℕ) :
    ((call o : Prog Resp _) >>= f).Reaches P (n + 1) := .inl ho

/-- After a program that ends, the next one comes to it. -/
theorem Within.reaches (hp : p.Within m) (hf : ∀ a, (f a).Reaches P n) :
    (p >>= f).Reaches P (m + n) := by
  induction p generalizing m with
  | ret a => exact (hf a).mono (Nat.le_add_left n m)
  | op o k ih =>
    obtain _ | m := m
    · exact hp.elim
    rw [Nat.succ_add]
    exact .inr fun r ↦ ih r (hp r)

end Prog

/-! ## Machines -/

/-- A queue that one thread of a machine serves. -/
structure Service (M : Machine ι J Resp E σ) (W : Type) where
  server : ι
  job : W → J
  queue : σ → List W
  /-- how many operations there are to perform for an item, at most -/
  cost : W → ℕ
  take : ∀ {j s p x}, M.entry server j s = some (p, x) →
    ∃ w, j = job w ∧ queue s = w :: queue x ∧ p.Within (cost w)
  entry : ∀ {t j s p x}, t ≠ server → M.entry t j s = some (p, x) → queue s <+: queue x
  exec : ∀ {o r s x}, M.exec o r s = some x → queue s <+: queue x
  ext : ∀ {e s x}, M.ext e s = some x → queue s <+: queue x

namespace Service

variable {M : Machine ι J Resp E σ} (S : Service M W)

/-- What these items take. -/
def load : List W → ℕ
  | [] => 0
  | w :: ws => S.cost w + load ws

theorem load_append (ws ws' : List W) : S.load (ws ++ ws') = S.load ws + S.load ws' := by
  induction ws with
  | nil => exact (Nat.zero_add _).symm
  | cons w ws ih => rw [List.cons_append, load, load, ih, Nat.add_assoc]

/-- The server has at most `n` operations to perform before it takes up the next item. -/
def Left (n : ℕ) (c : Config ι J Resp E σ) : Prop := ∀ p, c.thread S.server = some p → p.Within n

/-- Item `w` is in the queue, and the server has at most `n` operations to perform before it takes
it up. -/
def Waits (w : W) (n : ℕ) (c : Config ι J Resp E σ) : Prop :=
  ∃ pre post m, S.queue c.state = pre ++ w :: post ∧ S.Left m c ∧ m + S.load pre ≤ n

/-- The server is going to perform one of the operations that item `w` is there for. -/
def Due (P : Op → Prop) (w : W) (g n : ℕ) (c : Config ι J Resp E σ) : Prop :=
  (∃ m, S.Waits w m c ∧ m + g ≤ n) ∨ ∃ p, c.thread S.server = some p ∧ p.Reaches P (n + 1)

/-- A label that shows such an operation. -/
def Shows (P : Op → Prop) (l : Label ι J Resp E) : Prop := ∃ o r, l = .op S.server o r ∧ P o

/-! ## Every run -/

section Others

variable {S} {P : Op → Prop} {w : W} {g n : ℕ} {c : Config ι J Resp E σ}
  {s : Snap ι J Resp E σ} {th : ι → Option (Prog Resp Unit)}

/-- The others only add to the queue. -/
theorem Due.others (h : S.Due P w g n c) (hqueue : S.queue c.state <+: S.queue s.state)
    (hth : th S.server = c.thread S.server) : S.Due P w g n ⟨s, th⟩ := by
  obtain ⟨m, ⟨pre, post, k, hq, hleft, hk⟩, hm⟩ | ⟨p, hp, hreaches⟩ := h
  · obtain ⟨more, hmore⟩ := hqueue
    refine .inl ⟨m, ⟨pre, post ++ more, k, ?_, fun p hp ↦ hleft p (hth ▸ hp), hk⟩, hm⟩
    rw [← hmore, hq, List.append_assoc, List.cons_append]
  · exact .inr ⟨p, hth.trans hp, hreaches⟩

/-- The server takes up an item, and this may be the one. -/
theorem Due.take {j : J} {p : Prog Resp Unit} (h : S.Due P w g n c)
    (hgoal : ∀ {s p x}, M.entry S.server (S.job w) s = some (p, x) → p.Reaches P (g + 1))
    (hidle : c.thread S.server = none) (hentry : M.entry S.server j c.state = some (p, s.state))
    (hth : th S.server = some p) : S.Due P w g n ⟨s, th⟩ := by
  obtain ⟨m, ⟨pre, post, k, hq, -, hk⟩, hm⟩ | ⟨p', hp', -⟩ := h
  · obtain ⟨w', rfl, hw', hwithin⟩ := S.take hentry
    rw [hq] at hw'
    cases pre with
    | nil =>
      obtain ⟨rfl, -⟩ := List.cons.inj hw'
      exact .inr ⟨p, hth, (hgoal hentry).mono (by omega)⟩
    | cons w₀ pre =>
      obtain ⟨rfl, hrest⟩ := List.cons.inj hw'
      refine .inl ⟨m, ⟨pre, post, S.cost w₀, hrest.symm, fun p' hp' ↦ ?_, ?_⟩, hm⟩
      · obtain rfl := Option.some.inj (hth.symm.trans hp')
        exact hwithin
      · exact Nat.le_trans (Nat.le_add_left _ _) hk
  · cases hidle.symm.trans hp'

/-- An operation of the server is one of those it was going to perform, if it is not the one. -/
theorem Due.perform {o : Op} {k : Resp o → Prog Resp Unit} {r : Resp o} (h : S.Due P w g n c)
    (hrun : c.thread S.server = some (.op o k)) (hexec : M.exec o r c.state = some s.state)
    (hth : th S.server = some (k r)) :
    P o ∨ ∃ n', n = n' + 1 ∧ S.Due P w g n' ⟨s, th⟩ := by
  obtain ⟨m, ⟨pre, post, b, hq, hleft, hb⟩, hm⟩ | ⟨p, hp, hreaches⟩ := h
  · obtain ⟨more, hmore⟩ := S.exec hexec
    have hwithin := hleft _ hrun
    obtain _ | b := b
    · exact hwithin.elim
    refine .inr ⟨n - 1, by omega, .inl ⟨m - 1, ⟨pre, post ++ more, b, ?_, fun p hp ↦ ?_, ?_⟩, ?_⟩⟩
    · rw [← hmore, hq, List.append_assoc, List.cons_append]
    · obtain rfl := Option.some.inj (hth.symm.trans hp)
      exact hwithin r
    · omega
    · omega
  · obtain rfl := Option.some.inj (hp.symm.trans hrun)
    refine hreaches.imp_right fun hreaches ↦ ?_
    obtain _ | n := n
    · exact (Prog.not_reaches_zero (hreaches r)).elim
    · exact ⟨n, rfl, .inr ⟨_, hth, hreaches r⟩⟩

theorem Due.finish (h : S.Due P w g n c) (hrun : c.thread S.server = some (.ret ()))
    (hth : th S.server = none) : S.Due P w g n ⟨c.toSnap, th⟩ := by
  obtain ⟨m, ⟨pre, post, k, hq, -, hk⟩, hm⟩ | ⟨p, hp, hreaches⟩ := h
  · exact .inl ⟨m, ⟨pre, post, k, hq, fun p hp ↦ (by cases hth.symm.trans hp), hk⟩, hm⟩
  · obtain rfl := Option.some.inj (hp.symm.trans hrun)
    exact hreaches.elim

end Others

variable {S} [DecidableEq ι] {P : Op → Prop} {w : W} {g n : ℕ} {c c' : Config ι J Resp E σ}

/-- What is due stays due until it is done, and every operation of the server brings it closer. -/
theorem Due.steps (h : S.Due P w g n c)
    (hgoal : ∀ {s p x}, M.entry S.server (S.job w) s = some (p, x) → p.Reaches P (g + 1))
    (hsteps : M.Steps c c') : (∃ l ∈ c'.since c.toSnap, S.Shows P l)
      ∨ ∃ n', S.Due P w g n' c' ∧ n' + Mutex.opsOf S.server (c'.since c.toSnap) ≤ n := by
  induction hsteps with
  | refl => exact .inr ⟨n, h, by simp [Snap.since, Mutex.opsOf]⟩
  | @tail c₁ c₂ hsteps hstep ih =>
    have hsince (x : σ) (l : Label ι J Resp E) :
        (c₁.toSnap.log x l).since c.toSnap = c₁.since c.toSnap ++ [l] :=
      Snap.since_log (Machine.Steps.trace_prefix hsteps)
    obtain ⟨l, hl, hshows⟩ | ⟨n', hdue, hn⟩ := ih
    · refine .inl ⟨l, ?_, hshows⟩
      have hcat : c₂.since c.toSnap = c₁.since c.toSnap ++ c₂.since c₁.toSnap :=
        Snap.since_trans (Machine.Steps.trace_prefix hsteps) hstep.trace_prefix
      rw [hcat]
      exact List.mem_append_left _ hl
    · cases hstep with
      | @start t j p x hidle hentry =>
        refine .inr ⟨n', ?_, by simpa [hsince, Mutex.opsOf] using hn⟩
        by_cases ht : t = S.server
        · subst ht
          exact hdue.take hgoal hidle hentry (Function.update_self ..)
        · exact hdue.others (S.entry ht hentry) (Function.update_of_ne (Ne.symm ht) ..)
      | @op t o k r x hrun hexec =>
        rw [hsince]
        by_cases ht : t = S.server
        · subst ht
          obtain ho | ⟨n', rfl, hdue⟩ := hdue.perform (s := c₁.toSnap.log x (.op S.server o r))
            hrun hexec (Function.update_self ..)
          · exact .inl ⟨_, List.mem_append_right _ (List.mem_singleton_self _), o, r, rfl, ho⟩
          · refine .inr ⟨n', hdue, ?_⟩
            simpa [Mutex.opsOf, Nat.add_assoc, Nat.add_comm 1] using hn
        · refine .inr ⟨n', hdue.others (S.exec hexec) (Function.update_of_ne (Ne.symm ht) ..), ?_⟩
          simpa [Mutex.opsOf, ht] using hn
      | @finish t hrun =>
        refine .inr ⟨n', ?_, hn⟩
        by_cases ht : t = S.server
        · subst ht
          exact hdue.finish hrun (Function.update_self ..)
        · exact hdue.others (List.prefix_refl _) (Function.update_of_ne (Ne.symm ht) ..)
      | @ext e x hext =>
        exact .inr ⟨n', hdue.others (S.ext hext) rfl, by simpa [hsince, Mutex.opsOf] using hn⟩

/-- **Every item has its turn.** The server performs one of the operations that an item in the queue
is there for before it has performed more than what is left of its present program, what the items
before it take and what it takes itself to get there, whatever the others do meanwhile. -/
theorem Waits.carried_out (h : S.Waits w n c)
    (hgoal : ∀ {s p x}, M.entry S.server (S.job w) s = some (p, x) → p.Reaches P (g + 1))
    (hsteps : M.Steps c c') : (∃ l ∈ c'.since c.toSnap, S.Shows P l)
      ∨ Mutex.opsOf S.server (c'.since c.toSnap) ≤ n + g := by
  have hdue : S.Due P w g (n + g) c := .inl ⟨n, h, Nat.le_refl _⟩
  exact (hdue.steps hgoal hsteps).imp_right fun ⟨n', _, hn⟩ ↦ Nat.le_trans (Nat.le_add_left _ _) hn

/-- What is left of any program of the server. -/
theorem left_of_reachable {x : σ} {N : ℕ} (hN : ∀ w, S.cost w ≤ N) (h : M.Steps (.init x) c) :
    S.Left N c := by
  induction h with
  | refl => exact fun p hp ↦ by cases hp
  | @tail c₁ c₂ _ hstep ih =>
    intro p hp
    cases hstep with
    | @start t j p' y _ hentry =>
      change Function.update c₁.thread t (some p') S.server = some p at hp
      rw [Function.update_apply] at hp
      split at hp
      · obtain rfl := ‹S.server = t›
        obtain rfl := Option.some.inj hp
        obtain ⟨w, -, -, hwithin⟩ := S.take hentry
        exact hwithin.mono (hN w)
      · exact ih p hp
    | @op t o k r y hop _ =>
      change Function.update c₁.thread t (some (k r)) S.server = some p at hp
      rw [Function.update_apply] at hp
      split at hp
      · obtain rfl := ‹S.server = t›
        obtain rfl := Option.some.inj hp
        obtain _ | N := N
        · exact (ih _ hop).elim
        · exact (ih _ hop r).mono N.le_succ
      · exact ih p hp
    | @finish t hop =>
      change Function.update c₁.thread t none S.server = some p at hp
      rw [Function.update_apply] at hp
      split at hp
      · cases hp
      · exact ih p hp
    | ext => exact ih p hp

end Service

end Concurrency
