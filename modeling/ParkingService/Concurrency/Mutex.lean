import ParkingService.Concurrency.Parallel

/-!
# Threads that share a mutex

A mutex is a bit of the state that one kind of operation sets, if it is not set, and another kind
clears. Nothing in a machine keeps a thread from waiting for a mutex it holds, from ending with it
held, or from holding it for as long as it likes; a program that does none of this is
`Prog.Bracketed`. The property is about one program and says nothing of the others, so it is proved
along the program, with a budget of operations until the mutex has to be free again.

If every job of every thread is bracketed, then in every run a thread that cannot go on waits for
another one (`Sound.waits`), the one it waits for can go on (`Sound.holder_ready`), and gives the
mutex back within the budget, whatever the other threads do meanwhile (`Sound.released`).
-/

namespace Concurrency

variable {ι J Op : Type} {Resp : Op → Type} {E σ α β : Type}

/-! ## Programs -/

/-- What an operation has to do with the mutex. -/
inductive LockUse
  | lock
  | unlock
  | other
  deriving DecidableEq

namespace LockUse

/-- Whether the mutex is held afterwards. -/
def after : LockUse → Bool → Bool
  | .lock, _ => true
  | .unlock, _ => false
  | .other, held => held

/-- What an operation makes of the budget of a thread: `none` if it does not hold the mutex,
`some n` if it may perform `n` more operations up to the one that gives it back. -/
def spend (N : ℕ) : LockUse → Option ℕ → Option (Option ℕ)
  | .lock, none => some (some N)
  | .unlock, some (_ + 1) => some none
  | .other, none => some none
  | .other, some (n + 1) => some (some n)
  | _, _ => none

theorem spend_cases {N : ℕ} {u : LockUse} {b b' : Option ℕ} (h : u.spend N b = some b') :
    (u = .lock ∧ b = none ∧ b' = some N)
      ∨ (u = .unlock ∧ b' = none ∧ ∃ n, b = some (n + 1))
      ∨ (u = .other ∧ (b = none ∧ b' = none ∨ ∃ n, b = some (n + 1) ∧ b' = some n)) := by
  rcases u with _ | _ | _ <;> rcases b with _ | _ | n <;> simp_all [spend]

end LockUse

namespace Prog

variable (use : Op → LockUse) (N : ℕ)

/-- The program keeps to its budget from `b` on, whatever it is answered, and ends with a result and
a budget that satisfy `Q`. -/
def Bracketed : Prog Resp α → Option ℕ → (α → Option ℕ → Prop) → Prop
  | ret a, b, Q => Q a b
  | op o k, b, Q => ∃ b', (use o).spend N b = some b' ∧ ∀ r, (k r).Bracketed b' Q

variable {use N} {p : Prog Resp α} {f : α → Prog Resp β} {b : Option ℕ}
  {R : α → Option ℕ → Prop} {Q : β → Option ℕ → Prop}

theorem Bracketed.bind (hp : p.Bracketed use N b R)
    (hf : ∀ a b, R a b → (f a).Bracketed use N b Q) : (p >>= f).Bracketed use N b Q := by
  induction p generalizing b with
  | ret a => exact hf a b hp
  | op o k ih =>
    obtain ⟨b', hb', hk⟩ := hp
    exact ⟨b', hb', fun r ↦ ih r (hk r)⟩

/-- One operation. -/
theorem bracketed_call {o : Op} {d : Option ℕ} (h : (use o).spend N b = some d) :
    (call o : Prog Resp _).Bracketed use N b fun _ b' ↦ b' = d :=
  ⟨d, h, fun _ ↦ rfl⟩

/-- Without the mutex, a program that has nothing to do with it is free. -/
theorem Uses.bracketed (hp : p.Uses fun o ↦ use o = .other) :
    p.Bracketed use N none fun _ b ↦ b = none := by
  induction p with
  | ret a => rfl
  | op o k ih =>
    refine ⟨none, ?_, fun r ↦ ih r (hp.2 r)⟩
    rw [hp.1]
    rfl

/-- A counted loop spends as much as it counts. -/
theorem bracketed_times {o : Op} {g : Resp o → Unit} (ho : use o = .other) (n m : ℕ) :
    (times n (op o fun r ↦ ret (g r)) : Prog Resp Unit).Bracketed use N (some (n + m))
      fun _ b ↦ b = some m := by
  induction n with
  | zero => rw [Nat.zero_add]; rfl
  | succ n ih =>
    refine ⟨some (n + m), ?_, fun _ ↦ ih⟩
    rw [ho, Nat.succ_add]
    rfl

/-- A program that is part of another machine. -/
theorem Bracketed.inl {Op' : Type} {Resp' : Op' → Type} {use' : Op ⊕ Op' → LockUse}
    (huse : ∀ o, use' (.inl o) = use o) (hp : p.Bracketed use N b R) :
    (p.inl : Prog (RespSum Resp Resp') α).Bracketed use' N b R := by
  induction p generalizing b with
  | ret a => exact hp
  | op o k ih =>
    obtain ⟨b', hb', hk⟩ := hp
    exact ⟨b', by rw [huse]; exact hb', fun r ↦ ih r (hk r)⟩

end Prog

/-! ## Machines -/

/-- A mutex of a machine: which operations take it and give it back, and where the state says that
it is held. Only an operation that takes it may have to wait. -/
structure Mutex (M : Machine ι J Resp E σ) where
  use : Op → LockUse
  held : σ → Bool
  exec : ∀ {o r s x}, M.exec o r s = some x →
    held x = (use o).after (held s) ∧ (use o = .lock → held s = false)
  entry : ∀ {t j s p x}, M.entry t j s = some (p, x) → held x = held s
  ext : ∀ {e s x}, M.ext e s = some x → held x = held s
  ready : ∀ o s, (use o = .lock → held s = false) → ∃ r x, M.exec o r s = some x

namespace Mutex

variable {M : Machine ι J Resp E σ} (L : Mutex M) (N : ℕ)

/-- Who holds the mutex after one more label. -/
def ownerNext (h : Option ι) : Label ι J Resp E → Option ι
  | .op t o _ => match L.use o with
    | .lock => some t
    | .unlock => none
    | .other => h
  | _ => h

/-- Who holds the mutex. -/
def owner (tr : List (Label ι J Resp E)) : Option ι := tr.foldl L.ownerNext none

@[simp] theorem owner_append_singleton (tr : List (Label ι J Resp E)) (l : Label ι J Resp E) :
    L.owner (tr ++ [l]) = L.ownerNext (L.owner tr) l :=
  List.foldl_append

/-- A label gives the mutex back for thread `t`. -/
def Releases (t : ι) (l : Label ι J Resp E) : Prop :=
  ∃ o r, l = .op t o r ∧ L.use o = .unlock

/-- Every job begins and ends without the mutex and keeps to the budget in between. -/
def Respected : Prop :=
  ∀ {t p} {j : J} {s x : σ}, M.entry t j s = some (p, x) →
    p.Bracketed L.use N none fun _ b ↦ b = none

/-- What a thread has left to do keeps to the budget `b`. -/
def Keeps (b : Option ℕ) : Option (Prog Resp Unit) → Prop
  | none => b = none
  | some p => p.Bracketed L.use N b fun _ b ↦ b = none

/-- The mutex is held if someone owns it, and who owns it is who has a budget. -/
structure Sound (c : Config ι J Resp E σ) : Prop where
  held : L.held c.state = (L.owner c.trace).isSome
  keeps : ∀ t, ∃ b, L.Keeps N b (c.thread t) ∧ (b.isSome ↔ L.owner c.trace = some t)
    ∧ ∀ n ∈ b, n ≤ N

/-! ## Every run -/

variable {L N} {c c' : Config ι J Resp E σ} {t : ι}

theorem Sound.init (x : σ) (hx : L.held x = false) : L.Sound N (.init x) where
  held := hx
  keeps _ := ⟨none, rfl, by simp [Config.init, owner], by simp⟩

/-- Whoever owns the mutex has a program, and can go on with it. -/
theorem Sound.holder_ready (h : L.Sound N c) (ht : L.owner c.trace = some t) :
    ∃ o k r x, c.thread t = some (.op o k) ∧ M.exec o r c.state = some x := by
  obtain ⟨b, hkeeps, hb, -⟩ := h.keeps t
  obtain ⟨n, rfl⟩ := Option.isSome_iff_exists.mp (hb.mpr ht)
  cases hthread : c.thread t with
  | none =>
    rw [hthread] at hkeeps
    cases hkeeps
  | some p =>
    rw [hthread] at hkeeps
    cases p with
    | ret a => cases hkeeps
    | op o k =>
      obtain ⟨b', hspend, -⟩ := hkeeps
      have ho : L.use o = .lock → L.held c.state = false := fun hlock ↦ by
        rw [hlock] at hspend
        cases hspend
      obtain ⟨r, x, hx⟩ := L.ready o c.state ho
      exact ⟨o, k, r, x, rfl, hx⟩

/-- Whoever cannot go on waits for the mutex, and another thread owns it. -/
theorem Sound.waits {o : Op} {k : Resp o → Prog Resp Unit} (h : L.Sound N c)
    (hthread : c.thread t = some (.op o k)) : (∃ r x, M.exec o r c.state = some x)
      ∨ L.use o = .lock ∧ ∃ u, u ≠ t ∧ L.owner c.trace = some u := by
  by_cases huse : L.use o = .lock
  · cases hheld : L.held c.state with
    | false => exact .inl (L.ready o c.state fun _ ↦ hheld)
    | true =>
      rw [h.held, Option.isSome_iff_exists] at hheld
      obtain ⟨u, hu⟩ := hheld
      refine .inr ⟨huse, u, ?_, hu⟩
      rintro rfl
      -- the owner has a budget, and no budget allows taking the mutex once more
      obtain ⟨b, hkeeps, hb, -⟩ := h.keeps u
      obtain ⟨n, rfl⟩ := Option.isSome_iff_exists.mp (hb.mpr hu)
      rw [hthread] at hkeeps
      obtain ⟨b', hspend, -⟩ := hkeeps
      rw [huse] at hspend
      cases hspend
  · exact .inl (L.ready o c.state fun h ↦ absurd h huse)

variable [DecidableEq ι]

/-- A step of thread `t` does nothing to the budgets of others. -/
private theorem keeps_update {s : Snap ι J Resp E σ} {th : ι → Option (Prog Resp Unit)}
    {l : Label ι J Resp E} {x : σ} {p : Option (Prog Resp Unit)} {b : Option ℕ}
    (hheld : L.held x = (L.ownerNext (L.owner s.trace) l).isSome)
    (hown : L.Keeps N b p) (hb : b.isSome ↔ L.ownerNext (L.owner s.trace) l = some t)
    (hle : ∀ n ∈ b, n ≤ N)
    (hother : ∀ u, u ≠ t → ∃ b, L.Keeps N b (th u)
      ∧ (b.isSome ↔ L.ownerNext (L.owner s.trace) l = some u) ∧ ∀ n ∈ b, n ≤ N) :
    L.Sound N ⟨s.log x l, Function.update th t p⟩ where
  held := by rw [Snap.log_state, Snap.log_trace, owner_append_singleton, hheld]
  keeps u := by
    rw [Snap.log_trace, owner_append_singleton]
    by_cases hu : u = t
    · subst hu
      exact ⟨b, by simpa using hown, hb, hle⟩
    · simpa [Function.update_of_ne hu] using hother u hu

theorem Sound.step (hL : L.Respected N) (h : L.Sound N c) (hstep : M.Step c c') :
    L.Sound N c' := by
  cases hstep with
  | @start t j p x hidle hentry =>
    obtain ⟨b, hkeeps, hb, -⟩ := h.keeps t
    rw [hidle] at hkeeps
    obtain rfl : b = none := hkeeps
    refine keeps_update ((L.entry hentry).trans h.held) (hL hentry) hb (by simp) fun u _ ↦ ?_
    exact h.keeps u
  | @op t o k r x hrun hexec =>
    obtain ⟨b, hkeeps, hb, hle⟩ := h.keeps t
    rw [hrun] at hkeeps
    obtain ⟨b', hspend, hrest⟩ := hkeeps
    obtain ⟨hafter, hfree⟩ := L.exec hexec
    rw [h.held] at hafter hfree
    have hnext : L.ownerNext (L.owner c.trace) (.op t o r) = match L.use o with
      | .lock => some t
      | .unlock => none
      | .other => L.owner c.trace := rfl
    obtain ⟨huse, rfl, rfl⟩ | ⟨huse, rfl, n, rfl⟩ | ⟨huse, hb'⟩ := LockUse.spend_cases hspend
    all_goals rw [huse] at hafter hfree hnext
    · -- nobody had it
      have hnone : L.owner c.trace = none := by simpa using hfree rfl
      refine keeps_update (by rw [hafter, hnext]; rfl) (hrest r) (by simp [hnext]) (by simp)
        fun u hu ↦ ?_
      obtain ⟨b, hkeeps, hb, hle⟩ := h.keeps u
      refine ⟨b, hkeeps, ?_, hle⟩
      rw [hb, hnext, hnone]
      exact ⟨(nomatch ·), fun h ↦ absurd (Option.some.inj h).symm hu⟩
    · -- it was the thread's own
      have hown : L.owner c.trace = some t := hb.mp rfl
      refine keeps_update (by rw [hafter, hnext]; rfl) (hrest r) (by simp [hnext]) (by simp)
        fun u hu ↦ ?_
      obtain ⟨b, hkeeps, hb, hle⟩ := h.keeps u
      refine ⟨b, hkeeps, ?_, hle⟩
      rw [hb, hnext, hown]
      exact ⟨fun h ↦ absurd (Option.some.inj h).symm hu, (nomatch ·)⟩
    · refine keeps_update (by rw [hafter, hnext]; rfl) (hrest r) ?_ ?_ fun u _ ↦ ?_
      · rw [hnext, ← hb]
        obtain ⟨rfl, rfl⟩ | ⟨n, rfl, rfl⟩ := hb' <;> rfl
      · obtain ⟨rfl, rfl⟩ | ⟨n, rfl, rfl⟩ := hb'
        · simp
        · exact fun m hm ↦ Nat.le_of_succ_le (hle _ (by simpa using hm))
      · rw [hnext]
        exact h.keeps u
  | @finish t hrun =>
    refine ⟨h.held, fun u ↦ ?_⟩
    obtain ⟨b, hkeeps, hb, hle⟩ := h.keeps u
    refine ⟨b, ?_, hb, hle⟩
    by_cases hu : u = t
    · subst hu
      rw [hrun] at hkeeps
      have hkeeps : L.Keeps N b none := hkeeps
      simpa using hkeeps
    · simpa [Function.update_of_ne hu] using hkeeps
  | @ext e x hext =>
    refine ⟨?_, fun u ↦ ?_⟩
    · rw [Snap.log_state, Snap.log_trace, owner_append_singleton]
      exact (L.ext hext).trans h.held
    · rw [Snap.log_trace, owner_append_singleton]
      exact h.keeps u

theorem Sound.steps (hL : L.Respected N) (h : L.Sound N c) (hsteps : M.Steps c c') :
    L.Sound N c' := by
  induction hsteps with
  | refl => exact h
  | tail _ hstep ih => exact ih.step hL hstep

/-- The operations of thread `t` among some labels. -/
def opsOf (t : ι) (tr : List (Label ι J Resp E)) : ℕ :=
  tr.countP fun l ↦ match l with
    | .op u _ _ => decide (u = t)
    | _ => false

/-- What is left of the budget of a thread that has not given the mutex back since `c`. -/
private theorem left_of_steps (h : L.Sound N c) (ht : L.owner c.trace = some t)
    (hsteps : M.Steps c c') : (∃ l ∈ c'.since c.toSnap, L.Releases t l)
      ∨ ∃ n, L.Keeps N (some n) (c'.thread t) ∧ n + opsOf t (c'.since c.toSnap) ≤ N := by
  induction hsteps with
  | refl =>
    obtain ⟨b, hkeeps, hb, hle⟩ := h.keeps t
    obtain ⟨n, rfl⟩ := Option.isSome_iff_exists.mp (hb.mpr ht)
    refine .inr ⟨n, hkeeps, ?_⟩
    simpa [Snap.since, opsOf] using hle n rfl
  | @tail c₁ c₂ hsteps hstep ih =>
    have hsince (x : σ) (l : Label ι J Resp E) :
        (c₁.toSnap.log x l).since c.toSnap = c₁.since c.toSnap ++ [l] :=
      Snap.since_log (Machine.Steps.trace_prefix hsteps)
    obtain ⟨l, hl, hrelease⟩ | ⟨n, hkeeps, hn⟩ := ih
    · obtain ⟨ls, hls⟩ : ∃ ls, c₂.since c.toSnap = c₁.since c.toSnap ++ ls := by
        obtain hsame | ⟨l', -, hlog⟩ := hstep.emits
        · exact ⟨[], by rw [hsame, List.append_nil]⟩
        · exact ⟨[l'], by rw [hlog, hsince]⟩
      exact .inl ⟨l, hls ▸ List.mem_append_left _ hl, hrelease⟩
    · cases hstep with
      | @start u j p x hidle hentry =>
        have hu : t ≠ u := by
          rintro rfl
          rw [hidle] at hkeeps
          cases hkeeps
        refine .inr ⟨n, ?_, ?_⟩
        · simpa [Function.update_of_ne hu] using hkeeps
        · simpa [hsince, opsOf] using hn
      | @op u o k r x hrun hexec =>
        rw [hsince]
        by_cases hu : t = u
        · subst hu
          rw [hrun] at hkeeps
          obtain ⟨b', hspend, hrest⟩ := hkeeps
          obtain ⟨-, hb, -⟩ | ⟨huse, -⟩ | ⟨-, ⟨hb, -⟩ | ⟨m, hb, rfl⟩⟩ := LockUse.spend_cases hspend
          · cases hb
          · exact .inl ⟨_, List.mem_append_right _ (List.mem_singleton_self _), o, r, rfl, huse⟩
          · cases hb
          · obtain rfl : n = m + 1 := Option.some.inj hb
            refine .inr ⟨m, ?_, ?_⟩
            · have hrest : L.Keeps N (some m) (some (k r)) := hrest r
              simpa using hrest
            · simpa [opsOf, Nat.add_assoc, Nat.add_comm 1] using hn
        · refine .inr ⟨n, ?_, ?_⟩
          · simpa [Function.update_of_ne hu] using hkeeps
          · simpa [opsOf, Ne.symm hu] using hn
      | @finish u hrun =>
        have hu : t ≠ u := by
          rintro rfl
          rw [hrun] at hkeeps
          cases hkeeps
        refine .inr ⟨n, ?_, hn⟩
        simpa [Function.update_of_ne hu] using hkeeps
      | @ext e x hext =>
        refine .inr ⟨n, hkeeps, ?_⟩
        simpa [hsince, opsOf] using hn

/-- **The mutex is given back.** In any run from where thread `t` holds it, either thread `t` gives
it back on the way, or it has performed fewer operations than its budget allows. -/
theorem Sound.released (h : L.Sound N c) (ht : L.owner c.trace = some t)
    (hsteps : M.Steps c c') : (∃ l ∈ c'.since c.toSnap, L.Releases t l)
      ∨ opsOf t (c'.since c.toSnap) < N := by
  refine (left_of_steps h ht hsteps).imp_right fun ⟨n, hkeeps, hn⟩ ↦ ?_
  have hpos : 0 < n := by
    rcases hthread : c'.thread t with _ | _ | ⟨o, k⟩ <;> rw [hthread] at hkeeps
    · cases hkeeps
    · cases hkeeps
    · obtain ⟨b', hspend, -⟩ := hkeeps
      refine Nat.pos_of_ne_zero ?_
      rintro rfl
      obtain ⟨-, h, -⟩ | ⟨-, -, m, h⟩ | ⟨-, ⟨h, -⟩ | ⟨m, h, -⟩⟩ := LockUse.spend_cases hspend
      all_goals cases h
  omega

end Mutex

end Concurrency
