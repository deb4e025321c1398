import ParkingService.Concurrency.Machine

/-!
# Proof outlines for interruptible programs

An `Outline` of a machine fixes an invariant of its snapshots. Interference with a thread is then
whatever the other threads and the environment can do in one operation while the invariant holds. An
`Assertion` of a thread is a predicate that survives interference, carried together with the proof
that it does, so no rule of the logic has a stability side condition.

`Outline.wp` is the weakest precondition of a program under interference: interference may strike
before every operation, every operation must re-establish the invariant, and the postcondition must
hold however late the thread is looked at. `Outline.Triple` states it for assertions. Because the
trace is part of the snapshot, invariant and assertions may speak about the whole past.

An outline may build on what is known of the snapshots of a run from elsewhere, another outline for
instance. What is known need not be re-established; soundness asks for it along the run.

`Outline.Valid.steps` is soundness: if every job of every thread takes its idle assertion back to
its idle assertion, then at every reachable configuration the invariant holds and every idle
thread's assertion holds.
-/

namespace Concurrency

variable {ι J Op : Type} {Resp : Op → Type} {E σ : Type} {α β : Type}

/-- An invariant, and what is known of snapshots from elsewhere. -/
structure Outline (M : Machine ι J Resp E σ) where
  known : Snap ι J Resp E σ → Prop
  inv : Snap ι J Resp E σ → Prop

namespace Outline

variable {M : Machine ι J Resp E σ} (O : Outline M) (t : ι)

/-- What can be relied on at every snapshot. -/
def Good (s : Snap ι J Resp E σ) : Prop := O.known s ∧ O.inv s

/-- A predicate that no step of others can falsify. -/
structure Assertion where
  holds : Snap ι J Resp E σ → Prop
  stable : ∀ {s l x}, O.Good s → l.by? ≠ some t → M.Emits s.state l x → O.Good (s.log x l) →
    holds s → holds (s.log x l)

instance : CoeFun (O.Assertion t) fun _ ↦ Snap ι J Resp E σ → Prop := ⟨Assertion.holds⟩

/-- A step of someone other than thread `t`. -/
def Interference (s s' : Snap ι J Resp E σ) : Prop :=
  ∃ l x, l.by? ≠ some t ∧ M.Emits s.state l x ∧ s' = s.log x l ∧ O.Good s ∧ O.Good s'

/-- Any number of steps of others between two operations of thread `t`. -/
def Interferes : Snap ι J Resp E σ → Snap ι J Resp E σ → Prop :=
  Relation.ReflTransGen (O.Interference t)

/-- The weakest precondition under interference. -/
def wp : Prog Resp α → (α → Snap ι J Resp E σ → Prop) → Snap ι J Resp E σ → Prop
  | .ret a, Q, s => ∀ s', O.Interferes t s s' → Q a s'
  | .op o k, Q, s => ∀ s', O.Interferes t s s' → ∀ r x, M.exec o r s'.state = some x →
      O.known (s'.log x (.op t o r)) →
      O.inv (s'.log x (.op t o r)) ∧ wp (k r) Q (s'.log x (.op t o r))

variable {O t}

theorem Interferes.good {s s' : Snap ι J Resp E σ} (h : O.Interferes t s s') (hs : O.Good s) :
    O.Good s' := by
  induction h with
  | refl => exact hs
  | tail _ hstep _ =>
    obtain ⟨l, x, -, -, -, -, hgood⟩ := hstep
    exact hgood

/-- Assertions survive any amount of interference. -/
theorem Assertion.stable_star (P : O.Assertion t) {s s' : Snap ι J Resp E σ}
    (h : O.Interferes t s s') (hs : P s) : P s' := by
  induction h with
  | refl => exact hs
  | tail _ hstep ih =>
    obtain ⟨l, x, hl, hx, rfl, hgood, hgood'⟩ := hstep
    exact P.stable hgood hl hx hgood' ih

/-- A weakest precondition survives interference, whatever its postcondition is. -/
theorem wp_of_interferes {p : Prog Resp α} {Q : α → Snap ι J Resp E σ → Prop}
    {s s' : Snap ι J Resp E σ} (h : O.Interferes t s s') (hp : O.wp t p Q s) : O.wp t p Q s' := by
  cases p with
  | ret a => exact fun s'' hs'' ↦ hp s'' (Relation.ReflTransGen.trans h hs'')
  | op o k => exact fun s'' hs'' ↦ hp s'' (Relation.ReflTransGen.trans h hs'')

theorem wp_mono {p : Prog Resp α} {Q Q' : α → Snap ι J Resp E σ → Prop}
    {s : Snap ι J Resp E σ} (hs : O.Good s) (hQ : ∀ a s, O.Good s → Q a s → Q' a s)
    (hp : O.wp t p Q s) : O.wp t p Q' s := by
  induction p generalizing s with
  | ret a => exact fun s' hs' ↦ hQ a s' (hs'.good hs) (hp s' hs')
  | op o k ih =>
    intro s' hs' r x hx hknown
    obtain ⟨hinv, hrest⟩ := hp s' hs' r x hx hknown
    exact ⟨hinv, ih r ⟨hknown, hinv⟩ hrest⟩

theorem wp_bind {p : Prog Resp α} {f : α → Prog Resp β} {Q : β → Snap ι J Resp E σ → Prop}
    {s : Snap ι J Resp E σ} (hp : O.wp t p (fun a ↦ O.wp t (f a) Q) s) :
    O.wp t (p >>= f) Q s := by
  induction p generalizing s with
  | ret a => exact hp s .refl
  | op o k ih =>
    intro s' hs' r x hx hknown
    obtain ⟨hinv, hrest⟩ := hp s' hs' r x hx hknown
    exact ⟨hinv, ih r hrest⟩

/-! ## Assertions -/

namespace Assertion

/-- Two assertions at once. -/
def and (P Q : O.Assertion t) : O.Assertion t where
  holds s := P s ∧ Q s
  stable hs hl hx hs' h := ⟨P.stable hs hl hx hs' h.1, Q.stable hs hl hx hs' h.2⟩

/-- A family of assertions at once. -/
def all {κ : Type} (P : κ → O.Assertion t) : O.Assertion t where
  holds s := ∀ k, P k s
  stable hs hl hx hs' h k := (P k).stable hs hl hx hs' (h k)

/-- One of a family of assertions. -/
def any {κ : Type} (P : κ → O.Assertion t) : O.Assertion t where
  holds s := ∃ k, P k s
  stable hs hl hx hs' := fun ⟨k, h⟩ ↦ ⟨k, (P k).stable hs hl hx hs' h⟩

/-- A fact that has nothing to do with the snapshot. -/
def pure (φ : Prop) : O.Assertion t where
  holds _ := φ
  stable _ _ _ _ h := h

/-- Always true. -/
def top : O.Assertion t := .pure True

end Assertion

/-! ## Triples -/

variable (O t) in
/-- From `P`, program `p` can only end in `Q`, and it is well behaved all the way. -/
def Triple (P : O.Assertion t) (p : Prog Resp α) (Q : α → O.Assertion t) : Prop :=
  ∀ s, O.Good s → P s → O.wp t p (fun a ↦ Q a) s

section Rules

variable {P P' : O.Assertion t} {p q : Prog Resp α} {Q Q' : α → O.Assertion t}

theorem Triple.ret {a : α} (h : ∀ s, O.Good s → P s → Q a s) : O.Triple t P (.ret a) Q :=
  fun _ hs hP s' hs' ↦ h s' (hs'.good hs) (P.stable_star hs' hP)

theorem Triple.op {o : Op} {k : Resp o → Prog Resp α} (R : Resp o → O.Assertion t)
    (h : ∀ s r x, O.Good s → P s → M.exec o r s.state = some x → O.known (s.log x (.op t o r)) →
      O.inv (s.log x (.op t o r)) ∧ R r (s.log x (.op t o r)))
    (hk : ∀ r, O.Triple t (R r) (k r) Q) : O.Triple t P (.op o k) Q := by
  intro s hs hP s' hs' r x hx hknown
  obtain ⟨hinv, hR⟩ := h s' r x (hs'.good hs) (P.stable_star hs' hP) hx hknown
  exact ⟨hinv, hk r _ ⟨hknown, hinv⟩ hR⟩

/-- One operation. -/
theorem Triple.call {o : Op} {R : Resp o → O.Assertion t}
    (h : ∀ s r x, O.Good s → P s → M.exec o r s.state = some x → O.known (s.log x (.op t o r)) →
      O.inv (s.log x (.op t o r)) ∧ R r (s.log x (.op t o r))) :
    O.Triple t P (.call o) R :=
  .op R h fun _ ↦ .ret fun _ _ hR ↦ hR

theorem Triple.bind {f : α → Prog Resp β} {R : α → O.Assertion t} {Q : β → O.Assertion t}
    (hp : O.Triple t P p R) (hf : ∀ a, O.Triple t (R a) (f a) Q) : O.Triple t P (p >>= f) Q :=
  fun s hs hP ↦ wp_bind (wp_mono hs (fun a s' hs' hR ↦ hf a s' hs' hR) (hp s hs hP))

theorem Triple.pre (h : ∀ s, O.Good s → P' s → P s) (hp : O.Triple t P p Q) :
    O.Triple t P' p Q :=
  fun s hs hP ↦ hp s hs (h s hs hP)

theorem Triple.post (h : ∀ a s, O.Good s → Q a s → Q' a s) (hp : O.Triple t P p Q) :
    O.Triple t P p Q' :=
  fun s hs hP ↦ wp_mono hs h (hp s hs hP)

/-- A fact that does not depend on the snapshot can be taken out of a precondition. -/
theorem Triple.of_pure {φ : Prop} (h : ∀ s, O.Good s → P s → φ) (hp : φ → O.Triple t P p Q) :
    O.Triple t P p Q :=
  fun s hs hP ↦ hp (h s hs hP) s hs hP

/-- It does not matter which assertion of a family holds if each of them is enough. -/
theorem Triple.any {κ : Type} {A : κ → O.Assertion t} (h : ∀ k, O.Triple t (A k) p Q) :
    O.Triple t (.any A) p Q :=
  fun s hs ⟨k, hk⟩ ↦ h k s hs hk

theorem Triple.ite {c : Prop} [Decidable c] (hp : c → O.Triple t P p Q)
    (hq : ¬c → O.Triple t P q Q) : O.Triple t P (if c then p else q) Q := by
  split
  · exact hp ‹_›
  · exact hq ‹_›

/-- A counted loop carries an assertion indexed by its counter. -/
theorem Triple.times {A : ℕ → O.Assertion t} {body : Prog Resp Unit} (n : ℕ)
    (h : ∀ i < n, O.Triple t (A i) body fun _ ↦ A (i + 1)) :
    O.Triple t (A 0) (Prog.times n body) fun _ ↦ A n := by
  induction n generalizing A with
  | zero => exact .ret fun _ _ hA ↦ hA
  | succ n ih =>
    refine .bind (h 0 n.succ_pos) fun _ ↦ ?_
    exact ih (A := fun i ↦ A (i + 1)) fun i hi ↦ h (i + 1) (Nat.succ_lt_succ hi)

/-- An assertion that none of the operations of a program can falsify survives the program. -/
theorem Triple.frame {S : Op → Prop} (huses : p.Uses S)
    (h : ∀ o, S o → ∀ s r x, O.Good s → P s → M.exec o r s.state = some x →
      O.known (s.log x (.op t o r)) → O.inv (s.log x (.op t o r)) ∧ P (s.log x (.op t o r))) :
    O.Triple t P p fun _ ↦ P := by
  induction p with
  | ret a => exact .ret fun _ _ hP ↦ hP
  | op o k ih => exact .op (fun _ ↦ P) (h o huses.1) fun r ↦ ih r (huses.2 r)

end Rules

/-! ## Soundness -/

/-- What a thread owes: its idle assertion if it is idle, else a program that leads there. -/
def Owes (O : Outline M) (idle : ∀ t, O.Assertion t) (t : ι) (s : Snap ι J Resp E σ) :
    Option (Prog Resp Unit) → Prop
  | none => idle t s
  | some p => O.wp t p (fun _ ↦ idle t) s

/-- The proof obligations: the environment keeps the invariant, and so does every job of every
thread, from idle to idle. -/
structure Valid (O : Outline M) (idle : ∀ t, O.Assertion t) : Prop where
  ext : ∀ {s e x}, O.Good s → M.ext e s.state = some x → O.known (s.log x (.ext e)) →
    O.inv (s.log x (.ext e))
  start : ∀ {t j s p x}, O.Good s → idle t s → M.entry t j s.state = some (p, x) →
    O.known (s.log x (.start t j)) →
    O.inv (s.log x (.start t j)) ∧ O.wp t p (fun _ ↦ idle t) (s.log x (.start t j))

/-- The invariant, and what every thread owes. -/
def Holds (O : Outline M) (idle : ∀ t, O.Assertion t) (c : Config ι J Resp E σ) : Prop :=
  O.inv c.toSnap ∧ ∀ t, O.Owes idle t c.toSnap (c.thread t)

variable {idle : ∀ t, O.Assertion t}

theorem Owes.of_interference {s s' : Snap ι J Resp E σ} {p : Option (Prog Resp Unit)}
    (h : O.Owes idle t s p) (hs : O.Interference t s s') : O.Owes idle t s' p := by
  cases p with
  | none => exact (idle t).stable_star (.single hs) h
  | some p => exact wp_of_interferes (.single hs) h

variable [DecidableEq ι] {c c' : Config ι J Resp E σ}

private theorem holds_update {s : Snap ι J Resp E σ} {th : ι → Option (Prog Resp Unit)} {u : ι}
    {l : Label ι J Resp E} {x : σ} {p : Option (Prog Resp Unit)} (hs : O.Good s)
    (hs' : O.Good (s.log x l)) (hth : ∀ t, O.Owes idle t s (th t)) (hl : l.by? = some u)
    (hx : M.Emits s.state l x) (hu : O.Owes idle u (s.log x l) p) :
    O.Holds idle ⟨s.log x l, Function.update th u p⟩ := by
  refine ⟨hs'.2, fun t ↦ ?_⟩
  by_cases htu : t = u
  · subst htu
    simpa using hu
  · have hne : l.by? ≠ some t := by
      rw [hl]
      exact fun h ↦ htu (Option.some.inj h).symm
    have hother := (hth t).of_interference ⟨l, x, hne, hx, rfl, hs, hs'⟩
    simpa [Function.update_of_ne htu] using hother

theorem Valid.step (hO : O.Valid idle) (hc : O.Holds idle c) (hknown : O.known c.toSnap)
    (hknown' : O.known c'.toSnap) (h : M.Step c c') : O.Holds idle c' := by
  obtain ⟨hs, hth⟩ := hc
  cases h with
  | @start t j p x hidle hentry =>
    have hown := hth t
    rw [hidle] at hown
    obtain ⟨hinv, hwp⟩ := hO.start ⟨hknown, hs⟩ hown hentry hknown'
    exact holds_update ⟨hknown, hs⟩ ⟨hknown', hinv⟩ hth rfl ⟨p, hentry⟩ hwp
  | @op t o k r x hrun hexec =>
    have hown := hth t
    rw [hrun] at hown
    obtain ⟨hinv, hwp⟩ := hown _ .refl r x hexec hknown'
    exact holds_update ⟨hknown, hs⟩ ⟨hknown', hinv⟩ hth rfl hexec hwp
  | @finish t hrun =>
    refine ⟨hs, fun u ↦ ?_⟩
    by_cases hut : u = t
    · subst hut
      have hown := hth u
      rw [hrun] at hown
      simpa [Owes] using hown _ .refl
    · simpa [Function.update_of_ne hut] using hth u
  | @ext e x hext =>
    have hinv := hO.ext ⟨hknown, hs⟩ hext hknown'
    refine ⟨hinv, fun u ↦ (hth u).of_interference ?_⟩
    exact ⟨.ext e, x, Option.some_ne_none u ∘ Eq.symm, hext, rfl, ⟨hknown, hs⟩, ⟨hknown', hinv⟩⟩

/-- **Soundness.** Whatever the interleaving, the outline keeps holding, if what is known is known
along the run. -/
theorem Valid.steps (hO : O.Valid idle) (hc : O.Holds idle c) (h : M.Steps c c')
    (hknown : ∀ c₁, M.Steps c c₁ → M.Steps c₁ c' → O.known c₁.toSnap) : O.Holds idle c' := by
  induction h with
  | refl => exact hc
  | tail hsteps hstep ih =>
    refine hO.step (ih fun c₁ h₁ h₂ ↦ hknown c₁ h₁ (h₂.tail hstep)) ?_ ?_ hstep
    · exact hknown _ hsteps (.single hstep)
    · exact hknown _ (hsteps.tail hstep) .refl

/-- The invariant of a valid outline holds in every run from a good start. -/
theorem Valid.reachable (hO : O.Valid idle) {x : σ} (hinv : O.inv ⟨x, []⟩)
    (hidle : ∀ t, idle t ⟨x, []⟩) (h : M.Steps (.init x) c)
    (hknown : ∀ c₁, M.Steps (.init x) c₁ → O.known c₁.toSnap) : O.Holds idle c :=
  hO.steps (c := .init x) ⟨hinv, hidle⟩ h fun c₁ h₁ _ ↦ hknown c₁ h₁

omit [DecidableEq ι] in
theorem Holds.idle_of_none (h : O.Holds idle c) {t : ι} (ht : c.thread t = none) :
    idle t c.toSnap := by
  have hown := h.2 t
  rwa [ht] at hown

end Outline

end Concurrency
