/-!
# Routines that may fail

A routine does one thing after the other, and each may fail. What has been done stays done, so a
failure is followed by an `unwind`. `Spec` says what is left when a routine returns and what when it
fails, and has one rule for each way to build a routine; a loop needs an invariant over the items
done.
-/

namespace Resources

variable {σ ε α β : Type}

/-- A routine that returns or fails; what it has done stays done. -/
def Setup (σ ε α : Type) : Type := σ → Except ε α × σ

namespace Setup

def bind (x : Setup σ ε α) (f : α → Setup σ ε β) : Setup σ ε β := fun s ↦
  match x s with
  | (.ok a, s) => f a s
  | (.error e, s) => (.error e, s)

instance : Monad (Setup σ ε) where
  pure a s := (.ok a, s)
  bind := bind

/-- Fail unless all is well. -/
def check (e : ε) (ok : Bool) : Setup σ ε Unit := fun s ↦ (if ok then .ok () else .error e, s)

def modify (f : σ → σ) : Setup σ ε Unit := fun s ↦ (.ok (), f s)

/-- Only in some states. -/
def when (c : σ → Bool) (x : Setup σ ε Unit) : Setup σ ε Unit := fun s ↦
  if c s then x s else (.ok (), s)

/-- What is to be undone when a routine fails. -/
def unwind (x : Setup σ ε α) (undo : Setup σ ε Unit) : Setup σ ε α := fun s ↦
  match x s with
  | (.ok a, s) => (.ok a, s)
  | (.error e, s) => (.error e, (undo s).2)

def each (f : β → Setup σ ε Unit) : List β → Setup σ ε Unit
  | [] => pure ()
  | a :: as => do
    f a
    each f as

/-- From a state with `P`, a routine that returns leaves `Q` and one that fails leaves `E`. -/
def Spec (P : σ → Prop) (x : Setup σ ε α) (Q : α → σ → Prop) (E : σ → Prop) : Prop :=
  ∀ s, P s → match x s with
    | (.ok a, s') => Q a s'
    | (.error _, s') => E s'

section Spec

variable {P P' E E' : σ → Prop} {Q Q' : α → σ → Prop} {x : Setup σ ε α}

theorem Spec.weaken (h : Spec P x Q E) (hP : ∀ s, P' s → P s) (hQ : ∀ a s, Q a s → Q' a s)
    (hE : ∀ s, E s → E' s) : Spec P' x Q' E' := by
  intro s hs
  have := h s (hP s hs)
  split at this
  · exact hQ _ _ this
  · exact hE _ this

/-- What is known of the start and does not speak of the state. -/
theorem Spec.assume {c : Prop} (h : c → Spec P x Q E) : Spec (fun s ↦ c ∧ P s) x Q E :=
  fun s hs ↦ h hs.1 s hs.2

theorem Spec.ret {a : α} : Spec (Q a) (pure a : Setup σ ε α) Q E := fun _ hs ↦ hs

theorem Spec.bind {f : α → Setup σ ε β} {R : β → σ → Prop} (hx : Spec P x Q E)
    (hf : ∀ a, Spec (Q a) (f a) R E) : Spec P (x >>= f) R E := by
  intro s hs
  have h := hx s hs
  show match Setup.bind x f s with | (.ok a, s') => R a s' | (.error _, s') => E s'
  unfold Setup.bind
  cases hxs : x s with
  | mk r s' =>
    rw [hxs] at h
    cases r with
    | ok a => exact hf a s' h
    | error e => exact h

theorem Spec.unwind {undo : Setup σ ε Unit} (hx : Spec P x Q E')
    (hundo : Spec E' undo (fun _ ↦ E) E) : Spec P (x.unwind undo) Q E := by
  intro s hs
  have h := hx s hs
  unfold Setup.unwind
  cases hxs : x s with
  | mk r s' =>
    rw [hxs] at h
    cases r with
    | ok a => exact h
    | error e =>
      have hu := hundo s' h
      show E (undo s').2
      cases hus : undo s' with
      | mk r' s'' =>
        rw [hus] at hu
        cases r' <;> exact hu

theorem Spec.check {e : ε} {ok : Bool} :
    Spec P (Setup.check e ok) (fun _ s ↦ ok = true ∧ P s) fun s ↦ ok = false ∧ P s := by
  intro s hs
  cases ok <;> exact ⟨rfl, hs⟩

theorem Spec.modify {f : σ → σ} {Q : σ → Prop} :
    Spec (fun s ↦ Q (f s)) (Setup.modify f : Setup σ ε Unit) (fun _ ↦ Q) E := fun _ hs ↦ hs

theorem Spec.when {c : σ → Bool} {x : Setup σ ε Unit} {Q : Unit → σ → Prop} (hc : ∀ s, P s → c s)
    (hx : Spec P x Q E) : Spec P (Setup.when c x) Q E := by
  intro s hs
  unfold Setup.when
  rw [if_pos (hc s hs)]
  exact hx s hs

/-- A loop keeps an invariant that speaks of the items done. -/
theorem Spec.each {f : β → Setup σ ε Unit} {I : List β → σ → Prop} (as : List β)
    (h : ∀ done a rest, as = done ++ a :: rest → Spec (I done) (f a) (fun _ ↦ I (done ++ [a])) E) :
    Spec (I []) (Setup.each f as) (fun _ ↦ I as) E := by
  suffices hall : ∀ rest done, as = done ++ rest →
      Spec (I done) (Setup.each f rest) (fun _ ↦ I as) E from hall as [] rfl
  intro rest
  induction rest with
  | nil =>
    rintro done rfl
    rw [List.append_nil]
    exact .ret (Q := fun _ ↦ _)
  | cons a rest ih =>
    intro done hdone
    refine (h done a rest hdone).bind fun _ ↦ ih _ ?_
    rw [hdone, List.append_assoc]
    rfl

end Spec

end Setup

end Resources
