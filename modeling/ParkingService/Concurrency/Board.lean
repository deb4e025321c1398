import ParkingService.Concurrency.Outline

/-!
# Boards: following a run by what some of its labels do

Most labels of a run have nothing to do with what one wants to follow. A `Board` singles out the
labels that do, the *acts*, and says how an act moves what is followed; every other label leaves it
alone. Under a board an assertion of a thread is a predicate that the acts of others preserve, and
the rules for one operation come in two kinds: `quiet` for an operation that is no act, and `act`.

An act is known together with the thread it comes from. Where only some thread may do something, a
board keeps account of whether that has been respected, and soundness of the board says it has.
-/

namespace Concurrency

variable {ι J Op : Type} {Resp : Op → Type} {E σ A B α β : Type}

/-- Acts, and what they do to what is followed. -/
structure Board (M : Machine ι J Resp E σ) (A B : Type) where
  act? : Label ι J Resp E → Option A
  view : Snap ι J Resp E σ → B
  next : B → Option ι → A → B
  view_of_none : ∀ {s l x}, M.Emits s.state l x → act? l = none → view (s.log x l) = view s
  view_of_some : ∀ {s l x a}, M.Emits s.state l x → act? l = some a →
    view (s.log x l) = next (view s) l.by? a

namespace Board

variable {M : Machine ι J Resp E σ} (W : Board M A B) (Sound : B → Prop)

/-- The outline behind a board. -/
def outline : Outline M where
  known _ := True
  inv s := Sound (W.view s)

/-- An assertion about the board that the acts of others cannot falsify. -/
def assert (t : ι) (P : B → Prop) (hP : ∀ b u a, Sound b → Sound (W.next b u a) → u ≠ some t →
    P b → P (W.next b u a)) : (W.outline Sound).Assertion t where
  holds s := P (W.view s)
  stable {s l x} hs hl hx hs' h := by
    cases ha : W.act? l with
    | none => rwa [W.view_of_none hx ha]
    | some a =>
      have hsound : Sound (W.view (s.log x l)) := hs'.2
      rw [W.view_of_some hx ha] at hsound ⊢
      exact hP _ _ a hs.2 hsound hl h

variable {W Sound} {t : ι} {P : (W.outline Sound).Assertion t}

/-- Whatever it is about, an assertion that speaks of the board only. -/
def About (P : (W.outline Sound).Assertion t) : Prop :=
  ∀ {s s' : Snap ι J Resp E σ}, W.view s' = W.view s → P s → P s'

theorem about_assert {P : B → Prop} {hP : ∀ b u a, Sound b → Sound (W.next b u a) → u ≠ some t →
    P b → P (W.next b u a)} : About (W.assert Sound t P hP) :=
  fun hview h ↦ show P _ by rwa [hview]

theorem about_top : About (Outline.Assertion.top : (W.outline Sound).Assertion t) :=
  fun _ h ↦ h

/-! ## Rules -/

/-- Between two acts of a thread. -/
theorem quiet {o : Op} {R : Resp o → (W.outline Sound).Assertion t}
    (ho : ∀ r, W.act? (.op t o r) = none)
    (h : ∀ s r x, Sound (W.view s) → P s → M.exec o r s.state = some x →
      W.view (s.log x (.op t o r)) = W.view s → R r (s.log x (.op t o r))) :
    (W.outline Sound).Triple t P (.call o) R :=
  .call fun s r x hs hP hx _ ↦ by
    have hview : W.view (s.log x (.op t o r)) = W.view s :=
      W.view_of_none (l := .op t o r) hx (ho r)
    exact ⟨show Sound _ from hview ▸ hs.2, h s r x hs.2 hP hx hview⟩

/-- An act of a thread. -/
theorem act {o : Op} {R : Resp o → (W.outline Sound).Assertion t} (a : Resp o → A)
    (ha : ∀ r, W.act? (.op t o r) = some (a r))
    (h : ∀ s r x, Sound (W.view s) → P s → M.exec o r s.state = some x →
      W.view (s.log x (.op t o r)) = W.next (W.view s) (some t) (a r) →
      Sound (W.next (W.view s) (some t) (a r)) ∧ R r (s.log x (.op t o r))) :
    (W.outline Sound).Triple t P (.call o) R :=
  .call fun s r x hs hP hx _ ↦ by
    have hview := W.view_of_some (l := .op t o r) hx (ha r)
    obtain ⟨hsound, hR⟩ := h s r x hs.2 hP hx hview
    exact ⟨show Sound _ from hview ▸ hsound, hR⟩

/-- A program without acts. -/
theorem quiet_program {p : Prog Resp α} {S : Op → Prop} (hP : About P) (hp : p.Uses S)
    (hS : ∀ o, S o → ∀ r, W.act? (.op t o r) = none) :
    (W.outline Sound).Triple t P p fun _ ↦ P := by
  induction p with
  | ret a => exact .ret fun _ _ h ↦ h
  | op o k ih =>
    refine .bind (quiet (R := fun _ ↦ P) (hS o hp.1) ?_) fun r ↦ ih r (hp.2 r)
    exact fun s r x _ h _ hview ↦ hP hview h

/-! ## Soundness -/

variable {idle : ∀ t, (W.outline Sound).Assertion t}

/-- What has to be shown of a board: the environment keeps it sound, a thread that takes up a job
does nothing to it, and every job leads from idle to idle. -/
theorem valid (hext : ∀ {s e x}, Sound (W.view s) → M.ext e s.state = some x →
      Sound (W.view (s.log x (.ext e))))
    (hstart : ∀ t j, W.act? (.start t j) = none) (habout : ∀ t, About (idle t))
    (hjob : ∀ {t j s p x}, M.entry t j s = some (p, x) →
      (W.outline Sound).Triple t (idle t) p fun _ ↦ idle t) :
    (W.outline Sound).Valid idle where
  ext hs hx _ := hext hs.2 hx
  start {t j s p x} hs hidle hentry _ := by
    have hview : W.view (s.log x (.start t j)) = W.view s :=
      W.view_of_none ⟨p, hentry⟩ (hstart t j)
    have hsound : Sound (W.view (s.log x (.start t j))) := hview ▸ hs.2
    exact ⟨hsound, hjob hentry _ ⟨trivial, hsound⟩ (habout t hview hidle)⟩

/-- A board that is sound at the beginning is sound always. -/
theorem sound [DecidableEq ι] (hvalid : (W.outline Sound).Valid idle) {x : σ}
    (hx : Sound (W.view ⟨x, []⟩))
    (hidle : ∀ t, idle t ⟨x, []⟩) {c : Config ι J Resp E σ} (hc : M.Steps (.init x) c) :
    Sound (W.view c.toSnap) ∧ ∀ t, c.thread t = none → idle t c.toSnap := by
  have hholds := hvalid.reachable hx hidle hc fun _ _ ↦ trivial
  exact ⟨hholds.1, fun _ ↦ hholds.idle_of_none⟩

end Board

end Concurrency
