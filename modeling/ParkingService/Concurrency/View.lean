import ParkingService.Concurrency.Outline
import ParkingService.Concurrency.Trace

/-!
# Views: reasoning about one thread as if it ran alone

Much of what a lone thread does depends only on data no one else writes, and on its own past. A
`View` projects snapshots to such data: the environment cannot move it, every operation moves it by
a function, and an answer may tell something about it. Under a view the thread is an ordinary
sequential program over the view, with no interference left, and `View.wp` unfolds to a plain
formula.

A view may be taken under an assumption on the labels of the run, each in view of the labels before
it. What the environment does under the assumption is all it has to be proof against, and an answer
tells what the assumption says about it.

`View.sound` transports what is proved under the view to every configuration that is reached along
labels that meet the assumption, at every interleaving.
-/

namespace Concurrency

variable {J Op : Type} {Resp : Op → Type} {E σ V : Type} {α β : Type}

/-- A projection that, under an assumption on the run, only the thread's own operations move. -/
structure View (M : Machine Unit J Resp E σ) (V : Type) where
  /-- What is assumed of a label after these labels. -/
  assume : List (Label Unit J Resp E) → Label Unit J Resp E → Prop
  proj : Snap Unit J Resp E σ → V
  /-- What an answer says about the view it was given in. -/
  guard : (o : Op) → Resp o → V → Prop
  /-- How an operation moves the view. -/
  step : (o : Op) → Resp o → V → V
  proj_ext : ∀ {s e x}, assume s.trace (.ext e) → M.ext e s.state = some x →
    proj (s.log x (.ext e)) = proj s
  proj_start : ∀ {s j p x}, M.entry () j s.state = some (p, x) →
    proj (s.log x (.start () j)) = proj s
  proj_op : ∀ {s o r x}, assume s.trace (.op () o r) → M.exec o r s.state = some x →
    guard o r (proj s) ∧ proj (s.log x (.op () o r)) = step o r (proj s)

namespace View

variable {M : Machine Unit J Resp E σ} (W : View M V) (I : V → Prop)

/-- The weakest precondition of a program that must keep `I` after every operation. -/
def wp : Prog Resp α → (α → V → Prop) → V → Prop
  | .ret a, Q, v => Q a v
  | .op o k, Q, v => ∀ r, W.guard o r v → I (W.step o r v) ∧ wp (k r) Q (W.step o r v)

/-- From `A`, program `p` keeps `I` after every operation and can only end in `B`. -/
def Triple (A : V → Prop) (p : Prog Resp α) (B : α → V → Prop) : Prop :=
  ∀ v, I v → A v → W.wp I p B v

variable {W I} {A A' : V → Prop} {p : Prog Resp α} {B B' : α → V → Prop}

theorem wp_mono {v : V} (hv : I v) (h : ∀ a v, I v → B a v → B' a v) (hp : W.wp I p B v) :
    W.wp I p B' v := by
  induction p generalizing v with
  | ret a => exact h a v hv hp
  | op o k ih =>
    intro r hr
    obtain ⟨hI, hrest⟩ := hp r hr
    exact ⟨hI, ih r hI hrest⟩

theorem wp_bind {f : α → Prog Resp β} {B : β → V → Prop} {v : V} :
    W.wp I (p >>= f) B v ↔ W.wp I p (fun a ↦ W.wp I (f a) B) v := by
  induction p generalizing v with
  | ret a => rfl
  | op o k ih =>
    rw [Prog.op_bind, wp, wp]
    exact forall₂_congr fun r _ ↦ and_congr_right fun _ ↦ ih r

/-! ## Rules -/

theorem Triple.ret {a : α} (h : ∀ v, I v → A v → B a v) : W.Triple I A (.ret a) B :=
  fun v hv hA ↦ h v hv hA

theorem Triple.call {o : Op} {B : Resp o → V → Prop}
    (h : ∀ v r, I v → A v → W.guard o r v → I (W.step o r v) ∧ B r (W.step o r v)) :
    W.Triple I A (.call o) B :=
  fun v hv hA r hr ↦ h v r hv hA hr

theorem Triple.bind {f : α → Prog Resp β} {R : α → V → Prop} {B : β → V → Prop}
    (hp : W.Triple I A p R) (hf : ∀ a, W.Triple I (R a) (f a) B) : W.Triple I A (p >>= f) B :=
  fun v hv hA ↦ wp_bind.mpr (wp_mono hv (fun a v' hv' hR ↦ hf a v' hv' hR) (hp v hv hA))

theorem Triple.pre (h : ∀ v, I v → A' v → A v) (hp : W.Triple I A p B) : W.Triple I A' p B :=
  fun v hv hA ↦ hp v hv (h v hv hA)

theorem Triple.post (h : ∀ a v, I v → B a v → B' a v) (hp : W.Triple I A p B) :
    W.Triple I A p B' :=
  fun v hv hA ↦ wp_mono hv h (hp v hv hA)

/-- A fact that does not depend on the view can be taken out of a precondition. -/
theorem Triple.of_pure {φ : Prop} (h : ∀ v, A v → φ) (hp : φ → W.Triple I A p B) :
    W.Triple I A p B :=
  fun v hv hA ↦ hp (h v hA) v hv hA

theorem Triple.ite {c : Prop} [Decidable c] {q : Prog Resp α}
    (hp : c → W.Triple I A p B) (hq : ¬c → W.Triple I A q B) :
    W.Triple I A (if c then p else q) B := by
  split
  · exact hp ‹_›
  · exact hq ‹_›

/-- A counted loop carries an assertion indexed by its counter. -/
theorem Triple.times {A : ℕ → V → Prop} {body : Prog Resp Unit} (n : ℕ)
    (h : ∀ i < n, W.Triple I (A i) body fun _ ↦ A (i + 1)) :
    W.Triple I (A 0) (Prog.times n body) fun _ ↦ A n := by
  induction n generalizing A with
  | zero => exact .ret fun _ _ hA ↦ hA
  | succ n ih =>
    refine .bind (h 0 n.succ_pos) fun _ ↦ ?_
    exact ih (A := fun i ↦ A (i + 1)) fun i hi ↦ h (i + 1) (Nat.succ_lt_succ hi)

/-- An assertion that none of the operations of a program can falsify survives the program. -/
theorem Triple.frame {S : Op → Prop} (huses : p.Uses S)
    (h : ∀ o, S o → ∀ v r, I v → A v → W.guard o r v → I (W.step o r v) ∧ A (W.step o r v)) :
    W.Triple I A p fun _ ↦ A := by
  induction p with
  | ret a => exact .ret fun _ _ hA ↦ hA
  | op o k ih =>
    intro v hv hA r hr
    obtain ⟨hI, hA'⟩ := h o huses.1 v r hv hA hr
    exact ⟨hI, ih r (huses.2 r) _ hI hA'⟩

/-- Operations that leave the view alone leave every assertion alone. -/
theorem Triple.still {S : Op → Prop} (h : ∀ o, S o → ∀ r v, W.step o r v = v)
    (huses : p.Uses S) : W.Triple I A p fun _ ↦ A := by
  refine .frame huses fun o ho v r hv hA _ ↦ ?_
  rw [h o ho r v]
  exact ⟨hv, hA⟩

/-! ## Soundness -/

variable (W I) in
/-- The outline behind a view: that the assumption has been met is what is known. -/
private def outline : Outline M where
  known s := Always W.assume s.trace
  inv s := I (W.proj s)

private theorem proj_of_interferes {s s' : Snap Unit J Resp E σ}
    (h : (W.outline I).Interferes () s s') : W.proj s' = W.proj s := by
  induction h with
  | refl => rfl
  | tail _ hstep ih =>
    obtain ⟨l, x, hl, hx, rfl, -, hgood⟩ := hstep
    rw [← ih]
    cases l with
    | start t j => exact absurd rfl hl
    | op t o r => exact absurd rfl hl
    | ext e => exact W.proj_ext (always_append_singleton.mp hgood.1).2 hx

private theorem outline_wp {s : Snap Unit J Resp E σ} (h : W.wp I p B (W.proj s)) :
    (W.outline I).wp () p (fun a s ↦ B a (W.proj s)) s := by
  induction p generalizing s with
  | ret a =>
    intro s' hs'
    rw [proj_of_interferes hs']
    exact h
  | op o k ih =>
    intro s' hs' r x hx hassume
    obtain ⟨hguard, hproj⟩ := W.proj_op (always_append_singleton.mp hassume).2 hx
    rw [proj_of_interferes hs'] at hguard hproj
    obtain ⟨hI, hrest⟩ := h r hguard
    rw [← hproj] at hI hrest
    exact ⟨hI, ih r hrest⟩

/-- **Soundness.** If every job leads from `top` back to `top`, then every configuration that is
reached from an idle one where `I` and `top` hold, along labels that meet the assumption, satisfies
`I`, and `top` whenever it is idle. -/
theorem sound {top : V → Prop} {c c' : Config Unit J Resp E σ}
    (hjob : ∀ {j s p x}, M.entry () j s = some (p, x) → W.Triple I top p fun _ ↦ top)
    (hidle : c.thread () = none) (hI : I (W.proj c.toSnap)) (htop : top (W.proj c.toSnap))
    (h : M.Steps c c') (hassume : Always W.assume c'.trace) :
    I (W.proj c'.toSnap) ∧ (c'.thread () = none → top (W.proj c'.toSnap)) := by
  let idle : (W.outline I).Assertion () :=
    { holds := fun s ↦ top (W.proj s)
      stable := fun {s l x} hs hl hx hs' h ↦ by
        rwa [proj_of_interferes (.single ⟨l, x, hl, hx, rfl, hs, hs'⟩)] }
  have hvalid : (W.outline I).Valid fun _ ↦ idle := by
    constructor
    · intro s e x hs hx hknown
      change I (W.proj (s.log x (.ext e)))
      rw [W.proj_ext (always_append_singleton.mp hknown).2 hx]
      exact hs.2
    · intro _ j s p x hs htop hentry _
      have hproj := W.proj_start (s := s) hentry
      refine ⟨?_, outline_wp (B := fun _ ↦ top) ?_⟩
      · change I (W.proj (s.log x (.start () j)))
        rw [hproj]
        exact hs.2
      · rw [hproj]
        exact hjob hentry _ hs.2 htop
  -- nobody else can falsify what is said of the view, so the outline needs no more than this
  have hbegin : (W.outline I).Holds (fun _ ↦ idle) c := by
    refine ⟨hI, fun t ↦ ?_⟩
    rw [show c.thread t = none from hidle]
    exact htop
  have hend := hvalid.steps hbegin h fun c₁ _ h₁ ↦ hassume.of_prefix h₁.trace_prefix
  exact ⟨hend.1, hend.idle_of_none⟩

end View

end Concurrency
