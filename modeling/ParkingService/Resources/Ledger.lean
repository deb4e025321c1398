import Mathlib.Data.Finset.Basic
import ParkingService.Resources.Setup

/-!
# Loading and unloading a module

A module asks for one resource after the other, and each request may be refused. Then it has to give
back what it has got so far, and later, when it is unloaded, everything. A `Ledger` says what is
held, and whether anything was given back that was not held. A resource that is held is not given
twice.

`Module.Accounts.run_iff` is the bookkeeping over any sequence of loads and unloads: where every
single load accounts for what it leaves behind, every run does.
-/

namespace Resources

variable {R M K ε : Type}

/-! ## What is held -/

/-- What a module holds, and its variables. -/
structure Ledger (R M : Type) where
  held : Finset R
  /-- nothing was given back wrongly -/
  sound : Bool
  memory : M

namespace Ledger

/-- A variable is written. -/
def store (f : M → M) : Setup (Ledger R M) ε Unit := .modify fun s ↦ { s with memory := f s.memory }

section Requests

variable [DecidableEq R]

def acquire (e : ε) (ok : Bool) (r : R) : Setup (Ledger R M) ε Unit := fun s ↦
  if ok && r ∉ s.held then (.ok (), { s with held := insert r s.held }) else (.error e, s)

def release (r : R) : Setup (Ledger R M) ε Unit :=
  .modify fun s ↦ { s with held := s.held.erase r, sound := s.sound && r ∈ s.held }

end Requests

/-- Exactly so much is held. -/
structure Holds (X : Finset R) (s : Ledger R M) : Prop where
  held : s.held = X
  sound : s.sound = true

/-- What a failed load leaves is nothing, unless it leaks. -/
def Accounted (leaks : Prop) (s : Ledger R M) : Prop := Holds ∅ s ↔ ¬ leaks

theorem accounted {leaks : Prop} (h : ¬ leaks) : ∀ s : Ledger R M, Holds ∅ s → Accounted leaks s :=
  fun _ hs ↦ ⟨fun _ ↦ h, fun _ ↦ hs⟩

/-- A step of a load: if it fails, all that there is is given back. -/
theorem accounted_unwind {leaks c : Prop} {P P' : Ledger R M → Prop} {α : Type}
    {Q : α → Ledger R M → Prop} {x : Setup (Ledger R M) ε α} {undo : Setup (Ledger R M) ε Unit}
    (hx : Setup.Spec P x Q fun s ↦ c ∧ P' s)
    (hundo : Setup.Spec P' undo (fun _ ↦ Holds ∅) (Holds ∅)) (hc : c → ¬ leaks) :
    Setup.Spec P (x.unwind undo) Q (Accounted leaks) :=
  hx.unwind (.assume fun h ↦
    hundo.weaken (fun _ hs ↦ hs) (fun _ ↦ accounted (hc h)) (accounted (hc h)))

variable [DecidableEq R] {X : Finset R} {r : R} {E : Ledger R M → Prop} {Q : M → Prop} {e : ε}
  {ok : Bool}

theorem acquire_spec (hr : r ∉ X) :
    Setup.Spec (fun s ↦ Holds X s ∧ Q s.memory) (acquire e ok r)
      (fun _ s ↦ ok = true ∧ Holds (insert r X) s ∧ Q s.memory)
      fun s ↦ ok = false ∧ Holds X s ∧ Q s.memory := by
  rintro s ⟨⟨hheld, hsound⟩, hQ⟩
  unfold acquire
  cases ok with
  | true =>
    rw [if_pos (by simpa [hheld] using hr)]
    exact ⟨rfl, ⟨by rw [hheld], hsound⟩, hQ⟩
  | false => exact ⟨rfl, ⟨hheld, hsound⟩, hQ⟩

theorem release_spec (hr : r ∉ X) :
    Setup.Spec (fun s ↦ Holds (insert r X) s ∧ Q s.memory) (release r : Setup (Ledger R M) ε Unit)
      (fun _ s ↦ Holds X s ∧ Q s.memory) E := by
  rintro s ⟨⟨hheld, hsound⟩, hQ⟩
  refine ⟨⟨?_, ?_⟩, hQ⟩
  · show s.held.erase r = X
    rw [hheld, Finset.erase_insert hr]
  · show (s.sound && decide (r ∈ s.held)) = true
    rw [hsound, hheld, Bool.true_and]
    exact decide_eq_true (Finset.mem_insert_self _ _)

/-- A request, where nothing is to be known of the variables. -/
theorem acquire_holds (hr : r ∉ X) :
    Setup.Spec (Holds X) (acquire e ok r : Setup (Ledger R M) ε Unit)
      (fun _ s ↦ ok = true ∧ Holds (insert r X) s) fun s ↦ ok = false ∧ Holds X s :=
  (acquire_spec (Q := fun _ ↦ True) hr).weaken (fun _ hs ↦ ⟨hs, trivial⟩)
    (fun _ _ hs ↦ ⟨hs.1, hs.2.1⟩) fun _ hs ↦ ⟨hs.1, hs.2.1⟩

theorem release_holds (hr : r ∉ X) :
    Setup.Spec (Holds (insert r X)) (release r : Setup (Ledger R M) ε Unit) (fun _ ↦ Holds X) E :=
  (release_spec (Q := fun _ ↦ True) hr).weaken (fun _ hs ↦ ⟨hs, trivial⟩) (fun _ _ hs ↦ hs.1)
    fun _ hs ↦ hs

theorem release_unsound :
    Setup.Spec (fun s ↦ s.sound = false) (release r : Setup (Ledger R M) ε Unit)
      (fun _ s ↦ s.sound = false) E := by
  intro s hs
  show (s.sound && _) = false
  rw [hs, Bool.false_and]

/-! ### A resource for each item of a list -/

section Adding

variable {β : Type} {f : β → R} {bs : List β}

def adding (f : β → R) (X : Finset R) : List β → Finset R
  | [] => X
  | b :: bs => insert (f b) (adding f X bs)

theorem mem_adding : r ∈ adding f X bs ↔ r ∈ X ∨ ∃ b ∈ bs, r = f b := by
  induction bs with
  | nil => simp [adding]
  | cons b bs ih =>
    simp only [adding, Finset.mem_insert, ih, List.exists_mem_cons_iff]
    tauto

theorem adding_insert (X : Finset R) (r : R) :
    adding f (insert r X) bs = insert r (adding f X bs) := by
  ext r'
  simp only [mem_adding, Finset.mem_insert]
  tauto

theorem adding_append (X : Finset R) (b : β) :
    adding f X (bs ++ [b]) = insert (f b) (adding f X bs) := by
  ext r
  simp only [mem_adding, List.mem_append, List.mem_singleton, or_and_right, exists_or,
    exists_eq_left, Finset.mem_insert]
  exact or_assoc.symm.trans or_comm

theorem notMem_adding {b : β} (hf : Function.Injective f) (hX : f b ∉ X) (hb : b ∉ bs) :
    f b ∉ adding f X bs := by
  rw [mem_adding]
  rintro (h | ⟨b', hb', h⟩)
  · exact hX h
  · exact hb (hf h ▸ hb')

theorem adding_eq_empty : adding f ∅ bs = ∅ ↔ bs = [] := by
  cases bs <;> simp [adding]

end Adding

end Ledger

/-! ## Modules -/

/-- A module; its variables are those of the image that is loaded. -/
structure Module (K R M ε : Type) where
  fresh : M
  init : K → Setup (Ledger R M) ε Unit
  exit : Setup (Ledger R M) ε Unit

/-- What the kernel has given to a module, and the module if it is loaded. -/
structure System (R M : Type) where
  held : Finset R
  sound : Bool
  loaded : Option M

def System.start : System R M := ⟨∅, true, none⟩

inductive Action (K : Type)
  | load (k : K)
  | unload

namespace Module

variable (D : Module K R M ε)

def step (s : System R M) : Action K → Option (System R M)
  | .load k =>
    match s.loaded with
    | some _ => none
    | none =>
      match D.init k ⟨s.held, s.sound, D.fresh⟩ with
      | (.ok _, l) => some ⟨l.held, l.sound, some l.memory⟩
      -- the image is dropped with its variables, but what it holds it holds
      | (.error _, l) => some ⟨l.held, l.sound, none⟩
  | .unload =>
    match s.loaded with
    | some m =>
      let l := (D.exit ⟨s.held, s.sound, m⟩).2
      some ⟨l.held, l.sound, none⟩
    | none => none

/-- The states after each action. -/
def run (s : System R M) : List (Action K) → Option (List (System R M))
  | [] => some []
  | a :: as =>
    match D.step s a with
    | some s' => (run s' as).map (s' :: ·)
    | none => none

/-- A module that is not loaded holds nothing, and nothing was given back wrongly. -/
structure Clean (s : System R M) : Prop where
  released : s.loaded = none → s.held = ∅
  sound : s.sound = true

/-- And while it is loaded it holds all. -/
structure Tidy (X : Finset R) (s : System R M) : Prop where
  held : s.held = if s.loaded.isSome then X else ∅
  sound : s.sound = true

/-- A load accounts for what it leaves behind: nothing exactly if it does not leak. -/
structure Accounts (X : Finset R) (Ready : M → Prop) (Leaks : K → Prop) : Prop where
  init : ∀ k, Setup.Spec (fun s ↦ Ledger.Holds ∅ s ∧ s.memory = D.fresh) (D.init k)
    (fun _ s ↦ Ledger.Holds X s ∧ Ready s.memory ∧ ¬ Leaks k)
    (Ledger.Accounted (Leaks k))
  exit : Setup.Spec (fun s ↦ Ledger.Holds X s ∧ Ready s.memory) D.exit
    (fun _ s ↦ Ledger.Holds ∅ s) fun s ↦ Ledger.Holds ∅ s

variable {D} {X : Finset R} {Ready : M → Prop} {Leaks : K → Prop} {s s' : System R M}

theorem Tidy.clean (h : Tidy X s) : Clean s :=
  ⟨fun hloaded ↦ by rw [h.held, hloaded]; rfl, h.sound⟩

/-- What is kept between two actions. -/
structure Kept (X : Finset R) (Ready : M → Prop) (s : System R M) : Prop where
  tidy : Tidy X s
  ready : ∀ m, s.loaded = some m → Ready m

theorem kept_start : Kept X Ready .start := ⟨⟨rfl, rfl⟩, fun _ hm ↦ by cases hm⟩

theorem Accounts.load (h : D.Accounts X Ready Leaks) (hs : Kept X Ready s) {k : K}
    (hstep : D.step s (.load k) = some s') :
    (Leaks k → ¬ Clean s') ∧ (¬ Leaks k → Kept X Ready s') := by
  unfold step at hstep
  dsimp only at hstep
  cases hloaded : s.loaded with
  | some m =>
    rw [hloaded] at hstep
    cases hstep
  | none =>
    rw [hloaded] at hstep
    have hheld : s.held = ∅ := by rw [hs.tidy.held, hloaded]; rfl
    have hinit := h.init k ⟨s.held, s.sound, D.fresh⟩ ⟨⟨hheld, hs.tidy.sound⟩, rfl⟩
    cases hrun : D.init k ⟨s.held, s.sound, D.fresh⟩ with
    | mk r l =>
      rw [hrun] at hstep hinit
      cases r with
      | ok a =>
        obtain ⟨⟨hheld', hsound⟩, hready, hleaks⟩ := hinit
        cases hstep
        refine ⟨fun hk ↦ absurd hk hleaks, fun _ ↦ ⟨⟨hheld', hsound⟩, ?_⟩⟩
        rintro m hm
        cases hm
        exact hready
      | error e =>
        cases hstep
        refine ⟨fun hk hs' ↦ hinit.mp ⟨hs'.released rfl, hs'.sound⟩ hk, fun hk ↦ ?_⟩
        obtain ⟨hheld', hsound⟩ := hinit.mpr hk
        exact ⟨⟨hheld', hsound⟩, fun _ hm ↦ by cases hm⟩

theorem Accounts.unload (h : D.Accounts X Ready Leaks) (hs : Kept X Ready s)
    (hstep : D.step s .unload = some s') : Kept X Ready s' := by
  unfold step at hstep
  dsimp only at hstep
  cases hloaded : s.loaded with
  | none =>
    rw [hloaded] at hstep
    cases hstep
  | some m =>
    rw [hloaded] at hstep
    cases hstep
    have hheld : s.held = X := by rw [hs.tidy.held, hloaded]; rfl
    have hexit := h.exit ⟨s.held, s.sound, m⟩ ⟨⟨hheld, hs.tidy.sound⟩, hs.ready m hloaded⟩
    split at hexit <;> rename_i hrun <;> rw [hrun] <;>
      exact ⟨⟨hexit.held, hexit.sound⟩, fun _ hm ↦ by cases hm⟩

/-- **Which runs leave nothing behind**: those in which no load leaks. -/
theorem Accounts.run_iff (h : D.Accounts X Ready Leaks) (hs : Kept X Ready s)
    {P : System R M → Prop} (htidy : ∀ s, Tidy X s → P s) (hclean : ∀ s, P s → Clean s)
    {as : List (Action K)} {states : List (System R M)} (hrun : D.run s as = some states) :
    (∀ s' ∈ states, P s') ↔ ∀ k, .load k ∈ as → ¬ Leaks k := by
  induction as generalizing s states with
  | nil =>
    cases hrun
    simp
  | cons a as ih =>
    unfold run at hrun
    cases hstep : D.step s a with
    | none =>
      rw [hstep] at hrun
      cases hrun
    | some s' =>
      rw [hstep] at hrun
      obtain ⟨states', hstates', rfl⟩ := Option.map_eq_some_iff.mp hrun
      cases a with
      | unload =>
        have hkept := h.unload hs hstep
        rw [List.forall_mem_cons, ih hkept hstates']
        simp [htidy _ hkept.tidy]
      | load k =>
        obtain ⟨hleak, hkeep⟩ := h.load hs hstep
        rw [List.forall_mem_cons]
        by_cases hk : Leaks k
        -- a leak shows in the very next state, whatever comes later
        · exact ⟨fun hP ↦ absurd (hclean _ hP.1) (hleak hk),
            fun hno ↦ absurd hk (hno k List.mem_cons_self)⟩
        · rw [ih (hkeep hk) hstates']
          simp [htidy _ (hkeep hk).tidy, hk]

end Module

end Resources
