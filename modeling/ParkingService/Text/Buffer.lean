import Mathlib.Data.List.DropRight
import Mathlib.Data.List.TakeWhile
import Mathlib.Logic.Function.Basic

/-!
# Character arrays

A C array of bytes together with the indices at which it has been written, so that writing out of
bounds can be spoken about: the array itself has no end. What a fresh array holds is not known.

`Buffer.Holds` says that an array starts with certain bytes. A C string is what comes before the
first NUL, and `Buffer.equals` is `strcmp` with a literal: it looks at the bytes of the literal and
at one byte more.
-/

namespace Text

/-- The C string at the beginning of some bytes that a NUL follows. -/
def cString (s : List UInt8) : List UInt8 := s.takeWhile (· ≠ 0)

theorem cString_eq_self {s : List UInt8} : cString s = s ↔ 0 ∉ s := by
  rw [cString, List.takeWhile_eq_self_iff]
  refine ⟨fun h hmem ↦ by simpa using h 0 hmem, fun h x hx ↦ ?_⟩
  rw [decide_eq_true_iff]
  rintro rfl
  exact h hx

theorem zero_notMem_cString (s : List UInt8) : 0 ∉ cString s := fun h ↦ by
  simpa using List.mem_takeWhile_imp h

theorem cString_isPrefixOf (s : List UInt8) : cString s <+: s := List.takeWhile_prefix _

theorem cString_cons_zero (s : List UInt8) : cString (0 :: s) = [] :=
  List.takeWhile_cons_of_neg (by simp)

theorem cString_cons_of_ne {x : UInt8} (hx : x ≠ 0) (s : List UInt8) :
    cString (x :: s) = x :: cString s :=
  List.takeWhile_cons_of_pos (by simpa using hx)

/-- A C string is delimited by the first NUL. -/
theorem cString_append_zero (s rest : List UInt8) : cString (s ++ 0 :: rest) = cString s := by
  induction s with
  | nil => exact cString_cons_zero rest
  | cons x s ih =>
    by_cases hx : x = 0
    · rw [hx, List.cons_append, cString_cons_zero, cString_cons_zero]
    · rw [List.cons_append, cString_cons_of_ne hx, cString_cons_of_ne hx, ih]

theorem cString_append_of_mem {s : List UInt8} (h : 0 ∈ s) (t : List UInt8) :
    cString (s ++ t) = cString s := by
  obtain ⟨s₁, s₂, rfl⟩ := List.append_of_mem h
  rw [List.append_assoc, List.cons_append, cString_append_zero, cString_append_zero]

theorem cString_append_of_notMem {s : List UInt8} (h : 0 ∉ s) (t : List UInt8) :
    cString (s ++ t) = s ++ cString t := by
  refine List.takeWhile_append_of_pos fun x hx ↦ ?_
  rw [decide_eq_true_iff]
  rintro rfl
  exact h hx

/-- Bytes and a NUL tell which C string they hold. -/
theorem prefix_iff_cString_eq {s t : List UInt8} (rest : List UInt8) (ht : 0 ∉ t) :
    t ++ [0] <+: s ++ 0 :: rest ↔ cString s = t := by
  induction s generalizing t with
  | nil =>
    cases t with
    | nil => simp [cString]
    | cons y t =>
      have hy : y ≠ 0 := fun h ↦ ht (h ▸ List.mem_cons_self)
      simp [cString, hy]
  | cons x s ih =>
    by_cases hx : x = 0
    · rw [hx, cString_cons_zero]
      cases t with
      | nil => simp
      | cons y t =>
        have hy : y ≠ 0 := fun h ↦ ht (h ▸ List.mem_cons_self)
        simp [hy]
    · rw [cString_cons_of_ne hx]
      cases t with
      | nil => simp [Ne.symm hx]
      | cons y t =>
        have ih' := ih (t := t) fun h ↦ ht (List.mem_cons_of_mem _ h)
        rw [List.cons_append, List.cons_append, List.cons_prefix_cons, ih', List.cons.injEq,
          eq_comm]

/-- A byte array and the indices at which it has been written. -/
structure Buffer where
  cell : ℤ → UInt8
  written : List ℤ

namespace Buffer

/-- An array that has just been declared. -/
def fresh (junk : ℤ → UInt8) : Buffer := ⟨junk, []⟩

def put (b : Buffer) (i : ℤ) (x : UInt8) : Buffer := ⟨Function.update b.cell i x, i :: b.written⟩

/-- Copy bytes to the indices from `i` on. -/
def fill (b : Buffer) (i : ℤ) : List UInt8 → Buffer
  | [] => b
  | x :: xs => (b.put i x).fill (i + 1) xs

/-- Nothing has been written outside of an array of this size. -/
def Within (b : Buffer) (size : ℕ) : Prop := ∀ i ∈ b.written, 0 ≤ i ∧ i < size

/-- The first bytes. -/
def take (b : Buffer) (n : ℕ) : List UInt8 := (List.range n).map fun k ↦ b.cell k

/-- `strlen`, in an array of this size that holds a string. -/
def strlen (b : Buffer) (size : ℕ) : ℕ := (cString (b.take size)).length

/-- `strcmp(b, literal) == 0` -/
def equals (b : Buffer) (literal : List UInt8) : Bool :=
  b.take (literal.length + 1) = literal ++ [0]

/-- `snprintf(b, size, "%s", s)` with what it returns: the length of `s`, however much of it has
been stored, or a negative value if it does not fit an `int`. -/
def snprintf (b : Buffer) (size : ℕ) (s : List UInt8) : Buffer × ℤ :=
  let stored := s.take (size - 1)
  ((b.fill 0 stored).put stored.length 0, if s.length ≤ 0x7FFFFFFF then s.length else -1)

/-- `strncpy(b, s, n)`: exactly `n` bytes are written, and what the string is short of them are
NULs. -/
def strncpy (b : Buffer) (s : List UInt8) (n : ℕ) : Buffer :=
  b.fill 0 ((cString s).take n ++ List.replicate (n - (cString s).length) 0)

variable {b : Buffer} {i : ℤ} {n size : ℕ} {x : UInt8} {s t : List UInt8}

theorem within_fresh {junk : ℤ → UInt8} : (fresh junk).Within size := fun _ h ↦ by cases h

theorem within_put (h : b.Within size) (hi : 0 ≤ i ∧ i < size) : (b.put i x).Within size := by
  intro j hj
  rcases List.mem_cons.mp hj with rfl | hj
  · exact hi
  · exact h j hj

theorem within_fill (h : b.Within size) (hi : 0 ≤ i) (hs : i + s.length ≤ size) :
    (b.fill i s).Within size := by
  induction s generalizing b i with
  | nil => exact h
  | cons x s ih =>
    have hlength : ((x :: s).length : ℤ) = s.length + 1 := by simp
    exact ih (within_put h ⟨hi, by omega⟩) (by omega) (by omega)

/-! ## What an array holds -/

/-- The array starts with these bytes. -/
def Holds (b : Buffer) (s : List UInt8) : Prop := b.take s.length = s

theorem holds_nil : b.Holds [] := rfl

theorem take_succ : b.take (n + 1) = b.take n ++ [b.cell n] := by
  simp [take, List.range_succ]

theorem holds_concat : b.Holds (s ++ [x]) ↔ b.Holds s ∧ b.cell s.length = x := by
  rw [Holds, List.length_append, List.length_singleton, take_succ]
  constructor
  · intro h
    obtain ⟨htake, hcell⟩ := List.append_inj' h rfl
    exact ⟨htake, List.singleton_inj.mp hcell⟩
  · rintro ⟨htake, rfl⟩
    rw [show b.take s.length = s from htake]

theorem Holds.of_prefix (h : b.Holds s) (ht : t <+: s) : b.Holds t := by
  obtain ⟨rest, rfl⟩ := ht
  induction rest using List.reverseRecOn with
  | nil => rwa [List.append_nil] at h
  | append_singleton rest x ih =>
    rw [← List.append_assoc] at h
    exact ih (holds_concat.mp h).1

theorem holds_iff_isPrefixOf (h : b.Holds s) (ht : t.length ≤ s.length) : b.Holds t ↔ t <+: s := by
  refine ⟨fun hholds ↦ ?_, h.of_prefix⟩
  have htake : b.Holds (s.take t.length) := h.of_prefix (List.take_prefix _ _)
  rw [Holds, List.length_take, Nat.min_eq_left ht] at htake
  rw [← hholds, htake]
  exact List.take_prefix _ _

/-- Writing elsewhere leaves alone what an array holds. -/
theorem Holds.put (h : b.Holds s) (hi : i < 0 ∨ (s.length : ℤ) ≤ i) : (b.put i x).Holds s := by
  induction s using List.reverseRecOn with
  | nil => exact holds_nil
  | append_singleton s y ih =>
    obtain ⟨hs, hy⟩ := holds_concat.mp h
    rw [List.length_append, List.length_singleton] at hi
    have hne : (s.length : ℤ) ≠ i := by omega
    exact holds_concat.mpr ⟨ih hs (by omega), (Function.update_of_ne hne _ _).trans hy⟩

theorem Holds.put_length (h : b.Holds s) : (b.put s.length x).Holds (s ++ [x]) :=
  holds_concat.mpr ⟨h.put (.inr (Int.le_refl _)), Function.update_self ..⟩

theorem Holds.fill (h : b.Holds s) : (b.fill s.length t).Holds (s ++ t) := by
  induction t generalizing b s with
  | nil => rwa [List.append_nil]
  | cons x t ih =>
    have hrest := ih (h.put_length (x := x))
    rw [List.length_append, List.length_singleton, List.append_assoc] at hrest
    exact hrest

theorem holds_fill (b : Buffer) (s : List UInt8) : (b.fill 0 s).Holds s :=
  (holds_nil (b := b)).fill

theorem fill_cell {j : ℤ} (h : i + s.length ≤ j) : (b.fill i s).cell j = b.cell j := by
  induction s generalizing b i with
  | nil => rfl
  | cons x s ih =>
    have hlength : ((x :: s).length : ℤ) = s.length + 1 := by simp
    exact (ih (by omega)).trans (Function.update_of_ne (by omega) _ _)

/-- Writing over the first bytes leaves the others. -/
theorem Holds.overwrite {s' : List UInt8} (h : b.Holds (s ++ t)) (hs : s'.length = s.length) :
    (b.fill 0 s').Holds (s' ++ t) := by
  induction t using List.reverseRecOn with
  | nil =>
    rw [List.append_nil]
    exact holds_fill b s'
  | append_singleton t x ih =>
    rw [← List.append_assoc] at h ⊢
    obtain ⟨hst, hx⟩ := holds_concat.mp h
    refine holds_concat.mpr ⟨ih hst, ?_⟩
    rw [List.length_append, hs, ← List.length_append]
    refine (fill_cell ?_).trans hx
    rw [List.length_append]
    omega

theorem Holds.cell (h : b.Holds (s ++ x :: t)) : b.cell s.length = x := by
  have hprefix : s ++ [x] <+: s ++ x :: t := ⟨t, by simp⟩
  exact (holds_concat.mp (h.of_prefix hprefix)).2

theorem holds_fresh (x : UInt8) (n : ℕ) : (fresh fun _ ↦ x).Holds (List.replicate n x) := by
  simp [Holds, take, fresh]

/-- Writing what is there already changes nothing. -/
theorem Holds.put_cell (h : b.Holds s) (hi : b.cell i = x) : (b.put i x).Holds s := by
  have hcell : (b.put i x).cell = b.cell := hi ▸ Function.update_eq_self i b.cell
  rw [Holds, take, hcell]
  exact h

theorem snprintf_returned (b : Buffer) (size : ℕ) (s : List UInt8) :
    (b.snprintf size s).2 = if s.length ≤ 0x7FFFFFFF then (s.length : ℤ) else -1 := rfl

theorem holds_snprintf (b : Buffer) (size : ℕ) (s : List UInt8) :
    (b.snprintf size s).1.Holds (s.take (size - 1) ++ [0]) :=
  (holds_fill b _).put_length

theorem within_snprintf {m : ℕ} (h : b.Within m) (hm : size < m) :
    (b.snprintf size s).1.Within m := by
  have hlength : (s.take (size - 1)).length ≤ size - 1 := List.length_take_le _ _
  exact within_put (within_fill h (Int.le_refl _) (by omega)) ⟨by omega, by omega⟩

theorem within_strncpy (h : b.Within size) (hn : n ≤ size) : (b.strncpy s n).Within size := by
  refine within_fill h (Int.le_refl _) ?_
  rw [List.length_append, List.length_take, List.length_replicate]
  omega

/-- The copy is terminated if what follows it was a NUL before. -/
theorem holds_strncpy (hcell : b.cell n = 0) :
    (b.strncpy s n).Holds ((cString s).take n ++ [0]) := by
  rcases Nat.lt_or_ge (cString s).length n with hlt | hle
  · refine Holds.of_prefix (holds_fill b _) ?_
    obtain ⟨k, hk⟩ : ∃ k, n - (cString s).length = k + 1 := ⟨n - (cString s).length - 1, by omega⟩
    rw [hk, List.replicate_succ]
    exact ⟨List.replicate k 0, by simp⟩
  · have hnone : n - (cString s).length = 0 := by omega
    have hlength : ((cString s).take n).length = n := by
      rw [List.length_take, Nat.min_eq_left hle]
    have heq : b.strncpy s n = b.fill 0 ((cString s).take n) := by
      rw [strncpy, hnone, List.replicate_zero, List.append_nil]
    refine holds_concat.mpr ⟨heq ▸ holds_fill b _, ?_⟩
    rw [heq, hlength, fill_cell (by omega), hcell]

theorem take_prefix_take {m : ℕ} (h : m ≤ n) : b.take m <+: b.take n := by
  induction n, h using Nat.le_induction with
  | base => exact List.prefix_refl _
  | succ n _ ih => exact ih.trans (by rw [take_succ]; exact List.prefix_append _ _)

/-- The string in an array that holds one. -/
theorem Holds.cString_take (h : b.Holds (s ++ [0])) (hs : s.length < size) :
    cString (b.take size) = cString s := by
  have hprefix : s ++ [0] <+: b.take size := by
    have hlength : (s ++ [0]).length ≤ size := by
      rw [List.length_append]
      exact hs
    have hholds : b.take (s ++ [0]).length = s ++ [0] := h
    exact hholds ▸ take_prefix_take hlength
  obtain ⟨rest, hrest⟩ := hprefix
  rw [← hrest, List.append_assoc, List.singleton_append, cString_append_zero]

/-- What `strlen` finds in an array that holds a string. -/
theorem Holds.strlen (h : b.Holds (s ++ [0])) (hs : s.length < size) :
    b.strlen size = (cString s).length :=
  congrArg List.length (h.cString_take hs)

/-- What `strcmp` finds in an array that holds a string. -/
theorem Holds.equals (h : b.Holds (s ++ [0])) (ht : 0 ∉ t) : b.equals t ↔ cString s = t := by
  have hequals : b.equals t ↔ b.Holds (t ++ [0]) := by simp [Buffer.equals, Holds]
  rw [hequals]
  rcases Nat.lt_or_ge s.length t.length with hlt | hle
  · -- the array ends before the literal does
    refine iff_of_false (fun hholds ↦ ht ?_) fun heq ↦ ?_
    · have hprefix := (holds_iff_isPrefixOf hholds (by simp; omega)).mp h
      have hshort : (s ++ [0]).length ≤ t.length := by
        rw [List.length_append]
        exact hlt
      have hmem := List.prefix_of_prefix_length_le hprefix (List.prefix_append t [0]) hshort
      exact hmem.mem (by simp)
    · have hlength := (cString_isPrefixOf s).length_le
      rw [heq] at hlength
      omega
  · rw [holds_iff_isPrefixOf h (by simpa using hle)]
    exact prefix_iff_cString_eq [] ht

end Buffer

end Text
