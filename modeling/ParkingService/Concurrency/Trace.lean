import Mathlib.Data.List.Induction

/-!
# Properties of traces

Ways of saying what happened in a run. `Always` says something about every label in view of
the labels before it. `Since` says that something has happened and only certain labels have come
after it. `outstanding` keeps track of an obligation: one kind of label creates it, another
discharges all that there are. `Within` says that something has happened since the first of them was
created. All come with what they say about a trace with one more label, which is how they meet the
steps of a machine.
-/

namespace Concurrency

variable {L : Type}

/-! ## Every label in view of its past -/

section Always

/-- Every label of the trace is `Good` with respect to the labels before it. -/
def Always (Good : List L → L → Prop) (tr : List L) : Prop :=
  ∀ pre l post, tr = pre ++ l :: post → Good pre l

variable {Good : List L → L → Prop} {tr : List L} {l : L}

@[simp] theorem always_nil : Always Good [] := by
  intro pre l post h
  simp at h

@[simp] theorem always_append_singleton :
    Always Good (tr ++ [l]) ↔ Always Good tr ∧ Good tr l := by
  constructor
  · intro h
    refine ⟨fun pre x post hx ↦ h pre x (post ++ [l]) (by simp [hx]), h tr l [] rfl⟩
  · rintro ⟨htr, hl⟩ pre x post hx
    rcases List.eq_nil_or_concat post with rfl | ⟨post', y, rfl⟩
    · obtain ⟨rfl, hlx⟩ := List.append_inj' hx rfl
      obtain rfl : l = x := by simpa using hlx
      exact hl
    · have hcat : tr ++ [l] = (pre ++ x :: post') ++ [y] := by simpa using hx
      exact htr pre x post' (List.append_inj' hcat rfl).1

theorem Always.of_prefix {tr' : List L} (h : Always Good tr') (hp : tr <+: tr') :
    Always Good tr := by
  obtain ⟨rest, rfl⟩ := hp
  intro pre l post htr
  exact h pre l (post ++ rest) (by simp [htr])

theorem always_of_mem (h : ∀ l ∈ tr, ∀ pre, Good pre l) : Always Good tr :=
  fun pre l post htr ↦ h l (by simp [htr]) pre

theorem always_of_forall (h : ∀ pre l, Good pre l) : Always Good tr :=
  always_of_mem fun l _ pre ↦ h pre l

/-- What survives every label of a kind survives any number of them. -/
theorem append_induction {P : List L → Prop} {K : L → Prop} {rest : List L} (h : P tr)
    (hrest : ∀ l ∈ rest, K l) (hP : ∀ tr l, K l → P tr → P (tr ++ [l])) : P (tr ++ rest) := by
  induction rest generalizing tr with
  | nil => simpa using h
  | cons l rest ih =>
    rw [List.append_cons]
    exact ih (hP tr l (hrest l List.mem_cons_self) h) fun l' hl' ↦
      hrest l' (List.mem_cons_of_mem l hl')

end Always

/-! ## Something has happened since -/

section Since

/-- A label that was a `Start` in view of its past has come, and from then on only labels that
`Keep` allows. -/
def Since (Start : List L → L → Prop) (Keep : L → Prop) (tr : List L) : Prop :=
  ∃ pre l post, tr = pre ++ l :: post ∧ Start pre l ∧ ∀ l' ∈ post, Keep l'

variable {Start : List L → L → Prop} {Keep : L → Prop} {tr : List L} {l : L}

/-- It happens now. -/
theorem Since.now (h : Start tr l) : Since Start Keep (tr ++ [l]) :=
  ⟨tr, l, [], rfl, h, by simp⟩

/-- It has happened before, and still only allowed labels have come. -/
theorem Since.append (h : Since Start Keep tr) (hl : Keep l) : Since Start Keep (tr ++ [l]) := by
  obtain ⟨pre, l₀, post, rfl, hstart, hkeep⟩ := h
  refine ⟨pre, l₀, post ++ [l], by simp, hstart, fun l' hl' ↦ ?_⟩
  rcases List.mem_append.mp hl' with hl' | hl'
  · exact hkeep l' hl'
  · rwa [List.mem_singleton.mp hl']

theorem Since.mono {K : L → Prop} (h : Since Start Keep tr) (hkeep : ∀ l, Keep l → K l) :
    Since Start K tr := by
  obtain ⟨pre, l, post, htr, hl, hpost⟩ := h
  exact ⟨pre, l, post, htr, hl, fun x hx ↦ hkeep x (hpost x hx)⟩

/-- What has happened since something that itself happened since `S`. -/
theorem Since.since {S : List L → L → Prop} {K : L → Prop} (h : Since Start Keep tr)
    (hstart : ∀ pre l, Start pre l → Since S K pre ∧ K l) (hkeep : ∀ l, Keep l → K l) :
    Since S K tr := by
  obtain ⟨pre, l, post, rfl, hl, hpost⟩ := h
  obtain ⟨⟨pre', l', post', rfl, hl', hpost'⟩, hK⟩ := hstart pre l hl
  refine ⟨pre', l', post' ++ l :: post, by simp, hl', fun x hx ↦ ?_⟩
  rcases List.mem_append.mp hx with hx | hx
  · exact hpost' x hx
  · rcases List.mem_cons.mp hx with rfl | hx
    · exact hK
    · exact hkeep x (hpost x hx)

/-- If it cannot have happened lately, it had happened before. -/
theorem Since.of_append {A B : List L} (h : Since Start Keep (A ++ B))
    (hB : ∀ late l post, B = late ++ l :: post → ¬Start (A ++ late) l) :
    Since Start Keep A ∧ ∀ l ∈ B, Keep l := by
  obtain ⟨pre, l, post, heq, hl, hpost⟩ := h
  rcases List.append_eq_append_iff.mp heq with ⟨late, rfl, hlate⟩ | ⟨early, rfl, hearly⟩
  · exact absurd hl (hB late l post hlate)
  · cases early with
    | nil => exact absurd (by simpa using hl) (hB [] l post (by simpa using hearly.symm))
    | cons l' early =>
      obtain ⟨rfl, rfl⟩ := List.cons.inj hearly
      exact ⟨⟨pre, l, early, rfl, hl, fun x hx ↦ hpost x (List.mem_append_left _ hx)⟩,
        fun x hx ↦ hpost x (List.mem_append_right _ hx)⟩

/-- It has happened now, or it had before and this label is allowed. -/
theorem since_append_singleton :
    Since Start Keep (tr ++ [l]) ↔ Start tr l ∨ Since Start Keep tr ∧ Keep l := by
  constructor
  · intro h
    by_cases hl : Start tr l
    · exact .inl hl
    · obtain ⟨hbefore, hkeep⟩ := h.of_append fun late x post heq ↦ by
        rcases List.append_eq_singleton_iff.mp heq.symm with ⟨rfl, hx⟩ | ⟨-, hx⟩
        · obtain rfl : x = l := (List.cons.inj hx).1
          rwa [List.append_nil]
        · cases hx
      exact .inr ⟨hbefore, hkeep l (List.mem_singleton_self l)⟩
  · rintro (h | ⟨h, hl⟩)
    · exact .now h
    · exact h.append hl

theorem not_since_nil : ¬Since Start Keep ([] : List L) := by
  rintro ⟨pre, l, post, h, -⟩
  simp at h

end Since

/-! ## Obligations -/

section Outstanding

variable (P Q : L → Prop) [DecidablePred P] [DecidablePred Q]

/-- Some label satisfying `P` has not been followed by one satisfying `Q`. -/
def outstanding (tr : List L) : Bool :=
  tr.foldl (fun b l ↦ if Q l then false else b || decide (P l)) false

@[simp] theorem outstanding_append_singleton (tr : List L) (l : L) :
    outstanding P Q (tr ++ [l]) = if Q l then false else outstanding P Q tr || decide (P l) := by
  simp [outstanding]

variable {P Q} {tr : List L} {l : L}

/-- A label that neither creates nor discharges changes nothing. -/
theorem outstanding_append_of_not (hP : ¬P l) (hQ : ¬Q l) :
    outstanding P Q (tr ++ [l]) = outstanding P Q tr := by
  simp [hP, hQ]

/-- If nothing is outstanding, whatever created an obligation has been followed by its discharge. -/
theorem exists_discharge {pre post : List L} (h : outstanding P Q (pre ++ l :: post) = false)
    (hP : P l) (hQ : ¬Q l) : ∃ l' ∈ post, Q l' := by
  induction post using List.reverseRecOn with
  | nil => simp [hP, hQ] at h
  | append_singleton post l' ih =>
    by_cases hQ' : Q l'
    · exact ⟨l', by simp, hQ'⟩
    · rw [← List.cons_append, ← List.append_assoc, outstanding_append_singleton, if_neg hQ',
        Bool.or_eq_false_iff] at h
      obtain ⟨x, hx, hQx⟩ := ih h.1
      exact ⟨x, List.mem_append_left _ hx, hQx⟩

/-- What is outstanding has been created. -/
theorem exists_of_outstanding (h : outstanding P Q tr = true) : ∃ l ∈ tr, P l := by
  induction tr using List.reverseRecOn with
  | nil => cases h
  | append_singleton tr l ih =>
    by_cases hP : P l
    · exact ⟨l, by simp, hP⟩
    · by_cases hQ : Q l
      · simp [hQ] at h
      · rw [outstanding_append_of_not hP hQ] at h
        obtain ⟨x, hx, hPx⟩ := ih h
        exact ⟨x, List.mem_append_left _ hx, hPx⟩

/-- What has been created stays outstanding until it is discharged. -/
theorem outstanding_of_append {post : List L} (hP : P l) (hQ : ¬Q l) (hpost : ∀ l' ∈ post, ¬Q l') :
    outstanding P Q (tr ++ l :: post) = true := by
  rw [List.append_cons]
  refine append_induction (P := fun tr ↦ outstanding P Q tr = true) ?_ hpost fun tr l hl htr ↦ ?_
  · rw [outstanding_append_singleton, if_neg hQ, decide_eq_true hP, Bool.or_true]
  · rw [outstanding_append_singleton, if_neg hl, htr, Bool.true_or]

/-- What has been discharged stays so until something new is created. -/
theorem outstanding_eq_false_of_append {post : List L} (hQ : Q l) (hpost : ∀ l' ∈ post, ¬P l') :
    outstanding P Q (tr ++ l :: post) = false := by
  rw [List.append_cons]
  refine append_induction (P := fun tr ↦ outstanding P Q tr = false) ?_ hpost fun tr l hl htr ↦ ?_
  · rw [outstanding_append_singleton, if_pos hQ]
  · rw [outstanding_append_singleton, htr, Bool.false_or, decide_eq_false hl, ite_self]

/-- It began with the first `P` after the last `Q`. -/
theorem exists_start_of_outstanding (h : outstanding P Q tr = true) :
    ∃ pre l post, tr = pre ++ l :: post ∧ P l ∧ outstanding P Q pre = false
      ∧ ∀ l' ∈ post, ¬Q l' := by
  induction tr using List.reverseRecOn with
  | nil => cases h
  | append_singleton tr l ih =>
    by_cases hQ : Q l
    · simp [hQ] at h
    · rw [outstanding_append_singleton, if_neg hQ] at h
      cases htr : outstanding P Q tr with
      | true =>
        obtain ⟨pre, l₀, post, rfl, hl₀, hpre, hpost⟩ := ih htr
        refine ⟨pre, l₀, post ++ [l], by simp, hl₀, hpre, ?_⟩
        exact List.forall_mem_append.mpr ⟨hpost, List.forall_mem_singleton.mpr hQ⟩
      | false =>
        rw [htr, Bool.false_or, decide_eq_true_iff] at h
        exact ⟨tr, l, [], rfl, h, htr, fun _ hl' ↦ absurd hl' List.not_mem_nil⟩

end Outstanding

/-! ## Within an interval -/

section Within

variable (S E : L → Prop) [DecidablePred S] [DecidablePred E] (X : L → Prop)

/-- An interval begins with an `S` and lasts until the next `E`: there is one now, and an `X` has
come since it began. -/
def Within (tr : List L) : Prop :=
  ∃ pre l post, tr = pre ++ l :: post ∧ S l ∧ outstanding S E pre = false
    ∧ (∀ l' ∈ post, ¬E l') ∧ ∃ x ∈ post, X x

variable {S E X} {tr : List L} {l : L}

theorem Within.outstanding (hSE : ∀ l, S l → ¬E l) (h : Within S E X tr) :
    outstanding S E tr = true := by
  obtain ⟨pre, l, post, rfl, hl, -, hpost, -⟩ := h
  exact outstanding_of_append hl (hSE l hl) hpost

/-- It has come before, or it comes now; and the interval is not over. -/
theorem within_append_singleton (hSE : ∀ l, S l → ¬E l) :
    Within S E X (tr ++ [l]) ↔
      ¬E l ∧ (Within S E X tr ∨ X l ∧ Concurrency.outstanding S E tr = true) := by
  constructor
  · rintro ⟨pre, l₀, post, htr, hl₀, hpre, hpost, x, hx, hX⟩
    rcases List.eq_nil_or_concat post with rfl | ⟨post', y, rfl⟩
    · exact absurd hx List.not_mem_nil
    · have hcat : tr ++ [l] = (pre ++ l₀ :: post') ++ [y] := by simpa using htr
      obtain ⟨rfl, hy⟩ := List.append_inj' hcat rfl
      obtain rfl : l = y := by simpa using hy
      refine ⟨hpost l (by simp), ?_⟩
      have hpost' : ∀ l' ∈ post', ¬E l' := fun l' hl' ↦ hpost l' (by simp [hl'])
      rcases List.mem_append.mp (List.concat_eq_append ▸ hx) with hx | hx
      · exact .inl ⟨pre, l₀, post', rfl, hl₀, hpre, hpost', x, hx, hX⟩
      · rw [List.mem_singleton] at hx
        exact .inr ⟨hx ▸ hX, outstanding_of_append hl₀ (hSE l₀ hl₀) hpost'⟩
  · rintro ⟨hE, ⟨pre, l₀, post, rfl, hl₀, hpre, hpost, x, hx, hX⟩ | ⟨hX, hout⟩⟩
    · refine ⟨pre, l₀, post ++ [l], by simp, hl₀, hpre, ?_, x, by simp [hx], hX⟩
      exact List.forall_mem_append.mpr ⟨hpost, List.forall_mem_singleton.mpr hE⟩
    · obtain ⟨pre, l₀, post, rfl, hl₀, hpre, hpost⟩ := exists_start_of_outstanding hout
      refine ⟨pre, l₀, post ++ [l], by simp, hl₀, hpre, ?_, l, by simp, hX⟩
      exact List.forall_mem_append.mpr ⟨hpost, List.forall_mem_singleton.mpr hE⟩

end Within

/-! ## Runs of one value -/

section Runs

variable {α : Type} {a b : α} {n k : ℕ} {xs : List α}

/-- The value `a` never comes `n` times in succession. -/
def NeverRuns (a : α) (n : ℕ) (xs : List α) : Prop := ¬List.replicate n a <:+: xs

instance [DecidableEq α] : Decidable (NeverRuns a n xs) := inferInstanceAs (Decidable (¬_))

/-- The value `a` has come `k` times since the last `b`, and until then never `n` times in
succession. -/
def RunsSince (a b : α) (n k : ℕ) (xs : List α) : Prop :=
  ∃ ys, xs = ys ++ b :: List.replicate k a ∧ NeverRuns a n (ys ++ [b])

theorem NeverRuns.append_singleton (h : NeverRuns a n xs) (hb : b ≠ a) (hn : n ≠ 0) :
    NeverRuns a n (xs ++ [b]) := by
  intro hinfix
  rcases List.infix_concat_iff.mp hinfix with hsuffix | hinfix
  · rcases List.suffix_concat_iff.mp hsuffix with hnil | ⟨t, ht, -⟩
    · exact hn (by simpa using hnil)
    · have hmem : b ∈ List.replicate n a := by simp [ht]
      exact hb (List.eq_of_mem_replicate hmem)
  · exact h hinfix

theorem RunsSince.never (h : RunsSince a b n k xs) (hb : b ≠ a) (hk : k < n) :
    NeverRuns a n xs := by
  obtain ⟨ys, rfl, hnever⟩ := h
  induction k with
  | zero => exact hnever
  | succ k ih =>
    intro hinfix
    have hcat : ys ++ b :: List.replicate (k + 1) a = (ys ++ b :: List.replicate k a) ++ [a] := by
      rw [List.replicate_succ', List.append_assoc, List.cons_append]
    rw [hcat] at hinfix
    rcases List.infix_concat_iff.mp hinfix with hsuffix | hinfix
    · -- a suffix that long reaches back to `b`
      rw [← hcat] at hsuffix
      have hreach :=
          List.suffix_of_suffix_length_le (List.suffix_append ys _) hsuffix (by simp; omega)
      exact hb (List.eq_of_mem_replicate (hreach.mem List.mem_cons_self))
    · exact ih (Nat.lt_of_succ_lt hk) hinfix

/-- It comes once more. -/
theorem RunsSince.again (h : RunsSince a b n k xs) : RunsSince a b n (k + 1) (xs ++ [a]) := by
  obtain ⟨ys, rfl, hnever⟩ := h
  exact ⟨ys, by rw [List.replicate_succ', List.append_assoc, List.cons_append], hnever⟩

/-- The other value comes in time. -/
theorem RunsSince.broken (h : RunsSince a b n k xs) (hb : b ≠ a) (hk : k < n) :
    RunsSince a b n 0 (xs ++ [b]) :=
  ⟨xs, rfl, (h.never hb hk).append_singleton hb (Nat.ne_zero_of_lt hk)⟩

end Runs

end Concurrency
