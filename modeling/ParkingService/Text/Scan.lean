import Mathlib.Data.Int.Notation
import Mathlib.Data.List.DropRight

/-!
# `printf` and `scanf` with `%d`

A format is a list of directives. To `printf` a directive is a character or the next number in
decimal, to `scanf` it is a character to be matched, any amount of white space, or a number, before
which white space is skipped.

What one prints the other reads back (`scan_print`), provided that the number is an `int`, and that
no digit is printed right behind it. White space needs no proviso: `scanf` may skip more of it than
the directive stands for, but only what the following directives stand for too, and these are then
content with none.
-/

namespace Text

/-- `isspace` -/
def isSpace (c : Char) : Bool :=
  c = ' ' || c = '\t' || c = '\n' || c.toNat = 11 || c.toNat = 12 || c = '\r'

inductive Directive
  | int
  | char (c : Char)
  deriving DecidableEq

/-- A format string. -/
def directives : List Char → List Directive
  | '%' :: 'd' :: fmt => .int :: directives fmt
  | c :: fmt => .char c :: directives fmt
  | [] => []

/-! ## Printing -/

/-- What `%d` prints. -/
def decimal (n : ℤ) : List Char := (toString n).toList

/-- `printf`. An argument that is missing prints nothing. -/
def print : List Directive → List ℤ → List Char
  | .int :: ds, n :: args => decimal n ++ print ds args
  | .int :: ds, [] => print ds []
  | .char c :: ds, args => c :: print ds args
  | [], _ => []

/-! ## Scanning -/

/-- The longest run of digits, if there is one, and what follows it. -/
def scanDigits (s : List Char) : Option (ℕ × List Char) :=
  if s.takeWhile Char.isDigit = [] then none
  else some (Nat.ofDigitChars 10 (s.takeWhile Char.isDigit) 0, s.dropWhile Char.isDigit)

/-- Digits with an optional sign. -/
def scanSigned : List Char → Option (ℤ × List Char)
  | '-' :: s => (scanDigits s).map fun (n, rest) ↦ (-n, rest)
  | '+' :: s => (scanDigits s).map fun (n, rest) ↦ (n, rest)
  | s => (scanDigits s).map fun (n, rest) ↦ (n, rest)

/-- What is stored of a number: `strtol` stops at the ends of a `long`, and of that an `int` keeps
the low 32 bits. -/
def storeInt (n : ℤ) : ℤ :=
  (max (-9223372036854775808) (min n 9223372036854775807)).bmod 4294967296

/-- The numbers that `scanf` stores before its first mismatch. -/
def scan : List Directive → List Char → List ℤ
  | .int :: ds, s =>
    match scanSigned (s.dropWhile isSpace) with
    | some (n, rest) => storeInt n :: scan ds rest
    | none => []
  | .char c :: ds, s =>
    if isSpace c then scan ds (s.dropWhile isSpace)
    else
      match s with
      | x :: rest => if x = c then scan ds rest else []
      | [] => []
  | [], _ => []

/-! ## Numbers -/

/-- A value of C's `int`. -/
def IsInt (n : ℤ) : Prop := -2147483648 ≤ n ∧ n ≤ 2147483647

instance (n : ℤ) : Decidable (IsInt n) := inferInstanceAs (Decidable (_ ∧ _))

theorem storeInt_of_isInt {n : ℤ} (h : IsInt n) : storeInt n = n := by
  obtain ⟨hlow, hhigh⟩ := h
  have hlong : max (-9223372036854775808) (min n 9223372036854775807) = n := by omega
  rw [storeInt, hlong]
  exact Int.bmod_eq_of_le (by omega) (by omega)

/-- No digit comes first. -/
def NoDigit (s : List Char) : Prop := ∀ c ∈ s.head?, c.isDigit = false

theorem takeWhile_isDigit {s : List Char} (h : NoDigit s) : s.takeWhile Char.isDigit = [] := by
  cases s with
  | nil => rfl
  | cons c s => exact List.takeWhile_cons_of_neg (by simp [h c rfl])

theorem dropWhile_isDigit {s : List Char} (h : NoDigit s) : s.dropWhile Char.isDigit = s := by
  cases s with
  | nil => rfl
  | cons c s => exact List.dropWhile_cons_of_neg (by simp [h c rfl])

theorem scanDigits_toDigits (n : ℕ) {s : List Char} (h : NoDigit s) :
    scanDigits (Nat.toDigits 10 n ++ s) = some (n, s) := by
  have hdigits : ∀ c ∈ Nat.toDigits 10 n, c.isDigit := fun c hc ↦
    Nat.isDigit_of_mem_toDigits (by decide) (by decide) hc
  rw [scanDigits, List.takeWhile_append_of_pos hdigits, List.dropWhile_append_of_pos hdigits,
    takeWhile_isDigit h, dropWhile_isDigit h, List.append_nil, if_neg Nat.toDigits_ne_nil,
    Nat.ofDigitChars_ten_toDigits]

theorem decimal_of_nonneg {n : ℤ} (h : 0 ≤ n) : decimal n = Nat.toDigits 10 n.toNat := by
  rw [decimal, Int.toString_eq_repr, Int.repr_eq_if, if_pos h, Nat.toList_repr]

theorem decimal_of_neg {n : ℤ} (h : n < 0) : decimal n = '-' :: Nat.toDigits 10 (-n).toNat := by
  rw [decimal, Int.toString_eq_repr, Int.repr_eq_if, if_neg (by omega), String.toList_append,
    Nat.toList_repr]
  rfl

theorem exists_toDigits (n : ℕ) : ∃ c cs, Nat.toDigits 10 n = c :: cs ∧ c.isDigit = true := by
  obtain ⟨c, cs, hcs⟩ := List.exists_cons_of_ne_nil (Nat.toDigits_ne_nil (n := n) (b := 10))
  refine ⟨c, cs, hcs, Nat.isDigit_of_mem_toDigits (b := 10) (n := n) (by decide) (by decide) ?_⟩
  exact hcs ▸ List.mem_cons_self

theorem scanSigned_of_isDigit {c : Char} (s : List Char) (h : c.isDigit = true) :
    scanSigned (c :: s) = (scanDigits (c :: s)).map fun (n, rest) ↦ (n, rest) := by
  unfold scanSigned
  split
  · rename_i heq
    rw [(List.cons.inj heq).1] at h
    cases h
  · rename_i heq
    rw [(List.cons.inj heq).1] at h
    cases h
  · rfl

/-- A number is read back, if no digit comes behind it. -/
theorem scanSigned_decimal (n : ℤ) {s : List Char} (h : NoDigit s) :
    scanSigned (decimal n ++ s) = some (n, s) := by
  rcases Int.lt_or_le n 0 with hn | hn
  · rw [decimal_of_neg hn, List.cons_append, scanSigned, scanDigits_toDigits _ h]
    have hvalue : -((-n).toNat : ℤ) = n := by omega
    exact congrArg (fun m ↦ some (m, s)) hvalue
  · obtain ⟨c, cs, hcs, hdigit⟩ := exists_toDigits n.toNat
    have hvalue : (n.toNat : ℤ) = n := by omega
    have hscan := scanDigits_toDigits n.toNat h
    rw [decimal_of_nonneg hn]
    rw [hcs, List.cons_append] at hscan ⊢
    rw [scanSigned_of_isDigit _ hdigit, hscan]
    exact congrArg (fun m ↦ some (m, s)) hvalue

theorem isSpace_of_isDigit {c : Char} (h : c.isDigit = true) : isSpace c = false := by
  obtain ⟨hlow, -⟩ := Char.isDigit_iff_toNat.mp h
  have hne {c' : Char} (h' : c'.isDigit = false) : c ≠ c' := by
    rintro rfl
    rw [h] at h'
    cases h'
  have h11 : c.toNat ≠ 11 := by
    rintro heq
    rw [heq] at hlow
    exact absurd hlow (by decide)
  have h12 : c.toNat ≠ 12 := by
    rintro heq
    rw [heq] at hlow
    exact absurd hlow (by decide)
  simp [isSpace, hne, h11, h12]

/-- It consists of digits and a sign. -/
theorem mem_decimal {n : ℤ} {c : Char} (h : c ∈ decimal n) : 45 ≤ c.toNat ∧ c.toNat ≤ 57 := by
  have hdigit {k : ℕ} (hc : c ∈ Nat.toDigits 10 k) : 45 ≤ c.toNat ∧ c.toNat ≤ 57 := by
    have hc' := Nat.isDigit_of_mem_toDigits (b := 10) (by decide) (by decide) hc
    obtain ⟨hlow, hhigh⟩ := Char.isDigit_iff_toNat.mp hc'
    exact ⟨Nat.le_trans (by decide) hlow, hhigh⟩
  rcases Int.lt_or_le n 0 with hn | hn
  · rw [decimal_of_neg hn] at h
    rcases List.mem_cons.mp h with rfl | h
    · decide
    · exact hdigit h
  · rw [decimal_of_nonneg hn] at h
    exact hdigit h

theorem length_decimal_le {n : ℤ} (hn : 0 ≤ n) (h : n < 1000) : (decimal n).length ≤ 3 := by
  rw [decimal_of_nonneg hn, Nat.length_toDigits_le_iff (by decide) (by decide)]
  omega

/-- A number does not begin with white space. -/
theorem dropWhile_isSpace_decimal (n : ℤ) (s : List Char) :
    (decimal n ++ s).dropWhile isSpace = decimal n ++ s := by
  rcases Int.lt_or_le n 0 with hn | hn
  · rw [decimal_of_neg hn]
    exact List.dropWhile_cons_of_neg (by decide)
  · obtain ⟨c, cs, hcs, hdigit⟩ := exists_toDigits n.toNat
    rw [decimal_of_nonneg hn, hcs]
    exact List.dropWhile_cons_of_neg (by rw [isSpace_of_isDigit hdigit]; decide)

/-! ## Formats -/

/-- No digit is printed right behind a number. -/
def Separated : List Directive → Prop
  | .int :: .int :: _ => False
  | .int :: .char c :: ds => c.isDigit = false ∧ Separated ds
  | .int :: [] => True
  | .char _ :: ds => Separated ds
  | [] => True

variable {ds : List Directive} {args : List ℤ} {rest : List Char} {c : Char}

theorem scan_char_of_isSpace (h : isSpace c = true) (s : List Char) :
    scan (.char c :: ds) s = scan ds (s.dropWhile isSpace) :=
  if_pos h

theorem scan_char_of_not_isSpace (h : isSpace c = false) (s : List Char) :
    scan (.char c :: ds) (c :: s) = scan ds s := by
  simp [scan, h]

theorem scan_int_decimal {n : ℤ} {s : List Char} (hn : IsInt n) (hs : NoDigit s) :
    scan (.int :: ds) (decimal n ++ s) = n :: scan ds s := by
  rw [scan, dropWhile_isSpace_decimal, scanSigned_decimal n hs]
  exact congrArg (· :: scan ds s) (storeInt_of_isInt hn)

/-- What is printed are the characters of the format and numbers. -/
theorem mem_print (h : c ∈ print ds args) : .char c ∈ ds ∨ ∃ n ∈ args, c ∈ decimal n := by
  induction ds generalizing args with
  | nil => cases h
  | cons d ds ih =>
    cases d with
    | int =>
      cases args with
      | nil => exact (ih h).imp_left (List.mem_cons_of_mem _)
      | cons n args =>
        rcases List.mem_append.mp h with h | h
        · exact .inr ⟨n, List.mem_cons_self, h⟩
        · rcases ih h with h | ⟨m, hm, h⟩
          · exact .inl (List.mem_cons_of_mem _ h)
          · exact .inr ⟨m, List.mem_cons_of_mem _ hm, h⟩
    | char c' =>
      rcases List.mem_cons.mp h with rfl | h
      · exact .inl List.mem_cons_self
      · exact (ih h).imp_left (List.mem_cons_of_mem _)

/-- White space that is skipped before the rest of what has been printed is not missed. -/
theorem scan_dropWhile :
    scan ds ((print ds args ++ rest).dropWhile isSpace) = scan ds (print ds args ++ rest) := by
  cases ds with
  | nil => rfl
  | cons d ds =>
    cases d with
    | int =>
      simp only [scan, List.dropWhile_idempotent]
    | char c =>
      cases hc : isSpace c with
      | true => rw [scan_char_of_isSpace hc, scan_char_of_isSpace hc, List.dropWhile_idempotent]
      | false =>
        rw [print, List.cons_append, List.dropWhile_cons_of_neg (by simp [hc])]

/-- What has been printed behind a number does not begin with a digit. -/
theorem noDigit_print (h : Separated (.int :: ds)) (hrest : NoDigit rest) :
    NoDigit (print ds args ++ rest) := by
  cases ds with
  | nil => exact hrest
  | cons d ds =>
    cases d with
    | int => exact h.elim
    | char c =>
      intro c' hc'
      obtain rfl : c = c' := Option.some.inj hc'
      exact h.1

theorem Separated.tail {d : Directive} (h : Separated (d :: ds)) : Separated ds := by
  cases d with
  | char c => exact h
  | int =>
    cases ds with
    | nil => trivial
    | cons d ds =>
      cases d with
      | int => exact h.elim
      | char c => exact h.2

/-- **What is printed is read back.** -/
theorem scan_print (h : Separated ds) (hargs : args.length = ds.count .int)
    (hint : ∀ n ∈ args, IsInt n) (hrest : NoDigit rest) :
    scan ds (print ds args ++ rest) = args := by
  induction ds generalizing args with
  | nil =>
    rw [List.count_nil, List.length_eq_zero_iff] at hargs
    rw [hargs, scan]
  | cons d ds ih =>
    cases d with
    | int =>
      rw [List.count_cons_self] at hargs
      obtain ⟨n, args, rfl⟩ := List.exists_cons_of_length_eq_add_one hargs
      have hlength : args.length = ds.count .int := Nat.succ.inj hargs
      rw [print, List.append_assoc, scan_int_decimal (hint n List.mem_cons_self)
        (noDigit_print h hrest), ih h.tail hlength fun m hm ↦ hint m (List.mem_cons_of_mem n hm)]
    | char c =>
      have hlength : args.length = ds.count .int := by
        rwa [List.count_cons_of_ne (by simp)] at hargs
      have hread := ih h.tail hlength hint
      rw [print, List.cons_append]
      cases hc : isSpace c with
      | true =>
        rw [scan_char_of_isSpace hc, List.dropWhile_cons_of_pos hc, scan_dropWhile, hread]
      | false => rw [scan_char_of_not_isSpace hc, hread]

example : scan (directives "a%d %d".toList) "a -12\n\t7b".toList = [-12, 7] := by decide

end Text
