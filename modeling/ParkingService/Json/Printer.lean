import ParkingService.Json.Parser
import ParkingService.Text.Scan

/-!
# Writing JSON

Writers of JSON differ in the white space between the tokens; a `Layout` says how much of it there
is, by the depth of the container, and carries with it that it is white space. Strings are written
in ASCII: all other code points as escaped UTF-16 units, and so are lone surrogates.

What is written is read back (`parse_print`), by every dialect whose bounds the value stays within.
The condition on strings is not an idle one: a reader joins an escaped pair of surrogates to one
code point, so a string that holds the two one after the other comes back as another one.

A number ends where no more of it follows. So what comes behind a value matters (`Ends`), and the
proof is an induction on the value in which the rest of the text is universally quantified.
-/

namespace Json

/-! ## Writing -/

/-- The white space in a container that is nested so deeply, and after the colon of a member. -/
structure Layout where
  /-- before the first item -/
  first : ℕ → List Char
  /-- before the other items -/
  next : ℕ → List Char
  /-- after the last item -/
  last : ℕ → List Char
  colon : List Char
  isSpace_first : ∀ d, ∀ c ∈ first d, isSpace c
  isSpace_next : ∀ d, ∀ c ∈ next d, isSpace c
  isSpace_last : ∀ d, ∀ c ∈ last d, isSpace c
  isSpace_colon : ∀ c ∈ colon, isSpace c

/-- No white space at all. -/
def Layout.compact : Layout where
  first _ := []
  next _ := []
  last _ := []
  colon := []
  isSpace_first _ _ h := absurd h List.not_mem_nil
  isSpace_next _ _ h := absurd h List.not_mem_nil
  isSpace_last _ _ h := absurd h List.not_mem_nil
  isSpace_colon _ h := absurd h List.not_mem_nil

/-- A blank after each comma and each colon. -/
def Layout.spaced : Layout where
  first _ := []
  next _ := [' ']
  last _ := []
  colon := [' ']
  isSpace_first _ _ h := absurd h List.not_mem_nil
  isSpace_next _ _ h := List.mem_singleton.mp h ▸ rfl
  isSpace_last _ _ h := absurd h List.not_mem_nil
  isSpace_colon _ h := List.mem_singleton.mp h ▸ rfl

/-- The UTF-16 units of a code point. -/
def codeUnits (u : ℕ) : List ℕ :=
  if u < 0x10000 then [u]
  else [0xD800 + (u - 0x10000) / 0x400, 0xDC00 + (u - 0x10000) % 0x400]

/-- A UTF-16 unit in four hexadecimal digits. -/
def hexEscape (u : ℕ) : List Char :=
  ['\\', 'u', (u / 0x1000 % 16).digitChar, (u / 0x100 % 16).digitChar, (u / 0x10 % 16).digitChar,
    (u % 16).digitChar]

/-- The letter that stands for a character after a backslash. -/
def shortEscape : ℕ → Option Char
  | 34 => some '"'
  | 92 => some '\\'
  | 8 => some 'b'
  | 12 => some 'f'
  | 10 => some 'n'
  | 13 => some 'r'
  | 9 => some 't'
  | _ => none

def quoteChar (u : ℕ) : List Char :=
  match shortEscape u with
  | some c => ['\\', c]
  | none => if 32 ≤ u ∧ u < 127 then [Char.ofNat u] else (codeUnits u).flatMap hexEscape

/-- A string with its closing quote. -/
def quoteRest (s : Str) : List Char := s.flatMap quoteChar ++ ['"']

def quote (s : Str) : List Char := '"' :: quoteRest s

def Constant.word : Constant → List Char
  | .nan => "NaN".toList
  | .infinity => "Infinity".toList
  | .negInfinity => "-Infinity".toList

mutual

/-- A value inside so many others. -/
def print (L : Layout) (depth : ℕ) : Value → List Char
  | .null => "null".toList
  | .bool true => "true".toList
  | .bool false => "false".toList
  | .int n => Text.decimal n
  | .decimal m e => Text.decimal m ++ 'e' :: Text.decimal e
  | .constant c => c.word
  | .str s => quote s
  | .arr [] => ['[', ']']
  | .arr (x :: xs) =>
    '[' :: (L.first depth ++ (print L (depth + 1) x ++ (printItems L depth xs ++ [']'])))
  | .obj [] => ['\x7b', '\x7d']
  | .obj ((name, x) :: ms) =>
    '\x7b' :: (L.first depth ++ (quote name ++ ':' :: (L.colon ++ (print L (depth + 1) x
      ++ (printMembers L depth ms ++ ['\x7d'])))))

/-- The items behind the first one, up to the closing bracket. -/
def printItems (L : Layout) (depth : ℕ) : List Value → List Char
  | [] => L.last depth
  | x :: xs => ',' :: (L.next depth ++ (print L (depth + 1) x ++ printItems L depth xs))

/-- The members behind the first one, up to the closing brace. -/
def printMembers (L : Layout) (depth : ℕ) : List (Str × Value) → List Char
  | [] => L.last depth
  | (name, x) :: ms =>
    ',' :: (L.next depth ++ (quote name ++ ':' :: (L.colon ++ (print L (depth + 1) x
      ++ printMembers L depth ms))))

end

/-! ## What comes back -/

/-- Code points, and no pair of surrogates among them. -/
def Str.Stable : Str → Prop
  | h :: l :: s => h < 0x110000 ∧ ¬(isHigh h ∧ isLow l) ∧ Str.Stable (l :: s)
  | [u] => u < 0x110000
  | [] => True

/-- The digits of an integer. -/
def Dialect.Admits (D : Dialect) (n : ℤ) : Prop := D.refuses (Nat.toDigits 10 n.natAbs) = false

mutual

/-- The value stays within the bounds of a dialect. -/
def Fits (D : Dialect) (depth : ℕ) : Value → Prop
  | .null | .bool _ | .decimal _ _ => True
  | .int n => D.Admits n
  | .constant _ => D.constants
  | .str s => s.Stable
  | .arr xs => D.tooDeep depth = false ∧ FitItems D (depth + 1) xs
  | .obj ms => D.tooDeep depth = false ∧ FitMembers D (depth + 1) ms

def FitItems (D : Dialect) (depth : ℕ) : List Value → Prop
  | [] => True
  | x :: xs => Fits D depth x ∧ FitItems D depth xs

def FitMembers (D : Dialect) (depth : ℕ) : List (Str × Value) → Prop
  | [] => True
  | (name, x) :: ms => name.Stable ∧ Fits D depth x ∧ FitMembers D depth ms

end

/-- No number goes on here. -/
def Ends (cs : List Char) : Prop :=
  ∀ c ∈ cs.head?, c.isDigit = false ∧ c ≠ '.' ∧ c ≠ 'e' ∧ c ≠ 'E'

/-! ## White space -/

theorem skip_append {w : List Char} (hw : ∀ c ∈ w, isSpace c) (cs : List Char) :
    skip (w ++ cs) = skip cs :=
  List.dropWhile_append_of_pos hw

theorem skip_cons {c : Char} (hc : isSpace c = false) (cs : List Char) :
    skip (c :: cs) = c :: cs :=
  List.dropWhile_cons_of_neg (by simp [hc])

theorem ends_cons {c : Char} (hc : isSpace c ∨ c = ',' ∨ c = ']' ∨ c = '\x7d') (cs : List Char) :
    Ends (c :: cs) := by
  rintro c' hc'
  obtain rfl : c = c' := Option.some.inj hc'
  rcases hc with hc | rfl | rfl | rfl
  · simp only [isSpace, Bool.or_eq_true, decide_eq_true_eq] at hc
    rcases hc with ((rfl | rfl) | rfl) | rfl <;> decide
  all_goals decide

theorem ends_append {w : List Char} (hw : ∀ c ∈ w, isSpace c) {cs : List Char} (h : Ends cs) :
    Ends (w ++ cs) := by
  cases w with
  | nil => exact h
  | cons c w => exact ends_cons (.inl (hw c List.mem_cons_self)) _

theorem ends_printItems (L : Layout) (depth : ℕ) (xs : List Value) (cs : List Char) :
    Ends (printItems L depth xs ++ ']' :: cs) := by
  cases xs with
  | nil =>
    rw [printItems]
    exact ends_append (L.isSpace_last depth) (ends_cons (.inr (.inr (.inl rfl))) _)
  | cons x xs =>
    rw [printItems]
    exact ends_cons (.inr (.inl rfl)) _

theorem ends_printMembers (L : Layout) (depth : ℕ) (ms : List (Str × Value)) (cs : List Char) :
    Ends (printMembers L depth ms ++ '\x7d' :: cs) := by
  cases ms with
  | nil =>
    rw [printMembers]
    exact ends_append (L.isSpace_last depth) (ends_cons (.inr (.inr (.inr rfl))) _)
  | cons m ms =>
    obtain ⟨name, x⟩ := m
    rw [printMembers]
    exact ends_cons (.inr (.inl rfl)) _

/-! ## Strings -/

theorem hexDigit_digitChar {k : ℕ} (h : k < 16) : hexDigit k.digitChar = some k := by
  have hall : ∀ k : Fin 16, hexDigit (k : ℕ).digitChar = some k := by decide
  exact hall ⟨k, h⟩

theorem units_hexEscape {u : ℕ} (h : u < 0x10000) (cs : List Char) :
    units (hexEscape u ++ cs) = (units cs).map (u :: ·) := by
  have hmod (k : ℕ) : hexDigit (k % 16).digitChar = some (k % 16) :=
    hexDigit_digitChar (Nat.mod_lt _ (by decide))
  have hvalue : ((u / 0x1000 % 16 * 16 + u / 0x100 % 16) * 16 + u / 0x10 % 16) * 16 + u % 16 = u :=
    by omega
  have hhex : hex4 (u / 0x1000 % 16).digitChar (u / 0x100 % 16).digitChar
      (u / 0x10 % 16).digitChar (u % 16).digitChar = some u := by
    simp only [hex4, hmod, Option.pure_def, Option.bind_eq_bind, Option.bind_some, hvalue]
  rw [hexEscape, List.cons_append, List.cons_append, List.cons_append, List.cons_append,
    List.cons_append, List.cons_append, List.nil_append, units, hhex]

theorem Step.map_map {α β γ : Type} (x : Step α) (f : α → β) (g : β → γ) :
    (x.map f).map g = x.map fun a ↦ g (f a) := by
  cases x <;> rfl

theorem units_codeUnits {u : ℕ} (h : u < 0x110000) (cs : List Char) :
    units ((codeUnits u).flatMap hexEscape ++ cs) = (units cs).map (codeUnits u ++ ·) := by
  unfold codeUnits
  split
  · rename_i hu
    rw [List.flatMap_singleton, units_hexEscape hu]
    rfl
  · rw [List.flatMap_cons, List.flatMap_singleton, List.append_assoc, units_hexEscape (by omega),
      units_hexEscape (by omega), Step.map_map]
    rfl

theorem units_of_shortEscape {u : ℕ} {c : Char} (h : shortEscape u = some c) (cs : List Char) :
    units ('\\' :: c :: cs) = (units cs).map (u :: ·) := by
  unfold shortEscape at h
  split at h
  case h_8 => cases h
  all_goals
    obtain rfl := Option.some.inj h
    rw [units]
    · rfl
    · simp

theorem shortEscape_of_lt {u : ℕ} {c : Char} (h : shortEscape u = some c) : u < 0x10000 := by
  unfold shortEscape at h
  split at h
  case h_8 => cases h
  all_goals decide

theorem toNat_ofNat_of_lt {u : ℕ} (h : u < 127) : (Char.ofNat u).toNat = u := by
  have hall : ∀ k : Fin 127, (Char.ofNat k).toNat = k := by decide
  exact hall ⟨u, h⟩

theorem units_quoteChar {u : ℕ} (h : u < 0x110000) (cs : List Char) :
    units (quoteChar u ++ cs) = (units cs).map (codeUnits u ++ ·) := by
  unfold quoteChar
  split
  · rename_i c hc
    rw [codeUnits, if_pos (shortEscape_of_lt hc)]
    exact units_of_shortEscape hc cs
  · rename_i hnone
    split
    · rename_i hu
      -- a printable character is neither a quote nor a backslash
      have hnat : (Char.ofNat u).toNat = u := toNat_ofNat_of_lt hu.2
      have hne {c : Char} (hc : (shortEscape c.toNat).isSome) : Char.ofNat u ≠ c := by
        rintro rfl
        rw [hnat, hnone] at hc
        cases hc
      rw [codeUnits, if_pos (by omega), List.cons_append, List.nil_append, units]
      · rw [hnat, if_neg (by omega)]
        rfl
      · exact hne (by decide)
      · exact fun _ _ _ _ _ hc _ ↦ hne (by decide) hc
      · exact fun _ _ hc _ ↦ hne (by decide) hc
    · exact units_codeUnits h cs

theorem Str.Stable.tail {u : ℕ} {s : Str} (h : Stable (u :: s)) : s.Stable := by
  cases s with
  | nil => trivial
  | cons l s => exact h.2.2

theorem Str.Stable.head {u : ℕ} {s : Str} (h : Stable (u :: s)) : u < 0x110000 := by
  cases s with
  | nil => exact h
  | cons l s => exact h.1

theorem units_quoteRest {s : Str} (h : s.Stable) (cs : List Char) :
    units (quoteRest s ++ cs) = .ok (s.flatMap codeUnits, cs) := by
  induction s with
  | nil => rfl
  | cons u s ih =>
    have htail := ih h.tail
    rw [quoteRest] at htail ⊢
    rw [List.flatMap_cons, List.append_assoc, List.append_assoc, units_quoteChar h.head,
      ← List.append_assoc, htail]
    rfl

theorem join_cons {u : ℕ} {s : Str} (h : isHigh u = false ∨ ∀ l ∈ s.head?, isLow l = false) :
    join (u :: s) = u :: join s := by
  cases s with
  | nil => rfl
  | cons l s =>
    have hno : (isHigh u && isLow l) = false := by
      rcases h with h | h
      · rw [h, Bool.false_and]
      · rw [h l rfl, Bool.and_false]
    rw [join, hno]
    rfl

theorem head_codeUnits {l : ℕ} {s : Str} (h : l < 0x110000) (hl : isLow l = false) :
    ∀ v ∈ (codeUnits l ++ s).head?, isLow v = false := by
  intro v hv
  unfold codeUnits at hv
  split at hv
  · obtain rfl : l = v := Option.some.inj hv
    exact hl
  · obtain rfl : 0xD800 + (l - 0x10000) / 0x400 = v := Option.some.inj hv
    simp only [isLow, Bool.and_eq_false_imp, decide_eq_true_eq, decide_eq_false_iff_not]
    omega

theorem join_codeUnits {u : ℕ} {s : Str} (hu : u < 0x110000)
    (h : isHigh u = false ∨ ∀ l ∈ s.head?, isLow l = false) :
    join (codeUnits u ++ s) = u :: join s := by
  unfold codeUnits
  split
  · exact join_cons h
  · have hpair : (isHigh (0xD800 + (u - 0x10000) / 0x400)
        && isLow (0xDC00 + (u - 0x10000) % 0x400)) = true := by
      simp only [isHigh, isLow, Bool.and_eq_true, decide_eq_true_eq]
      omega
    have hvalue : 0x10000 + (0xD800 + (u - 0x10000) / 0x400 - 0xD800) * 0x400
        + (0xDC00 + (u - 0x10000) % 0x400 - 0xDC00) = u := by omega
    rw [List.cons_append, List.cons_append, List.nil_append, join, hpair, if_pos rfl, hvalue]

/-- The units of a string are joined to it again. -/
theorem join_flatMap_codeUnits {s : Str} (h : s.Stable) : join (s.flatMap codeUnits) = s := by
  induction s with
  | nil => rfl
  | cons u s ih =>
    rw [List.flatMap_cons, join_codeUnits h.head ?_, ih h.tail]
    cases s with
    | nil => exact .inr fun l hl ↦ by cases hl
    | cons l s =>
      by_cases hu : isHigh u = true
      · refine .inr ?_
        rw [List.flatMap_cons]
        refine head_codeUnits h.tail.head ?_
        exact Bool.eq_false_iff.mpr fun hl ↦ h.2.1 ⟨hu, hl⟩
      · exact .inl (Bool.eq_false_iff.mpr hu)

/-- **A string is read back.** -/
theorem string_quoteRest {s : Str} (h : s.Stable) (cs : List Char) :
    string (quoteRest s ++ cs) = .ok (s, cs) := by
  rw [string, units_quoteRest h]
  show Except.ok (join (s.flatMap codeUnits), cs) = .ok (s, cs)
  rw [join_flatMap_codeUnits h]

/-- The code points of a text are stable. -/
theorem Str.stable_of (s : String) : (Str.of s).Stable := by
  unfold Str.of
  induction s.toList with
  | nil => trivial
  | cons c cs ih =>
    have hc (c : Char) : c.toNat < 0x110000 ∧ isHigh c.toNat = false := by
      have hvalid := c.valid
      simp only [isHigh, Bool.and_eq_false_imp, decide_eq_true_eq, decide_eq_false_iff_not]
      rcases hvalid with h | h
      · have : c.toNat < 0xd800 := h
        omega
      · have : 0xdfff < c.toNat ∧ c.toNat < 0x110000 := h
        omega
    cases cs with
    | nil => exact (hc c).1
    | cons c' cs => exact ⟨(hc c).1, fun h ↦ by simp [(hc c).2] at h, ih⟩

/-! ## Numbers -/

section Numbers

variable {D : Dialect} {cs : List Char}

theorem Ends.noDigit (h : Ends cs) : Text.NoDigit cs := fun c hc ↦ (h c hc).1

theorem Ends.fraction (h : Ends cs) : fraction cs = ([], cs) := by
  unfold Json.fraction
  split
  · exact absurd rfl (h '.' rfl).2.1
  · rfl

theorem Ends.exponent (h : Ends cs) : exponent cs = (none, cs) := by
  unfold Json.exponent
  split
  · rename_i e cs
    obtain ⟨-, -, he, hE⟩ := h e rfl
    exact if_neg (not_or.mpr ⟨he, hE⟩)
  · rfl

theorem natOf_toDigits (n : ℕ) : natOf (Nat.toDigits 10 n) = n :=
  Nat.ofDigitChars_eq_foldl.symm.trans Nat.ofDigitChars_ten_toDigits

theorem digits_toDigits (n : ℕ) (h : Text.NoDigit cs) :
    digits? (Nat.toDigits 10 n ++ cs) = some (Nat.toDigits 10 n, cs) := by
  have hdigits : ∀ c ∈ Nat.toDigits 10 n, c.isDigit := fun c hc ↦
    Nat.isDigit_of_mem_toDigits (by decide) (by decide) hc
  obtain ⟨d, ds, hds⟩ := List.exists_cons_of_ne_nil (Nat.toDigits_ne_nil (n := n) (b := 10))
  rw [digits?, List.takeWhile_append_of_pos hdigits, List.dropWhile_append_of_pos hdigits,
    Text.takeWhile_isDigit h, Text.dropWhile_isDigit h, List.append_nil, hds]

/-- The first digit is no zero. -/
theorem head_toDigits {n : ℕ} (hn : n ≠ 0) : ∀ c ∈ (Nat.toDigits 10 n).head?, c ≠ '0' := by
  induction n using Nat.strong_induction_on with
  | h n ih =>
    rcases Nat.lt_or_ge n 10 with hlt | hge
    · rw [Nat.toDigits_of_lt_base hlt]
      have hall : ∀ k : Fin 10, (k : ℕ) ≠ 0 → (k : ℕ).digitChar ≠ '0' := by decide
      rintro c hc
      obtain rfl : n.digitChar = c := Option.some.inj hc
      exact hall ⟨n, hlt⟩ hn
    · obtain ⟨d, ds, hds⟩ :=
        List.exists_cons_of_ne_nil (Nat.toDigits_ne_nil (n := n / 10) (b := 10))
      have hhead := ih (n / 10) (by omega) (by omega)
      rw [Nat.toDigits_of_base_le (by decide) hge, hds]
      rw [hds] at hhead
      exact hhead

theorem integer_toDigits (n : ℕ) (h : Text.NoDigit cs) :
    integer? (Nat.toDigits 10 n ++ cs) = some (Nat.toDigits 10 n, cs) := by
  by_cases hn : n = 0
  · subst hn
    rfl
  · have hdigits := digits_toDigits n h
    have hhead := head_toDigits hn
    obtain ⟨d, ds, hds⟩ := List.exists_cons_of_ne_nil (Nat.toDigits_ne_nil (n := n) (b := 10))
    rw [hds] at hdigits hhead ⊢
    rw [List.cons_append] at hdigits ⊢
    rw [← hdigits, integer?]
    exact fun _ hd ↦ hhead d rfl (List.cons.inj hd).1

theorem unsigned_toDigits {n : ℕ} {sign : ℤ} (h : Ends cs)
    (hD : D.refuses (Nat.toDigits 10 n) = false) :
    unsigned D sign (Nat.toDigits 10 n ++ cs) = .ok (.int (sign * n), cs) := by
  simp [unsigned, integer_toDigits n h.noDigit, h.fraction, h.exponent, hD, natOf_toDigits]

theorem head_ne {c c' : Char} (hc : c.isDigit = true) (hc' : c'.isDigit = false) : c ≠ c' := by
  rintro rfl
  rw [hc] at hc'
  cases hc'

theorem signed_decimal (e : ℤ) (h : Ends cs) : signed? (Text.decimal e ++ cs) = some (e, cs) := by
  rcases Int.lt_or_le e 0 with he | he
  · have hvalue : -((-e).toNat : ℤ) = e := by omega
    rw [Text.decimal_of_neg he, List.cons_append, signed?, digits_toDigits _ h.noDigit,
      Option.map_some]
    show some (-(natOf (Nat.toDigits 10 (-e).toNat) : ℤ), cs) = some (e, cs)
    rw [natOf_toDigits, hvalue]
  · have hvalue : (e.toNat : ℤ) = e := by omega
    obtain ⟨c, ds, hds, hc⟩ := Text.exists_toDigits e.toNat
    have hdigits := digits_toDigits e.toNat h.noDigit
    have hnat := natOf_toDigits e.toNat
    rw [Text.decimal_of_nonneg he]
    rw [hds] at hdigits hnat ⊢
    rw [List.cons_append] at hdigits ⊢
    rw [signed?, hdigits, Option.map_some]
    · show some ((natOf (c :: ds) : ℤ), cs) = some (e, cs)
      rw [hnat, hvalue]
    · exact fun _ heq ↦ head_ne hc rfl (List.cons.inj heq).1
    · exact fun _ heq ↦ head_ne hc rfl (List.cons.inj heq).1

theorem unsigned_exponent (n : ℕ) (sign e : ℤ) (h : Ends cs) :
    unsigned D sign (Nat.toDigits 10 n ++ 'e' :: (Text.decimal e ++ cs)) =
      .ok (.decimal (sign * n) e, cs) := by
  have hint : integer? (Nat.toDigits 10 n ++ 'e' :: (Text.decimal e ++ cs)) =
      some (Nat.toDigits 10 n, 'e' :: (Text.decimal e ++ cs)) :=
    integer_toDigits n fun c hc ↦ by
      obtain rfl : 'e' = c := Option.some.inj hc
      rfl
  have hexp : exponent ('e' :: (Text.decimal e ++ cs)) = (some e, cs) := by
    simp [exponent, signed_decimal e h]
  have hfrac : fraction ('e' :: (Text.decimal e ++ cs)) = ([], 'e' :: (Text.decimal e ++ cs)) := by
    simp [fraction]
  simp [unsigned, hint, hfrac, hexp, natOf_toDigits]

theorem number_of_isDigit {c : Char} (hc : c.isDigit = true) :
    number D (c :: cs) = unsigned D 1 (c :: cs) := by
  rw [number]
  exact fun _ heq ↦ head_ne hc rfl (List.cons.inj heq).1

/-- A number is read by what comes after its sign. -/
theorem number_decimal_append (n : ℤ) (cs : List Char) :
    number D (Text.decimal n ++ cs) =
      unsigned D (if n < 0 then -1 else 1) (Nat.toDigits 10 n.natAbs ++ cs) := by
  rcases Int.lt_or_le n 0 with hn | hn
  · have habs : (-n).toNat = n.natAbs := by omega
    rw [Text.decimal_of_neg hn, if_pos hn, habs, List.cons_append, number]
  · have habs : n.toNat = n.natAbs := by omega
    obtain ⟨c, ds, hds, hc⟩ := Text.exists_toDigits n.natAbs
    rw [Text.decimal_of_nonneg hn, if_neg (by omega), habs, hds, List.cons_append,
      number_of_isDigit hc]

theorem sign_mul_natAbs (n : ℤ) : (if n < 0 then -1 else 1) * (n.natAbs : ℤ) = n := by
  split <;> omega

/-- **An integer is read back.** -/
theorem number_decimal {n : ℤ} (h : Ends cs) (hD : D.Admits n) :
    number D (Text.decimal n ++ cs) = .ok (.int n, cs) := by
  rw [number_decimal_append, unsigned_toDigits h hD, sign_mul_natAbs]

theorem number_exponent (m e : ℤ) (h : Ends cs) :
    number D (Text.decimal m ++ 'e' :: (Text.decimal e ++ cs)) = .ok (.decimal m e, cs) := by
  rw [number_decimal_append, unsigned_exponent m.natAbs _ e h, sign_mul_natAbs]

/-- How a number begins. -/
theorem decimal_head (n : ℤ) : ∃ c cs, Text.decimal n = c :: cs ∧
    (c.isDigit = true ∨ c = '-' ∧ ∃ d ds, cs = d :: ds ∧ d.isDigit = true) := by
  rcases Int.lt_or_le n 0 with hn | hn
  · exact ⟨_, _, Text.decimal_of_neg hn, .inr ⟨rfl, Text.exists_toDigits _⟩⟩
  · obtain ⟨c, ds, hds, hc⟩ := Text.exists_toDigits n.toNat
    exact ⟨c, ds, (Text.decimal_of_nonneg hn).trans hds, .inl hc⟩

theorem value_decimal_append (n : ℤ) (fuel depth : ℕ) (cs : List Char) :
    value D (fuel + 1) depth (Text.decimal n ++ cs) = number D (Text.decimal n ++ cs) := by
  obtain ⟨c, ds, hds, hc⟩ := decimal_head n
  rw [hds, List.cons_append]
  unfold value
  -- no literal begins like a number
  split
  case h_10 => rfl
  all_goals
    rename_i heq
    obtain ⟨rfl, htail⟩ := List.cons.inj heq
    rcases hc with hc | ⟨hc, d, ds', rfl, hd⟩
    · cases hc
  case h_9 =>
    rw [List.cons_append] at htail
    rw [(List.cons.inj htail).1] at hd
    cases hd
  all_goals exact absurd hc (by decide)

end Numbers

/-! ## Values -/

section Values

variable {D : Dialect} {L : Layout} {depth : ℕ} {rest : List Char}

theorem fitItems_iff {xs : List Value} : FitItems D depth xs ↔ ∀ x ∈ xs, Fits D depth x := by
  induction xs with
  | nil => simp [FitItems]
  | cons x xs ih => rw [FitItems, ih, List.forall_mem_cons]

theorem fitMembers_iff {ms : List (Str × Value)} :
    FitMembers D depth ms ↔ ∀ m ∈ ms, m.1.Stable ∧ Fits D depth m.2 := by
  induction ms with
  | nil => simp [FitMembers]
  | cons m ms ih => rw [FitMembers, ih, List.forall_mem_cons, and_assoc]

theorem Constant.word_head (c : Constant) :
    ∃ c' cs, c.word = c' :: cs ∧ isSpace c' = false ∧ c' ≠ ']' := by
  cases c <;> exact ⟨_, _, rfl, by decide, by decide⟩

theorem decimal_head_ne (n : ℤ) (cs : List Char) :
    ∃ c cs', Text.decimal n ++ cs = c :: cs' ∧ isSpace c = false ∧ c ≠ ']' := by
  obtain ⟨c, ds, hds, hc⟩ := decimal_head n
  refine ⟨c, ds ++ cs, by rw [hds, List.cons_append], ?_⟩
  rcases hc with hc | ⟨rfl, -⟩
  · have hne {c' : Char} (h : c'.isDigit = false) : c ≠ c' := head_ne hc h
    refine ⟨?_, hne rfl⟩
    simp [isSpace, hne (show ' '.isDigit = false from rfl),
      hne (show '\t'.isDigit = false from rfl), hne (show '\n'.isDigit = false from rfl),
      hne (show '\r'.isDigit = false from rfl)]
  · exact ⟨rfl, by decide⟩

/-- A value begins with neither white space nor a closing bracket. -/
theorem print_head (L : Layout) (depth : ℕ) (v : Value) :
    ∃ c cs, print L depth v = c :: cs ∧ isSpace c = false ∧ c ≠ ']' := by
  match v with
  | .null | .bool true | .bool false | .str _ | .arr [] | .arr (_ :: _) | .obj [] | .obj (_ :: _) =>
    rw [print]
    exact ⟨_, _, rfl, by decide, by decide⟩
  | .int n =>
    rw [print, ← List.append_nil (Text.decimal n)]
    exact decimal_head_ne n _
  | .decimal m e =>
    rw [print]
    exact decimal_head_ne m _
  | .constant c =>
    rw [print]
    exact c.word_head

theorem skip_print (L : Layout) (depth : ℕ) (v : Value) (rest : List Char) :
    skip (print L depth v ++ rest) = print L depth v ++ rest := by
  obtain ⟨c, cs, hprint, hc, -⟩ := print_head L depth v
  rw [hprint, List.cons_append, skip_cons hc]

/-- Items are read back, if each of them is. -/
theorem items_printItems (rest : List Char) {n k : ℕ} {x : Value} {xs : List Value}
    (hitem : ∀ y ∈ x :: xs, ∀ cs, Ends cs →
      value D n (depth + 1) (print L (depth + 1) y ++ cs) = .ok (y, cs))
    (hk : xs.length < k) :
    items ']' (value D n (depth + 1)) k
      (print L (depth + 1) x ++ (printItems L depth xs ++ ']' :: rest)) = .ok (x :: xs, rest) := by
  induction xs generalizing x k with
  | nil =>
    obtain ⟨k, rfl⟩ := Nat.exists_eq_succ_of_ne_zero (Nat.ne_of_gt hk)
    rw [items, hitem x List.mem_cons_self _ (ends_printItems L depth [] rest)]
    simp only [Step.andThen, printItems, skip_append (L.isSpace_last depth),
      skip_cons (show isSpace ']' = false from rfl)]
    rw [if_neg (by decide), if_pos trivial]
  | cons y ys ih =>
    obtain ⟨k, rfl⟩ := Nat.exists_eq_succ_of_ne_zero (Nat.ne_of_gt (Nat.zero_lt_of_lt hk))
    have hrest := ih (x := y) (k := k) (fun z hz ↦ hitem z (List.mem_cons_of_mem _ hz))
      (Nat.lt_of_succ_lt_succ hk)
    rw [items, hitem x List.mem_cons_self _ (ends_printItems L depth (y :: ys) rest)]
    simp only [Step.andThen, printItems, List.cons_append, List.append_assoc,
      skip_cons (show isSpace ',' = false from rfl)]
    rw [if_pos trivial, skip_append (L.isSpace_next depth), skip_print, hrest]
    rfl

/-- A member is read back, if its value is. -/
theorem member_print {n : ℕ} {name : Str} {x : Value} (hname : name.Stable)
    (hx : value D n (depth + 1) (print L (depth + 1) x ++ rest) = .ok (x, rest)) :
    member (value D n (depth + 1))
      (quote name ++ ':' :: (L.colon ++ (print L (depth + 1) x ++ rest))) =
      .ok ((name, x), rest) := by
  rw [quote, List.cons_append, member, string_quoteRest hname]
  simp only [Step.andThen, skip_cons (show isSpace ':' = false from rfl),
    skip_append L.isSpace_colon, skip_print, hx]
  rfl

/-- Members are read back, if their values are. -/
theorem items_printMembers (rest : List Char) {n k : ℕ} {name : Str} {x : Value}
    {ms : List (Str × Value)}
    (hitem : ∀ m ∈ (name, x) :: ms, m.1.Stable ∧ ∀ cs, Ends cs →
      value D n (depth + 1) (print L (depth + 1) m.2 ++ cs) = .ok (m.2, cs))
    (hk : ms.length < k) :
    items '\x7d' (member (value D n (depth + 1))) k
      (quote name ++ ':' :: (L.colon ++ (print L (depth + 1) x
        ++ (printMembers L depth ms ++ '\x7d' :: rest)))) = .ok ((name, x) :: ms, rest) := by
  induction ms generalizing name x k with
  | nil =>
    obtain ⟨k, rfl⟩ := Nat.exists_eq_succ_of_ne_zero (Nat.ne_of_gt hk)
    obtain ⟨hname, hx⟩ := hitem _ List.mem_cons_self
    rw [items, member_print hname (hx _ (ends_printMembers L depth [] rest))]
    simp only [Step.andThen, printMembers, skip_append (L.isSpace_last depth),
      skip_cons (show isSpace '\x7d' = false from rfl)]
    rw [if_neg (by decide), if_pos trivial]
  | cons m ms ih =>
    obtain ⟨name', y⟩ := m
    obtain ⟨k, rfl⟩ := Nat.exists_eq_succ_of_ne_zero (Nat.ne_of_gt (Nat.zero_lt_of_lt hk))
    obtain ⟨hname, hx⟩ := hitem _ List.mem_cons_self
    have hrest := ih (x := y) (k := k)
      (fun z hz ↦ hitem z (List.mem_cons_of_mem _ hz)) (Nat.lt_of_succ_lt_succ hk)
    rw [items, member_print hname (hx _ (ends_printMembers L depth ((name', y) :: ms) rest))]
    simp only [Step.andThen, printMembers, List.cons_append, List.append_assoc,
      skip_cons (show isSpace ',' = false from rfl)]
    rw [if_pos trivial, skip_append (L.isSpace_next depth), quote, List.cons_append,
      skip_cons (by decide), ← List.cons_append, ← quote, hrest]
    rfl

theorem length_printItems (L : Layout) (depth : ℕ) (xs : List Value) :
    xs.length ≤ (printItems L depth xs).length := by
  induction xs with
  | nil => exact Nat.zero_le _
  | cons x xs ih =>
    simp only [printItems, List.length_cons, List.length_append]
    omega

theorem length_printMembers (L : Layout) (depth : ℕ) (ms : List (Str × Value)) :
    ms.length ≤ (printMembers L depth ms).length := by
  induction ms with
  | nil => exact Nat.zero_le _
  | cons m ms ih =>
    simp only [printMembers, List.length_cons, List.length_append]
    omega

theorem length_of_mem_items (L : Layout) (depth : ℕ) {y : Value} {xs : List Value} (h : y ∈ xs) :
    (print L (depth + 1) y).length ≤ (printItems L depth xs).length := by
  induction xs with
  | nil => cases h
  | cons x xs ih =>
    simp only [printItems, List.length_cons, List.length_append]
    rcases List.mem_cons.mp h with rfl | h
    · omega
    · have := ih h
      omega

theorem length_of_mem_members (L : Layout) (depth : ℕ) {m : Str × Value} {ms : List (Str × Value)}
    (h : m ∈ ms) :
    (print L (depth + 1) m.2).length ≤ (printMembers L depth ms).length := by
  induction ms with
  | nil => cases h
  | cons m' ms ih =>
    simp only [printMembers, List.length_cons, List.length_append]
    rcases List.mem_cons.mp h with rfl | h
    · omega
    · have := ih h
      omega

theorem value_items {n : ℕ} {x : Value} {xs : List Value} (hdepth : D.tooDeep depth = false)
    (hitem : ∀ y ∈ x :: xs, ∀ cs, Ends cs →
      value D n (depth + 1) (print L (depth + 1) y ++ cs) = .ok (y, cs)) :
    value D (n + 1) depth (print L depth (.arr (x :: xs)) ++ rest) =
      .ok (.arr (x :: xs), rest) := by
  have hlength := length_printItems L depth xs
  have hitems := items_printItems (L := L) rest (k := (print L (depth + 1) x ++
    (printItems L depth xs ++ ']' :: rest)).length + 1) hitem (by
      simp only [List.length_append]
      omega)
  obtain ⟨c, cs, hprint, -, hne⟩ := print_head L (depth + 1) x
  rw [print]
  simp only [List.cons_append, List.append_assoc, List.nil_append]
  rw [value, hdepth, skip_append (L.isSpace_first depth), skip_print]
  rw [hprint] at hitems ⊢
  rw [List.cons_append] at hitems ⊢
  simp only [Bool.false_eq_true, if_false]
  split
  · rename_i heq
    exact absurd (List.cons.inj heq).1 hne
  · rw [hitems]
    rfl

theorem value_members {n : ℕ} {m : Str × Value} {ms : List (Str × Value)}
    (hdepth : D.tooDeep depth = false)
    (hitem : ∀ m' ∈ m :: ms, m'.1.Stable ∧ ∀ cs, Ends cs →
      value D n (depth + 1) (print L (depth + 1) m'.2 ++ cs) = .ok (m'.2, cs)) :
    value D (n + 1) depth (print L depth (.obj (m :: ms)) ++ rest) =
      .ok (.obj (m :: ms), rest) := by
  obtain ⟨name, x⟩ := m
  have hlength := length_printMembers L depth ms
  have hitems := items_printMembers (L := L) rest (k := (quote name ++ ':' :: (L.colon ++
    (print L (depth + 1) x ++ (printMembers L depth ms ++ '\x7d' :: rest)))).length + 1) hitem (by
      simp only [List.length_append, List.length_cons]
      omega)
  rw [print]
  simp only [List.cons_append, List.append_assoc, List.nil_append]
  rw [value, hdepth, skip_append (L.isSpace_first depth)]
  rw [quote, List.cons_append] at hitems ⊢
  rw [skip_cons (by decide)]
  simp only [Bool.false_eq_true, if_false]
  split
  · rename_i heq
    exact absurd (List.cons.inj heq).1 (by decide)
  · rw [hitems]
    rfl

/-- **What is written is read back**, whatever comes behind it that is no part of a number. -/
theorem value_print {n : ℕ} {v : Value} (h : Fits D depth v) (hends : Ends rest)
    (hn : (print L depth v).length < n) :
    value D n depth (print L depth v ++ rest) = .ok (v, rest) := by
  induction n generalizing v depth rest with
  | zero => omega
  | succ n ih =>
    match v, h with
    | .null, _ | .bool true, _ | .bool false, _ =>
      rw [print]
      rfl
    | .int k, hk =>
      rw [print, value_decimal_append, number_decimal hends hk]
    | .decimal m e, _ =>
      rw [print, List.append_assoc, value_decimal_append]
      exact number_exponent m e hends
    | .constant c, hc =>
      have hword : ∀ c : Constant, value D (n + 1) depth (c.word ++ rest) = D.word c rest := by
        rintro (_ | _ | _) <;> rfl
      rw [print, hword, Dialect.word, if_pos (show D.constants = true from hc)]
    | .str s, hs =>
      rw [print, quote, List.cons_append, value, string_quoteRest hs]
      rfl
    | .arr [], ⟨hdepth, _⟩ | .obj [], ⟨hdepth, _⟩ =>
      rw [print, List.cons_append, List.cons_append, value, hdepth]
      rfl
    | .arr (x :: xs), ⟨hdepth, hxs⟩ =>
      refine value_items hdepth fun y hy cs hcs ↦ ih (fitItems_iff.mp hxs y hy) hcs ?_
      rw [print] at hn
      simp only [List.length_cons, List.length_append] at hn
      rcases List.mem_cons.mp hy with rfl | hy
      · omega
      · have := length_of_mem_items L depth hy
        omega
    | .obj (m :: ms), ⟨hdepth, hms⟩ =>
      refine value_members hdepth fun m' hm' ↦ ⟨(fitMembers_iff.mp hms m' hm').1, fun cs hcs ↦
        ih (fitMembers_iff.mp hms m' hm').2 hcs ?_⟩
      obtain ⟨name, x⟩ := m
      rw [print] at hn
      simp only [List.length_cons, List.length_append] at hn
      rcases List.mem_cons.mp hm' with rfl | hm'
      · dsimp only
        omega
      · have := length_of_mem_members L depth hm'
        omega

end Values

/-- **What is written is read back.** -/
theorem parse_print {D : Dialect} {v : Value} (L : Layout) (h : Fits D 0 v) :
    parse D (print L 0 v) = .ok v := by
  have hends : Ends [] := fun c hc ↦ by cases hc
  have hskip := skip_print L 0 v []
  have hvalue := value_print (L := L) h hends (Nat.lt_succ_self _)
  rw [List.append_nil] at hskip hvalue
  rw [parse, hskip, hvalue]
  rfl

end Json
