import Mathlib.Data.Int.Notation
import Mathlib.Data.Nat.Notation

/-!
# Reading JSON

Readers of JSON agree on the grammar and differ at its edges: some take the words `NaN`, `Infinity`
and `-Infinity` for numbers, some refuse integers with too many digits or values nested too deeply,
each with an error of its own. A `Dialect` says what a reader does there, and `parse` is the reader.

Strings are lists of code points, since a text without lone surrogates may well denote a string that
has some. Numbers with a fraction or an exponent are kept as what they say, a decimal.

The reader works with fuel, of which it never runs out (`parse_ne_fuel`), and what one dialect reads
a more permissive one reads too, as the same value (`parse_mono`). So two readers that both succeed
agree.
-/

namespace Json

/-! ## Values -/

/-- Words that some readers take for numbers. -/
inductive Constant
  | nan
  | infinity
  | negInfinity
  deriving DecidableEq

/-- A string, as its code points. -/
abbrev Str := List ℕ

/-- The members of an object are in the order of the text, repeated names included. -/
inductive Value
  | null
  | bool (b : Bool)
  | int (n : ℤ)
  /-- `mantissa * 10 ^ exponent` -/
  | decimal (mantissa exponent : ℤ)
  | constant (c : Constant)
  | str (s : Str)
  | arr (xs : List Value)
  | obj (ms : List (Str × Value))

/-- A string without lone surrogates. -/
def Str.of (s : String) : Str := s.toList.map Char.toNat

/-- The value of a member; of members of one name the last one counts. -/
def member? (ms : List (Str × Value)) (key : Str) : Option Value :=
  (ms.reverse.find? fun m ↦ m.1 = key).map Prod.snd

/-! ## Dialects -/

/-- Why a text is not read. -/
inductive Err
  /-- it is no JSON -/
  | grammar
  /-- an integer has too many digits -/
  | digits
  /-- values are nested too deeply -/
  | depth
  | fuel
  deriving DecidableEq

/-- What a reader does at the edges of the grammar. No bound is `none`. -/
structure Dialect where
  constants : Bool
  maxDigits : Option ℕ
  maxDepth : Option ℕ

/-- What a part of the reader returns: what it has read, and the rest of the text. -/
abbrev Step (α : Type) := Except Err (α × List Char)

/-- Go on with what has been read and the rest. -/
def Step.andThen {α β : Type} (x : Step α) (f : α → List Char → Step β) : Step β :=
  match x with
  | .ok (a, cs) => f a cs
  | .error e => .error e

def Step.map {α β : Type} (x : Step α) (f : α → β) : Step β :=
  x.andThen fun a cs ↦ .ok (f a, cs)

/-! ## Strings -/

def isSpace (c : Char) : Bool := c = ' ' || c = '\t' || c = '\n' || c = '\r'

def skip (cs : List Char) : List Char := cs.dropWhile isSpace

def hexDigit (c : Char) : Option ℕ :=
  if '0' ≤ c ∧ c ≤ '9' then some (c.toNat - 48)
  else if 'a' ≤ c ∧ c ≤ 'f' then some (c.toNat - 87)
  else if 'A' ≤ c ∧ c ≤ 'F' then some (c.toNat - 55)
  else none

def hex4 (a b c d : Char) : Option ℕ := do
  let a ← hexDigit a
  let b ← hexDigit b
  let c ← hexDigit c
  let d ← hexDigit d
  return ((a * 16 + b) * 16 + c) * 16 + d

/-- The character that a letter after a backslash stands for. -/
def escape : Char → Option ℕ
  | '"' => some 34
  | '\\' => some 92
  | '/' => some 47
  | 'b' => some 8
  | 'f' => some 12
  | 'n' => some 10
  | 'r' => some 13
  | 't' => some 9
  | _ => none

/-- The rest of a string, surrogates one by one. -/
def units : List Char → Step Str
  | [] => .error .grammar
  | '"' :: cs => .ok ([], cs)
  | '\\' :: 'u' :: a :: b :: c :: d :: cs =>
    match hex4 a b c d with
    | some u => (units cs).map (u :: ·)
    | none => .error .grammar
  | '\\' :: e :: cs =>
    match escape e with
    | some u => (units cs).map (u :: ·)
    | none => .error .grammar
  | c :: cs => if c.toNat < 32 then .error .grammar else (units cs).map (c.toNat :: ·)

def isHigh (u : ℕ) : Bool := 0xD800 ≤ u && u < 0xDC00

def isLow (u : ℕ) : Bool := 0xDC00 ≤ u && u < 0xE000

/-- A pair of surrogates is one code point. -/
def join : Str → Str
  | h :: l :: s =>
    if isHigh h && isLow l then (0x10000 + (h - 0xD800) * 0x400 + (l - 0xDC00)) :: join s
    else h :: join (l :: s)
  | s => s

/-- A string from after its opening quote. -/
def string (cs : List Char) : Step Str := (units cs).map join

/-! ## Numbers -/

def natOf (ds : List Char) : ℕ := ds.foldl (fun n c ↦ 10 * n + (c.toNat - 48)) 0

/-- One digit or more. -/
def digits? (cs : List Char) : Option (List Char × List Char) :=
  match cs.takeWhile Char.isDigit with
  | [] => none
  | d :: ds => some (d :: ds, cs.dropWhile Char.isDigit)

/-- A point and the digits after it, if there are any. -/
def fraction : List Char → List Char × List Char
  | '.' :: cs => (digits? cs).getD ([], '.' :: cs)
  | cs => ([], cs)

def signed? : List Char → Option (ℤ × List Char)
  | '-' :: cs => (digits? cs).map fun (ds, cs) ↦ (-(natOf ds : ℤ), cs)
  | '+' :: cs => (digits? cs).map fun (ds, cs) ↦ (natOf ds, cs)
  | cs => (digits? cs).map fun (ds, cs) ↦ (natOf ds, cs)

/-- An exponent, if there is one. -/
def exponent : List Char → Option ℤ × List Char
  | e :: cs =>
    if e = 'e' ∨ e = 'E' then
      match signed? cs with
      | some (n, cs) => (some n, cs)
      | none => (none, e :: cs)
    else (none, e :: cs)
  | [] => (none, [])

/-- The digits before the point: a zero is alone. -/
def integer? : List Char → Option (List Char × List Char)
  | '0' :: cs => some (['0'], cs)
  | cs => digits? cs

/-- Too many digits for an integer. -/
def Dialect.refuses (D : Dialect) (ds : List Char) : Bool := D.maxDigits.any (· < ds.length)

/-- A number without its sign. -/
def unsigned (D : Dialect) (sign : ℤ) (cs : List Char) : Step Value :=
  match integer? cs with
  | none => .error .grammar
  | some (ds, cs) =>
    let (fs, cs) := fraction cs
    let (e, cs) := exponent cs
    if fs = [] ∧ e = none then
      if D.refuses ds then .error .digits else .ok (.int (sign * natOf ds), cs)
    else .ok (.decimal (sign * natOf (ds ++ fs)) (e.getD 0 - fs.length), cs)

def number (D : Dialect) : List Char → Step Value
  | '-' :: cs => unsigned D (-1) cs
  | cs => unsigned D 1 cs

/-! ## Values -/

/-- One item or more, with commas between them, up to a closing character. -/
def items {α : Type} (close : Char) (item : List Char → Step α) : ℕ → List Char → Step (List α)
  | 0, _ => .error .fuel
  | n + 1, cs =>
    (item cs).andThen fun a cs ↦
      match skip cs with
      | [] => .error .grammar
      | c :: cs =>
        if c = ',' then (items close item n (skip cs)).map (a :: ·)
        else if c = close then .ok ([a], cs)
        else .error .grammar

/-- A name and its value. -/
def member (value : List Char → Step Value) : List Char → Step (Str × Value)
  | '"' :: cs =>
    (string cs).andThen fun name cs ↦
      match skip cs with
      | ':' :: cs => (value (skip cs)).map (name, ·)
      | _ => .error .grammar
  | _ => .error .grammar

/-- Values are nested too deeply. -/
def Dialect.tooDeep (D : Dialect) (depth : ℕ) : Bool := D.maxDepth.any (· ≤ depth)

/-- A word that is a number for some. -/
def Dialect.word (D : Dialect) (c : Constant) (cs : List Char) : Step Value :=
  if D.constants then .ok (.constant c, cs) else .error .grammar

/-- A value inside so many others. -/
def value (D : Dialect) : ℕ → ℕ → List Char → Step Value
  | 0, _, _ => .error .fuel
  | n + 1, depth, cs =>
    match cs with
    | '"' :: cs => (string cs).map .str
    | '[' :: cs =>
      if D.tooDeep depth then .error .depth
      else match skip cs with
        | ']' :: cs => .ok (.arr [], cs)
        | cs => (items ']' (value D n (depth + 1)) (cs.length + 1) cs).map .arr
    | '\x7b' :: cs =>
      if D.tooDeep depth then .error .depth
      else match skip cs with
        | '\x7d' :: cs => .ok (.obj [], cs)
        | cs => (items '\x7d' (member (value D n (depth + 1))) (cs.length + 1) cs).map .obj
    | 'n' :: 'u' :: 'l' :: 'l' :: cs => .ok (.null, cs)
    | 't' :: 'r' :: 'u' :: 'e' :: cs => .ok (.bool true, cs)
    | 'f' :: 'a' :: 'l' :: 's' :: 'e' :: cs => .ok (.bool false, cs)
    | 'N' :: 'a' :: 'N' :: cs => D.word .nan cs
    | 'I' :: 'n' :: 'f' :: 'i' :: 'n' :: 'i' :: 't' :: 'y' :: cs => D.word .infinity cs
    | '-' :: 'I' :: 'n' :: 'f' :: 'i' :: 'n' :: 'i' :: 't' :: 'y' :: cs => D.word .negInfinity cs
    | cs => number D cs

/-- A whole text. -/
def parse (D : Dialect) (text : List Char) : Except Err Value :=
  match value D (text.length + 1) 0 (skip text) with
  | .ok (v, cs) => if skip cs = [] then .ok v else .error .grammar
  | .error e => .error e

/-! ## The reader does not run out of fuel -/

/-- The fuel suffices, and at most so much of the text is left. -/
def Step.Reads {α : Type} (n : ℕ) : Step α → Prop
  | .ok (_, cs) => cs.length ≤ n
  | .error e => e ≠ .fuel

namespace Step.Reads

variable {α β : Type} {n m : ℕ} {x : Step α}

theorem mono (h : x.Reads n) (hnm : n ≤ m) : x.Reads m := by
  cases x with
  | ok p => exact Nat.le_trans h hnm
  | error e => exact h

theorem andThen {f : α → List Char → Step β} (h : x.Reads n)
    (hf : ∀ a cs, cs.length ≤ n → (f a cs).Reads m) : (x.andThen f).Reads m := by
  cases x with
  | ok p => exact hf p.1 p.2 h
  | error e => exact h

theorem map {f : α → β} (h : x.Reads n) : (x.map f).Reads n := h.andThen fun _ _ hcs ↦ hcs

end Step.Reads

theorem length_skip (cs : List Char) : (skip cs).length ≤ cs.length :=
  (List.dropWhile_sublist _).length_le

theorem units_reads (cs : List Char) : (units cs).Reads (cs.length - 1) := by
  fun_induction units cs with
  | case1 | case4 | case6 | case7 => exact fun h ↦ by cases h
  | case2 cs => exact Nat.le_refl _
  | case3 a b c d cs u hu ih => exact ih.map.mono (by simp; omega)
  | case5 e cs hne u hu ih => exact ih.map.mono (by simp; omega)
  | case8 c cs hquote hu he hc ih => exact ih.map.mono (Nat.sub_le _ _)

theorem string_reads (cs : List Char) : (string cs).Reads (cs.length - 1) := (units_reads cs).map

theorem length_of_digits {cs ds rest : List Char} (h : digits? cs = some (ds, rest)) :
    rest.length < cs.length := by
  unfold digits? at h
  split at h
  · cases h
  · rename_i d ds hds
    obtain ⟨-, rfl⟩ := Prod.mk.inj (Option.some.inj h)
    have hall :=
      congrArg List.length (List.takeWhile_append_dropWhile (p := Char.isDigit) (l := cs))
    rw [hds, List.length_append, List.length_cons] at hall
    omega

theorem length_of_integer {cs ds rest : List Char} (h : integer? cs = some (ds, rest)) :
    rest.length < cs.length := by
  unfold integer? at h
  split at h
  · obtain ⟨-, rfl⟩ := Prod.mk.inj (Option.some.inj h)
    exact Nat.lt_succ_self _
  · exact length_of_digits h

theorem length_fraction (cs : List Char) : (fraction cs).2.length ≤ cs.length := by
  unfold fraction
  split
  · rename_i cs
    cases h : digits? cs with
    | none => exact Nat.le_refl _
    | some p => exact Nat.le_trans (Nat.le_of_lt (length_of_digits h)) (Nat.le_succ _)
  · exact Nat.le_refl _

theorem length_of_signed {cs rest : List Char} {n : ℤ} (h : signed? cs = some (n, rest)) :
    rest.length < cs.length := by
  unfold signed? at h
  split at h
  all_goals
    obtain ⟨⟨ds, rest⟩, hds, hn⟩ := Option.map_eq_some_iff.mp h
    obtain ⟨-, rfl⟩ := Prod.mk.inj hn
    have hlt := length_of_digits hds
  · exact Nat.lt_succ_of_lt hlt
  · exact Nat.lt_succ_of_lt hlt
  · exact hlt

theorem length_exponent (cs : List Char) : (exponent cs).2.length ≤ cs.length := by
  unfold exponent
  split
  · rename_i e cs
    split
    · split
      · rename_i n rest h
        exact Nat.le_trans (Nat.le_of_lt (length_of_signed h)) (Nat.le_succ _)
      · exact Nat.le_refl _
    · exact Nat.le_refl _
  · exact Nat.le_refl _

theorem unsigned_reads (D : Dialect) (sign : ℤ) (cs : List Char) :
    (unsigned D sign cs).Reads (cs.length - 1) := by
  unfold unsigned
  split
  · exact fun h ↦ by cases h
  · rename_i ds rest h
    have hint := length_of_integer h
    have hfrac := length_fraction rest
    have hexp := length_exponent (fraction rest).2
    dsimp only
    split
    · split
      · exact fun h ↦ by cases h
      · show (exponent (fraction rest).2).2.length ≤ cs.length - 1
        omega
    · show (exponent (fraction rest).2).2.length ≤ cs.length - 1
      omega

theorem number_reads (D : Dialect) (cs : List Char) : (number D cs).Reads (cs.length - 1) := by
  unfold number
  split
  · exact (unsigned_reads D _ _).mono (Nat.sub_le _ _)
  · exact unsigned_reads D _ _

theorem items_reads {α : Type} {close : Char} {item : List Char → Step α} {n : ℕ} {cs : List Char}
    (hitem : ∀ cs', cs'.length ≤ cs.length → (item cs').Reads (cs'.length - 1))
    (hn : cs.length < n) : (items close item n cs).Reads (cs.length - 1) := by
  induction n generalizing cs with
  | zero => omega
  | succ n ih =>
    refine (hitem cs (Nat.le_refl _)).andThen fun a rest hrest ↦ ?_
    have hskip := length_skip rest
    split
    · exact fun h ↦ by cases h
    · rename_i c rest' hcs
      rw [hcs, List.length_cons] at hskip
      split
      · have hskip' := length_skip rest'
        exact (ih (fun cs' hcs' ↦ hitem cs' (by omega)) (by omega)).map.mono (by omega)
      · split
        · show rest'.length ≤ cs.length - 1
          omega
        · exact fun h ↦ by cases h

theorem member_reads {value : List Char → Step Value} {cs : List Char}
    (hvalue : ∀ cs', cs'.length < cs.length → (value cs').Reads (cs'.length - 1)) :
    (member value cs).Reads (cs.length - 1) := by
  unfold member
  split
  · rename_i cs
    refine (string_reads cs).andThen fun name rest hrest ↦ ?_
    have hskip := length_skip rest
    split
    · rename_i rest' hcs
      rw [hcs, List.length_cons] at hskip
      have hskip' := length_skip rest'
      rw [List.length_cons]
      exact (hvalue _ (by rw [List.length_cons]; omega)).map.mono (by omega)
    · exact fun h ↦ by cases h
  · exact fun h ↦ by cases h

theorem word_reads (D : Dialect) (c : Constant) (cs : List Char) :
    (D.word c cs).Reads cs.length := by
  unfold Dialect.word
  split
  · exact Nat.le_refl _
  · exact fun h ↦ by cases h

theorem value_reads (D : Dialect) {n depth : ℕ} {cs : List Char} (hn : cs.length < n) :
    (value D n depth cs).Reads (cs.length - 1) := by
  induction n generalizing depth cs with
  | zero => omega
  | succ n ih =>
    unfold value
    split
    · exact (string_reads _).map.mono (Nat.sub_le _ _)
    · rename_i cs
      have hskip := length_skip cs
      rw [List.length_cons] at hn ⊢
      split
      · exact fun h ↦ by cases h
      · split
        · rename_i rest hcs
          rw [hcs, List.length_cons] at hskip
          exact Nat.le_of_lt hskip
        · exact (items_reads (fun cs' hcs' ↦ ih (by omega)) (Nat.lt_succ_self _)).map.mono
            (by omega)
    · rename_i cs
      have hskip := length_skip cs
      rw [List.length_cons] at hn ⊢
      split
      · exact fun h ↦ by cases h
      · split
        · rename_i rest hcs
          rw [hcs, List.length_cons] at hskip
          exact Nat.le_of_lt hskip
        · refine (items_reads (fun cs' hcs' ↦ ?_) (Nat.lt_succ_self _)).map.mono (by omega)
          exact member_reads fun cs'' hcs'' ↦ ih (by omega)
    -- the literals
    iterate 3
      · show List.length _ ≤ _
        simp only [List.length_cons]
        omega
    iterate 3
      · exact (word_reads _ _ _).mono (by simp only [List.length_cons]; omega)
    · exact number_reads _ _

/-- **The reader has fuel enough for every text.** -/
theorem parse_ne_fuel (D : Dialect) (text : List Char) : parse D text ≠ .error .fuel := by
  have h : (value D (text.length + 1) 0 (skip text)).Reads _ :=
    value_reads D (Nat.lt_succ_of_le (length_skip text))
  unfold parse
  split
  · split <;> exact fun h ↦ by cases h
  · rename_i e he
    rw [he] at h
    exact fun heq ↦ h (Except.error.inj heq)

/-! ## Readers agree -/

/-- What one reader takes the other takes too, all of it and as the same. -/
def Step.Below {α : Type} (x y : Step α) : Prop := ∀ r, x = .ok r → y = .ok r

namespace Step.Below

variable {α β : Type} {x y : Step α}

theorem refl (x : Step α) : x.Below x := fun _ h ↦ h

theorem andThen {f g : α → List Char → Step β} (h : x.Below y)
    (hf : ∀ a cs, (f a cs).Below (g a cs)) : (x.andThen f).Below (y.andThen g) := by
  intro r hr
  cases x with
  | error e => cases hr
  | ok p =>
    rw [h p rfl]
    exact hf p.1 p.2 r hr

theorem map {f : α → β} (h : x.Below y) : (x.map f).Below (y.map f) := h.andThen fun _ _ ↦ refl _

theorem error {e : Err} : Step.Below (α := α) (.error e) y := fun _ h ↦ by cases h

end Step.Below

/-- One dialect is more permissive than another. -/
structure Dialect.Le (D E : Dialect) : Prop where
  constants : D.constants → E.constants
  refuses : ∀ ds, E.refuses ds → D.refuses ds
  tooDeep : ∀ depth, E.tooDeep depth → D.tooDeep depth

section Below

variable {D E : Dialect}

theorem unsigned_below (h : D.Le E) (sign : ℤ) (cs : List Char) :
    (unsigned D sign cs).Below (unsigned E sign cs) := by
  unfold unsigned
  split
  · exact .refl _
  · rename_i ds rest hds
    dsimp only
    split
    · by_cases hD : D.refuses ds
      · rw [if_pos hD]
        exact .error
      · rw [if_neg hD, if_neg fun hE ↦ hD (h.refuses ds hE)]
        exact .refl _
    · exact .refl _

theorem number_below (h : D.Le E) (cs : List Char) : (number D cs).Below (number E cs) := by
  unfold number
  split <;> exact unsigned_below h _ _

theorem items_below {α : Type} {close : Char} {item item' : List Char → Step α}
    (h : ∀ cs, (item cs).Below (item' cs)) (n : ℕ) (cs : List Char) :
    (items close item n cs).Below (items close item' n cs) := by
  induction n generalizing cs with
  | zero => exact .refl _
  | succ n ih =>
    refine (h cs).andThen fun a rest ↦ ?_
    split
    · exact .refl _
    · split
      · exact (ih _).map
      · exact .refl _

theorem member_below {value value' : List Char → Step Value}
    (h : ∀ cs, (value cs).Below (value' cs)) (cs : List Char) :
    (member value cs).Below (member value' cs) := by
  unfold member
  split
  · refine (Step.Below.refl _).andThen fun name rest ↦ ?_
    split
    · exact (h _).map
    · exact .refl _
  · exact .refl _

theorem word_below (h : D.Le E) (c : Constant) (cs : List Char) :
    (D.word c cs).Below (E.word c cs) := by
  unfold Dialect.word
  by_cases hD : D.constants
  · rw [if_pos hD, if_pos (h.constants hD)]
    exact .refl _
  · rw [if_neg hD]
    exact .error

theorem value_below (h : D.Le E) (n depth : ℕ) (cs : List Char) :
    (value D n depth cs).Below (value E n depth cs) := by
  induction n generalizing depth cs with
  | zero => exact .refl _
  | succ n ih =>
    have hitem := ih (depth + 1)
    unfold value
    split
    · exact .refl _
    iterate 2
      · by_cases hD : D.tooDeep depth
        · rw [if_pos hD]
          exact .error
        · rw [if_neg hD, if_neg fun hE ↦ hD (h.tooDeep depth hE)]
          split
          · exact .refl _
          · first
              | exact (items_below hitem _ _).map
              | exact (items_below (member_below hitem) _ _).map
    iterate 3
      · exact .refl _
    iterate 3
      · exact word_below h _ _
    · exact number_below h _

end Below

/-- **A more permissive reader reads what the other does, as the same value.** -/
theorem parse_mono {D E : Dialect} (h : D.Le E) {text : List Char} {v : Value}
    (hv : parse D text = .ok v) : parse E text = .ok v := by
  unfold parse at hv ⊢
  split at hv
  · rename_i w rest hw
    rw [value_below h _ _ _ _ hw]
    exact hv
  · cases hv

/-- The most permissive dialect. -/
def Dialect.top : Dialect where
  constants := true
  maxDigits := none
  maxDepth := none

theorem Dialect.le_top (D : Dialect) : D.Le .top where
  constants _ := rfl
  refuses ds h := by cases h
  tooDeep depth h := by cases h

/-- Two readers that both succeed agree. -/
theorem parse_agree {D E : Dialect} {text : List Char} {v w : Value}
    (hv : parse D text = .ok v) (hw : parse E text = .ok w) : v = w := by
  have := (parse_mono D.le_top hv).symm.trans (parse_mono E.le_top hw)
  exact Except.ok.inj this

end Json
