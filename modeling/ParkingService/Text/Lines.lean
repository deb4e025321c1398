import Mathlib.Data.List.Infix
import ParkingService.Text.Buffer
import ParkingService.Text.Scan

/-!
# Lines of a text

A report has one `key value` a line, and is read by its keys: `valueOf` is the rest of the first
line that starts with a key. When a report that carries foreign text is cut off after so many bytes,
or at the first NUL, the lines behind that text need not come out as they were written.
`survives_iff` says exactly when one of them does: the foreign text has no such line of its own, or
one that says the same, and leaves room for the whole of it.
-/

namespace Text

def utf8 (s : String) : List UInt8 := s.toList.flatMap String.utf8EncodeChar

@[simp] theorem utf8_append (s t : String) : utf8 (s ++ t) = utf8 s ++ utf8 t := by simp [utf8]

variable {key l s t : List UInt8}

/-! ## Plain text -/

/-- Neither a NUL nor a newline is in it. -/
def Plain (s : List UInt8) : Prop := 0 ∉ s ∧ 10 ∉ s

instance (s : List UInt8) : Decidable (Plain s) := inferInstanceAs (Decidable (_ ∧ _))

theorem Plain.append (hs : Plain s) (ht : Plain t) : Plain (s ++ t) :=
  ⟨by simp [hs.1, ht.1], by simp [hs.2, ht.2]⟩

theorem notMem_utf8EncodeChar {c : Char} {x : ℕ} (hc : c.toNat ≤ 127) (hx : x < 256)
    (hne : c.toNat ≠ x) : UInt8.ofNat x ∉ String.utf8EncodeChar c := by
  have hencode : String.utf8EncodeChar c = [UInt8.ofNat c.toNat] := by
    unfold String.utf8EncodeChar
    exact if_pos hc
  rw [hencode, List.mem_singleton]
  intro heq
  have hnat := congrArg UInt8.toNat heq
  rw [UInt8.toNat_ofNat', UInt8.toNat_ofNat'] at hnat
  omega

theorem plain_flatMap {cs : List Char} (h : ∀ c ∈ cs, Plain (String.utf8EncodeChar c)) :
    Plain (cs.flatMap String.utf8EncodeChar) := by
  constructor
  · intro hmem
    obtain ⟨c, hc, hzero⟩ := List.mem_flatMap.mp hmem
    exact (h c hc).1 hzero
  · intro hmem
    obtain ⟨c, hc, hnewline⟩ := List.mem_flatMap.mp hmem
    exact (h c hc).2 hnewline

theorem plain_toDigits (n : ℕ) :
    ∀ c ∈ Nat.toDigits 10 n, Plain (String.utf8EncodeChar c) := by
  intro c hc
  have hdigit : c.isDigit := Nat.isDigit_of_mem_toDigits (by decide) (by decide) hc
  rw [Char.isDigit, Bool.and_eq_true, decide_eq_true_iff, decide_eq_true_iff] at hdigit
  obtain ⟨hlow, hhigh⟩ : 48 ≤ c.toNat ∧ c.toNat ≤ 57 := hdigit
  exact ⟨notMem_utf8EncodeChar (x := 0) (by omega) (by decide) (by omega),
    notMem_utf8EncodeChar (x := 10) (by omega) (by decide) (by omega)⟩

/-- A number is one line. -/
theorem plain_toString (n : ℤ) : Plain (utf8 (toString n)) := by
  apply plain_flatMap
  change ∀ c ∈ decimal n, _
  rcases Int.lt_or_le n 0 with hneg | hnonneg
  · rw [decimal_of_neg hneg]
    intro c hc
    rcases List.mem_cons.mp hc with rfl | hc
    · decide
    · exact plain_toDigits _ c hc
  · rw [decimal_of_nonneg hnonneg]
    exact plain_toDigits _

/-! ## Lines -/

/-- The lines of a text, without the newlines. -/
def lines (s : List UInt8) : List (List UInt8) := s.splitOn 10

theorem lines_append_newline (s t : List UInt8) : lines (s ++ 10 :: t) = lines s ++ lines t :=
  List.splitOn_append_cons_self s t

theorem lines_of_notMem (h : 10 ∉ l) : lines l = [l] := List.splitOn_eq_singleton h

theorem lines_ne_nil (s : List UInt8) : lines s ≠ [] := List.splitOn_ne_nil 10 s

/-- What has no newline goes before the first line. -/
theorem lines_append_of_notMem (h : 10 ∉ l) (s : List UInt8) :
    lines (l ++ s) = (lines s).modifyHead (l ++ ·) := by
  induction l with
  | nil => exact (List.modifyHead_id ▸ rfl)
  | cons x l ih =>
    have hx : (x == 10) = false := by
      rw [beq_eq_false_iff_ne]
      rintro rfl
      exact h List.mem_cons_self
    have hrest := ih fun hmem ↦ h (List.mem_cons_of_mem _ hmem)
    rw [List.cons_append, lines, List.splitOn_cons_eq_if_modifyHead, hx, if_neg Bool.false_ne_true,
      ← lines, hrest, List.modifyHead_modifyHead]
    rfl

/-! ## Values -/

/-- The rest of the first line that starts with the key. -/
def valueOf (key s : List UInt8) : Option (List UInt8) :=
  (lines s).findSome? fun l ↦ l.dropPrefix? key

/-- The same, if another line is already begun. -/
def laterValueOf (key s : List UInt8) : Option (List UInt8) :=
  (lines s).tail.findSome? fun l ↦ l.dropPrefix? key

theorem dropPrefix?_eq_none (h : ¬key <+: l) : l.dropPrefix? key = none := by
  cases hdrop : l.dropPrefix? key with
  | none => rfl
  | some r =>
    obtain ⟨key', rfl, hkey⟩ := List.dropPrefix?_eq_some_iff.mp hdrop
    exact absurd (beq_iff_eq.mp hkey ▸ List.prefix_append key' r) h

theorem valueOf_append_newline (key s t : List UInt8) :
    valueOf key (s ++ 10 :: t) = (valueOf key s).or (valueOf key t) := by
  rw [valueOf, lines_append_newline, List.findSome?_append]
  rfl

theorem laterValueOf_append_newline (key s t : List UInt8) :
    laterValueOf key (s ++ 10 :: t) = (laterValueOf key s).or (valueOf key t) := by
  rw [laterValueOf, lines_append_newline, List.tail_append_of_ne_nil (lines_ne_nil s),
    List.findSome?_append]
  rfl

theorem valueOf_of_notMem (key : List UInt8) (h : 10 ∉ l) : valueOf key l = l.dropPrefix? key := by
  rw [valueOf, lines_of_notMem h, List.findSome?_cons]
  cases l.dropPrefix? key <;> rfl

theorem not_prefix_append (hl : ¬key <+: l) (hlength : key.length ≤ l.length) (s : List UInt8) :
    ¬key <+: l ++ s := fun h ↦
  hl (List.prefix_of_prefix_length_le h (List.prefix_append l s) hlength)

/-- Behind the beginning of a line that is no line of the key. -/
theorem valueOf_append_of_notMem (h : 10 ∉ l) (hl : ¬key <+: l) (hlength : key.length ≤ l.length)
    (s : List UInt8) : valueOf key (l ++ s) = laterValueOf key s := by
  rw [valueOf, laterValueOf, lines_append_of_notMem h]
  cases hlines : lines s with
  | nil => exact absurd hlines (lines_ne_nil s)
  | cons x xs =>
    have hx : (l ++ x).dropPrefix? key = none :=
      dropPrefix?_eq_none (not_prefix_append hl hlength x)
    rw [List.modifyHead_cons, List.findSome?_cons, hx, List.tail_cons]

/-! ## Texts without a key -/

/-- However much is left of the text, no line of it starts with the key. -/
def Silent (key s : List UInt8) : Prop := ∀ t, t <+: s → valueOf key t = none

theorem silent_line (h : 10 ∉ l) (hl : ¬key <+: l) : Silent key l := by
  intro t ht
  have ht' : 10 ∉ t := fun hmem ↦ h (ht.mem hmem)
  rw [valueOf_of_notMem key ht']
  exact dropPrefix?_eq_none fun hkey ↦ hl (hkey.trans ht)

theorem Silent.valueOf (h : Silent key s) : Text.valueOf key s = none := h s (List.prefix_refl s)

theorem Silent.append_newline (hs : Silent key s) (ht : Silent key t) :
    Silent key (s ++ 10 :: t) := by
  intro u hu
  rcases List.prefix_or_prefix_of_prefix hu (List.prefix_append s (10 :: t)) with hus | ⟨v, rfl⟩
  · exact hs u hus
  cases v with
  | nil =>
    rw [List.append_nil]
    exact hs.valueOf
  | cons x v =>
    obtain ⟨rfl, hv⟩ := List.cons_prefix_cons.mp ((List.prefix_append_right_inj s).mp hu)
    rw [valueOf_append_newline, hs.valueOf, ht v hv]
    rfl

/-- Lines of other keys, of which the last one goes on. -/
structure Preamble (key s : List UInt8) : Prop where
  silent : Silent key s
  valueOf_append : ∀ t, valueOf key (s ++ t) = laterValueOf key t

theorem preamble_line (h : 10 ∉ l) (hl : ¬key <+: l) (hlength : key.length ≤ l.length) :
    Preamble key l :=
  ⟨silent_line h hl, valueOf_append_of_notMem h hl hlength⟩

theorem Preamble.cons (hs : Preamble key s) (h : 10 ∉ l) (hl : ¬key <+: l) :
    Preamble key (l ++ 10 :: s) := by
  have hsilent := silent_line h hl
  refine ⟨hsilent.append_newline hs.silent, fun t ↦ ?_⟩
  rw [List.append_assoc, List.cons_append, valueOf_append_newline, hsilent.valueOf,
    hs.valueOf_append]
  rfl

/-! ## A value behind foreign text -/

/-- What is left of a foreign text in so many bytes says the same as the value, or nothing, and then
there is room for the value. -/
structure Survives (key value foreign : List UInt8) (room : ℕ) : Prop where
  same : ∀ v, laterValueOf key (cString (foreign.take room)) = some v → v = value
  whole : laterValueOf key (cString (foreign.take room)) = none →
    0 ∉ foreign ∧ foreign.length + 1 + key.length + value.length ≤ room

section Survives

variable {value foreign rest : List UInt8} {n room : ℕ}

theorem survives_of_some {v : List UInt8}
    (hv : laterValueOf key (cString (foreign.take room)) = some v) :
    Survives key value foreign room ↔ v = value := by
  constructor
  · intro h
    exact h.same v hv
  · rintro rfl
    exact ⟨fun w hw ↦ Option.some.inj (hw.symm.trans hv), fun hnone ↦ by
      rw [hv] at hnone
      cases hnone⟩

theorem survives_of_none (hnone : laterValueOf key (cString (foreign.take room)) = none) :
    Survives key value foreign room ↔
      0 ∉ foreign ∧ foreign.length + 1 + key.length + value.length ≤ room := by
  constructor
  · intro h
    exact h.whole hnone
  · intro h
    refine ⟨fun v hv ↦ ?_, fun _ ↦ h⟩
    rw [hnone] at hv
    cases hv

instance (key value foreign : List UInt8) (room : ℕ) :
    Decidable (Survives key value foreign room) :=
  match h : laterValueOf key (cString (foreign.take room)) with
  | some _ => decidable_of_iff _ (survives_of_some h).symm
  | none => decidable_of_iff _ (survives_of_none h).symm

theorem not_survives_zero : ¬Survives key value foreign 0 := by
  rw [survives_of_none (List.take_zero (l := foreign) ▸ rfl)]
  rintro ⟨-, h⟩
  omega

/-- A line of which only so much is left. -/
theorem valueOf_take_iff (hkey : Plain key) (hvalue : Plain value) :
    valueOf key (cString ((key ++ value ++ 10 :: rest).take n)) = some value ↔
      key.length + value.length ≤ n := by
  obtain ⟨hzero, hnewline⟩ := hkey.append hvalue
  have hdrop : (key ++ value).dropPrefix? key = some value :=
    List.dropPrefix?_append_of_beq value (BEq.refl key)
  rw [List.take_append]
  rcases Nat.lt_or_ge n (key ++ value).length with hlt | hge
  · -- a value that is cut off is shorter
    rw [Nat.sub_eq_zero_of_le hlt.le, List.take_zero, List.append_nil]
    have hcut : ((key ++ value).take n) <+: key ++ value := List.take_prefix n _
    have hzero' : 0 ∉ (key ++ value).take n := fun hmem ↦ hzero (hcut.mem hmem)
    have hnewline' : 10 ∉ (key ++ value).take n := fun hmem ↦ hnewline (hcut.mem hmem)
    rw [cString_eq_self.mpr hzero', valueOf_of_notMem key hnewline']
    rw [List.length_append] at hlt
    refine iff_of_false (fun hsome ↦ ?_) (by omega)
    obtain ⟨key', hkey', hbeq⟩ := List.dropPrefix?_eq_some_iff.mp hsome
    have hlength := congrArg List.length hkey'
    rw [beq_iff_eq.mp hbeq, List.length_take, List.length_append] at hlength
    omega
  · rw [List.length_append] at hge
    refine iff_of_true ?_ hge
    rw [List.take_of_length_le (by simpa using hge), cString_append_of_notMem hzero]
    cases hm : n - (key ++ value).length with
    | zero =>
      rw [List.take_zero, cString, List.takeWhile_nil, List.append_nil,
        valueOf_of_notMem key hnewline, hdrop]
    | succ m =>
      rw [List.take_succ_cons, cString_cons_of_ne (by decide), valueOf_append_newline,
        valueOf_of_notMem key hnewline, hdrop]
      rfl

/-- **When a value survives** foreign text in front of it. -/
theorem survives_iff (hkey : Plain key) (hvalue : Plain value) :
    laterValueOf key (cString ((foreign ++ 10 :: (key ++ value ++ 10 :: rest)).take room)) =
        some value ↔
      Survives key value foreign room := by
  rw [List.take_append]
  by_cases hzero : 0 ∈ foreign.take room
  · -- a NUL ends what is left
    rw [cString_append_of_mem hzero]
    cases hlater : laterValueOf key (cString (foreign.take room)) with
    | some v => rw [survives_of_some hlater, Option.some_inj]
    | none =>
      rw [survives_of_none hlater]
      exact iff_of_false (fun h ↦ by cases h) fun h ↦ h.1 (List.mem_of_mem_take hzero)
  rw [cString_append_of_notMem hzero]
  have hwhole : cString (foreign.take room) = foreign.take room := cString_eq_self.mpr hzero
  rcases Nat.lt_or_ge foreign.length room with hlt | hge
  · obtain ⟨m, hm⟩ : ∃ m, room - foreign.length = m + 1 := ⟨room - foreign.length - 1, by omega⟩
    have htake : foreign.take room = foreign := List.take_of_length_le hlt.le
    rw [hm, List.take_succ_cons, cString_cons_of_ne (by decide), laterValueOf_append_newline]
    cases hlater : laterValueOf key (foreign.take room) with
    | some v =>
      rw [survives_of_some (hwhole.symm ▸ hlater), Option.some_or, Option.some_inj]
    | none =>
      -- the value is in the first line that is not foreign
      rw [survives_of_none (hwhole.symm ▸ hlater), Option.none_or, valueOf_take_iff hkey hvalue]
      constructor
      · intro h
        exact ⟨htake ▸ hzero, by omega⟩
      · rintro ⟨-, h⟩
        omega
  · rw [Nat.sub_eq_zero_of_le hge, List.take_zero, cString, List.takeWhile_nil, List.append_nil]
    cases hlater : laterValueOf key (foreign.take room) with
    | some v => rw [survives_of_some (hwhole.symm ▸ hlater), Option.some_inj]
    | none =>
      rw [survives_of_none (hwhole.symm ▸ hlater)]
      refine iff_of_false (fun h ↦ by cases h) ?_
      rintro ⟨-, h⟩
      omega

end Survives

end Text
