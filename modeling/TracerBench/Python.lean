import Mathlib.Data.Nat.Digits.Defs
import Mathlib.Data.List.DropRight
import Mathlib.Data.Rat.Floor
import Mathlib.Tactic.Ring
import TracerBench.Loop

/-!
# Python's errors, computations and numbers

A computation `Py α` takes fuel for its loops, and gives a value, raises, or is still
going. `trueDiv` and `trunc` are `/` and `int()` on exact numbers.

`int base text` is `int(text, base)`. Text is a list of bytes, as `int()` reads it : the
spaces around the number are skipped, then come an optional sign, for base 16 an optional
`0x`, and the digits, with single underscores allowed between two of them. `none` is the
`ValueError`.

A numeral is a non-empty list of digits of the base. `int_numeral` reads one back as
its positional value, leading zeros and either case included, and `int_str` says that
the decimal text of a number reads back as that number.
-/

namespace TracerBench

/-- The errors of the language and its standard library. -/
inductive PyError where
  | valueError
  | typeError
  | zeroDivisionError
  | overflowError
  | assertionError
  | attributeError
  | unboundLocalError
  | exception (message : String)
  deriving DecidableEq

/-! ## Computations -/

/-- A computation that may loop, raise, or give a value. -/
def Py (α : Type) : Type :=
  ℕ → Option (Except PyError α)

namespace Py

variable {α β σ : Type}

instance : Monad Py where
  pure a := fun _ => some (.ok a)
  bind x f := fun fuel =>
    match x fuel with
    | none => none
    | some (.error e) => some (.error e)
    | some (.ok a) => f a fuel

/-- `raise`. -/
def raise (e : PyError) : Py α := fun _ => some (.error e)

/-- `while`. -/
def whileLoop (body : σ → Option (Pass σ α)) (s : σ) : Py α := fun fuel =>
  (loop body fuel s).map .ok

/-- Given enough fuel, the computation ends with a value or an error. -/
abbrev Ends (x : Py α) (r : Except PyError α) : Prop :=
  Returns x r

theorem ends_pure (a : α) : (pure a : Py α).Ends (.ok a) :=
  ⟨0, fun _ _ => rfl⟩

theorem ends_raise (e : PyError) : (raise e : Py α).Ends (.error e) :=
  ⟨0, fun _ _ => rfl⟩

theorem bind_apply (x : Py α) (f : α → Py β) (fuel : ℕ) :
    (x >>= f) fuel =
      match x fuel with
      | none => none
      | some (.error e) => some (.error e)
      | some (.ok a) => f a fuel :=
  rfl

/-- One computation after another. -/
theorem Ends.bind {x : Py α} {f : α → Py β} {a : α} {r : Except PyError β}
    (hx : x.Ends (.ok a)) (hf : (f a).Ends r) : (x >>= f).Ends r := by
  obtain ⟨n, hn⟩ := hx
  obtain ⟨m, hm⟩ := hf
  refine ⟨max n m, fun fuel hle => ?_⟩
  rw [bind_apply, hn fuel (Nat.le_trans (le_max_left n m) hle)]
  exact hm fuel (Nat.le_trans (le_max_right n m) hle)

/-- What a computation raises, the one it is the first part of raises too. -/
theorem Ends.bind_error {x : Py α} {f : α → Py β} {e : PyError} (hx : x.Ends (.error e)) :
    (x >>= f).Ends (.error e) := by
  obtain ⟨n, hn⟩ := hx
  exact ⟨n, fun fuel hle => by rw [bind_apply, hn fuel hle]⟩

/-- A computation whose first part is still going is still going. -/
theorem bind_eq_none {x : Py α} {f : α → Py β} {fuel : ℕ} (hx : x fuel = none) :
    (x >>= f) fuel = none := by
  rw [bind_apply, hx]

/-- `a / b`. -/
def trueDiv (a b : ℚ) : Py ℚ :=
  if b = 0 then raise .zeroDivisionError else pure (a / b)

theorem ends_trueDiv {a b : ℚ} (hb : b ≠ 0) : (trueDiv a b).Ends (.ok (a / b)) := by
  rw [trueDiv, if_neg hb]
  exact ends_pure _

end Py

/-- `int()` of a number : the part after the point is dropped. -/
def trunc (q : ℚ) : ℤ :=
  if 0 ≤ q then ⌊q⌋ else ⌈q⌉

theorem trunc_of_nonneg {q : ℚ} (h : 0 ≤ q) : trunc q = ⌊q⌋ :=
  if_pos h

theorem trunc_nonneg {q : ℚ} (h : 0 ≤ q) : 0 ≤ trunc q := by
  rw [trunc_of_nonneg h]
  exact Int.floor_nonneg.2 h

@[simp] theorem trunc_intCast (n : ℤ) : trunc n = n := by
  simp [trunc]

/-! ## Digits -/

/-- The value of a digit byte : `0`-`9`, then `a`-`z` or `A`-`Z` from ten on. -/
def digitVal (c : UInt8) : Option ℕ :=
  if 48 ≤ c ∧ c ≤ 57 then some (c.toNat - 48)
  else if 97 ≤ c ∧ c ≤ 122 then some (c.toNat - 87)
  else if 65 ≤ c ∧ c ≤ 90 then some (c.toNat - 55)
  else none

/-- A digit of the base. -/
def isDigit (base : ℕ) (c : UInt8) : Bool :=
  (digitVal c).any (· < base)

/-- The positional value of a list of digits, most significant first. -/
def numeralVal (base : ℕ) (ds : List UInt8) : ℕ :=
  Nat.ofDigits base ((ds.map fun c => (digitVal c).getD 0).reverse)

@[simp] theorem numeralVal_nil (base : ℕ) : numeralVal base [] = 0 :=
  rfl

theorem numeralVal_cons (base : ℕ) (c : UInt8) (ds : List UInt8) :
    numeralVal base (c :: ds) = numeralVal base ds + base ^ ds.length * (digitVal c).getD 0 := by
  simp only [numeralVal, List.map_cons, Nat.ofDigits_reverse_cons, List.length_map]

theorem digitVal_of_isDigit {base : ℕ} {c : UInt8} (h : isDigit base c = true) :
    ∃ d, digitVal c = some d ∧ d < base := by
  unfold isDigit at h
  cases hc : digitVal c with
  | none => simp [hc] at h
  | some d => exact ⟨d, rfl, by simpa [hc] using h⟩

theorem ne_of_isDigit {base : ℕ} {c b : UInt8} (hb : digitVal b = none)
    (h : isDigit base c = true) : c ≠ b := by
  rintro rfl
  simp [isDigit, hb] at h

/-! ## `int` -/

/-- The white space `int()` skips. -/
def isSpace (c : UInt8) : Bool :=
  c = 32 ∨ 9 ≤ c ∧ c ≤ 13

/-- Digits with single underscores between them, after the digits worth `acc`. The flag
says that the byte before was a digit. -/
def readDigits (base : ℕ) : ℕ → Bool → List UInt8 → Option ℕ
  | acc, afterDigit, [] => if afterDigit then some acc else none
  | acc, afterDigit, c :: cs =>
    if c = 95 then
      if afterDigit then readDigits base acc false cs else none
    else
      match digitVal c with
      | some d => if d < base then readDigits base (base * acc + d) true cs else none
      | none => none

/-- Base 16 lets a number open with `0x` or `0X`, and one underscore stand between that
and the first digit. -/
def dropPrefix (base : ℕ) (cs : List UInt8) : List UInt8 :=
  if base = 16 ∧ (cs.take 2 = [48, 120] ∨ cs.take 2 = [48, 88]) then
    if cs[2]? = some 95 then cs.drop 3 else cs.drop 2
  else cs

/-- A number without its sign. -/
def readUnsigned (base : ℕ) (cs : List UInt8) : Option ℕ :=
  readDigits base 0 false (dropPrefix base cs)

/-- `int(text, base)`. -/
def int (base : ℕ) (text : List UInt8) : Option ℤ :=
  let text := (text.dropWhile isSpace).rdropWhile isSpace
  match text.head? with
  | some 43 => (readUnsigned base text.tail).map Int.ofNat
  | some 45 => (readUnsigned base text.tail).map fun n => -Int.ofNat n
  | _ => (readUnsigned base text).map Int.ofNat

/-! ## Numerals -/

/-- Digits of the base, at least one. -/
def IsNumeral (base : ℕ) (ds : List UInt8) : Prop :=
  ds ≠ [] ∧ ∀ c ∈ ds, isDigit base c = true

instance (base : ℕ) (ds : List UInt8) : Decidable (IsNumeral base ds) :=
  decidable_of_iff (ds ≠ [] ∧ ds.all (isDigit base) = true) (by simp [IsNumeral])

theorem readDigits_digits {base : ℕ} :
    ∀ (ds : List UInt8) (acc : ℕ) (afterDigit : Bool), (∀ c ∈ ds, isDigit base c = true) →
      (afterDigit = true ∨ ds ≠ []) →
      readDigits base acc afterDigit ds = some (base ^ ds.length * acc + numeralVal base ds)
  | [], acc, afterDigit, _, h => by
    obtain rfl : afterDigit = true := by simpa using h
    simp [readDigits]
  | c :: ds, acc, afterDigit, hds, _ => by
    obtain ⟨d, hd, hlt⟩ := digitVal_of_isDigit (hds c (by simp))
    have hc : c ≠ 95 := ne_of_isDigit (by decide) (hds c (by simp))
    have ih := readDigits_digits ds (base * acc + d) true (fun x hx => hds x (by simp [hx]))
      (Or.inl rfl)
    rw [readDigits, if_neg hc, hd]
    simp only [if_pos hlt, ih, numeralVal_cons, hd, Option.getD_some, List.length_cons]
    congr 1
    ring

theorem digitVal_of_isSpace {c : UInt8} (h : isSpace c = true) : digitVal c = none := by
  simp only [isSpace, decide_eq_true_eq, UInt8.le_iff_toNat_le, ← UInt8.toNat_inj] at h
  simp only [UInt8.reduceToNat] at h
  rw [digitVal, if_neg, if_neg, if_neg] <;>
    simp only [UInt8.le_iff_toNat_le, UInt8.reduceToNat] <;> omega

theorem strip_digits {base : ℕ} {ds : List UInt8} (hds : ∀ c ∈ ds, isDigit base c = true) :
    (ds.dropWhile isSpace).rdropWhile isSpace = ds := by
  have hsp : ∀ c ∈ ds, ¬isSpace c = true := fun c hc hs =>
    ne_of_isDigit (digitVal_of_isSpace hs) (hds c hc) rfl
  rw [List.dropWhile_eq_self_iff.2 fun _ => hsp _ (List.getElem_mem _),
    List.rdropWhile_eq_self_iff.2 fun _ => hsp _ (List.getLast_mem _)]

theorem dropPrefix_digits {base : ℕ} (hbase : base ≤ 33) {ds : List UInt8}
    (hds : ∀ c ∈ ds, isDigit base c = true) : dropPrefix base ds = ds := by
  have hx : ∀ x : UInt8, digitVal x = some 33 → ds.take 2 ≠ [48, x] := by
    intro x hx h
    have hmem : x ∈ ds := List.mem_of_mem_take (i := 2) (by rw [h]; simp)
    obtain ⟨d, hd, hlt⟩ := digitVal_of_isDigit (hds x hmem)
    obtain rfl : 33 = d := Option.some.inj (hx.symm.trans hd)
    omega
  rw [dropPrefix, if_neg]
  rintro ⟨-, h | h⟩
  · exact hx 120 (by decide) h
  · exact hx 88 (by decide) h

/-- `int` of a numeral is its positional value. -/
theorem int_numeral {base : ℕ} (hbase : base ≤ 33) {ds : List UInt8}
    (h : IsNumeral base ds) : int base ds = some (numeralVal base ds : ℤ) := by
  obtain ⟨hne, hds⟩ := h
  obtain ⟨c, cs, rfl⟩ := List.exists_cons_of_ne_nil hne
  have h43 : c ≠ 43 := ne_of_isDigit (by decide) (hds c (by simp))
  have h45 : c ≠ 45 := ne_of_isDigit (by decide) (hds c (by simp))
  have hread := readDigits_digits (c :: cs) 0 false hds (Or.inr hne)
  rw [mul_zero, zero_add] at hread
  simp only [int, strip_digits hds, List.head?_cons]
  split
  · next hh => exact absurd (Option.some.inj hh) h43
  · next hh => exact absurd (Option.some.inj hh) h45
  · rw [readUnsigned, dropPrefix_digits hbase hds, hread]
    rfl

/-! ## `str` -/

/-- The digit byte of a number below ten. -/
def digitChar (d : ℕ) : UInt8 :=
  UInt8.ofNat (48 + d)

theorem digitVal_digitChar : ∀ {d : ℕ}, d < 10 → digitVal (digitChar d) = some d
  | 0, _ | 1, _ | 2, _ | 3, _ | 4, _ | 5, _ | 6, _ | 7, _ | 8, _ | 9, _ => by decide
  | _ + 10, h => by omega

/-- `str(n)`. -/
def str (n : ℕ) : List UInt8 :=
  if n = 0 then [48] else (Nat.digits 10 n).reverse.map digitChar

theorem isNumeral_str (n : ℕ) : IsNumeral 10 (str n) := by
  unfold str
  split_ifs with h
  · exact (by decide : IsNumeral 10 [48])
  · refine ⟨by simpa [Nat.digits_ne_nil_iff_ne_zero] using h, fun c hc => ?_⟩
    obtain ⟨d, hd, rfl⟩ := List.mem_map.1 hc
    have hlt : d < 10 := Nat.digits_lt_base (by omega) (List.mem_reverse.1 hd)
    simp [isDigit, digitVal_digitChar hlt, hlt]

theorem numeralVal_str (n : ℕ) : numeralVal 10 (str n) = n := by
  unfold str
  split_ifs with h
  · rw [h]
    decide
  · have hval : ((Nat.digits 10 n).reverse.map digitChar).map (fun c => (digitVal c).getD 0) =
        (Nat.digits 10 n).reverse := by
      rw [List.map_map]
      conv_rhs => rw [← List.map_id (Nat.digits 10 n).reverse]
      refine List.map_congr_left fun d hd => ?_
      have hlt : d < 10 := Nat.digits_lt_base (by omega) (List.mem_reverse.1 hd)
      simp [digitVal_digitChar hlt]
    rw [numeralVal, hval, List.reverse_reverse, Nat.ofDigits_digits]

/-- The decimal text of a number reads back as the number. -/
theorem int_str (n : ℕ) : int 10 (str n) = some (n : ℤ) := by
  rw [int_numeral (by omega) (isNumeral_str n), numeralVal_str]

end TracerBench
