import Mathlib.Data.Rat.Floor
import Mathlib.Data.Nat.Log
import Mathlib.Tactic.Linarith
import Mathlib.Tactic.Ring

/-!
# The floats of a host language

A program that computes with floats is modelled over any type with the operations it uses. No law
is assumed of them: what is proved of such a program holds for every rounding, for infinities and
for values that compare with nothing.

Results that need laws name them through the class `Rounded`: the laws of monotone rounding, which
hold of finite IEEE floats and of the rational numbers.
-/

namespace HostFloat

class FloatOps (F : Type) where
  /-- `float(n)`. -/
  ofInt : Int → F
  /-- `m / n` of two integers. -/
  divInt : Int → Int → F
  mul : F → F → F
  lt : F → F → Bool
  le : F → F → Bool
  /-- `n > x` of an integer and a float. -/
  intGt : Int → F → Bool
  /-- `int(x)`; it raises where `x` has no integral part. -/
  toInt : F → Option Int
  /-- `timedelta(seconds=x)` in milliseconds; it raises where `x` is not finite. -/
  toMillis : F → Option Int

/-- `int(delta.total_seconds() * 1000)` of a difference of whole milliseconds, where it is not
negative. -/
def wholeMillis (F : Type) [FloatOps F] (millis : Int) : Option Int :=
  let totalSeconds : F := FloatOps.divInt (millis * 1000) 1000000
  (FloatOps.toInt (FloatOps.mul totalSeconds (FloatOps.ofInt 1000))).map (max 0)

/-- Exact arithmetic. -/
instance : FloatOps ℚ where
  ofInt := fun n => n
  divInt := fun m n => m / n
  mul := fun x y => x * y
  lt := fun x y => decide (x < y)
  le := fun x y => decide (x ≤ y)
  intGt := fun n x => decide (x < n)
  toInt := fun x => some (x.num.tdiv x.den)
  toMillis := fun x => some (round (x * 1000))

/-- Exact arithmetic loses nothing. -/
theorem wholeMillis_rat {millis : Int} (h : 0 ≤ millis) : wholeMillis ℚ millis = some millis := by
  have hunfold : ∀ x : ℚ, x = ((millis * 1000 : Int) : ℚ) / ((1000000 : Int) : ℚ) * ((1000 : Int) : ℚ) →
      wholeMillis ℚ millis = (some (x.num.tdiv x.den)).map (max 0) := by
    rintro x rfl
    rfl
  rw [hunfold millis (by push_cast; ring)]
  simp [h]

/-! ## The rest of the arithmetic

Besides addition and subtraction, what raises: division by zero, and rounding of what is not finite.
Exact values are also formatted, with the two formats that texts about floats use. -/

/-- What raises answers with the class of the exception. -/
class FloatArith (F : Type) extends FloatOps F where
  add : F → F → F
  sub : F → F → F
  /-- `x / y`. -/
  div : F → F → Except String F
  abs : F → F
  /-- `math.floor(x)`. -/
  floor : F → Except String Int
  /-- `round(x)`. -/
  round : F → Except String Int
  /-- `f"{x:g}"`. -/
  general : F → String
  /-- `f"{x:.0f}"`. -/
  fixed : F → String

/-- To the nearest integer, ties to the even one. -/
def roundEven (x : ℚ) : Int :=
  let part := x - ⌊x⌋
  if part < 1 / 2 then ⌊x⌋
  else if 1 / 2 < part then ⌊x⌋ + 1
  else if ⌊x⌋ % 2 = 0 then ⌊x⌋ else ⌊x⌋ + 1

/-- The exponent of the first significant decimal digit. -/
def decimalExponent (x : ℚ) : Int :=
  if 1 ≤ x then Nat.log 10 ⌊x⌋.toNat else -(Nat.clog 10 ⌈1 / x⌉.toNat)

/-- `digits` without its trailing zeros, of which at most `places` are taken, and what is left of
`places`. -/
def stripZeros : Nat → Nat → Nat × Nat
  | digits, 0 => (digits, 0)
  | digits, places + 1 =>
    if digits % 10 = 0 then stripZeros (digits / 10) places else (digits, places + 1)

/-- `digits / 10 ^ places` in decimal. -/
def decimal (digits places : Nat) : String :=
  if places = 0 then toString digits
  else
    let fraction := toString (digits % 10 ^ places)
    toString (digits / 10 ^ places) ++ "." ++
      String.ofList (List.replicate (places - fraction.length) '0') ++ fraction

/-- `f"{x:g}"` of an exact value: six significant digits, without trailing zeros. -/
def generalFormat (x : ℚ) : String :=
  if x = 0 then "0"
  else
    let sign := if x < 0 then "-" else ""
    let rounded := roundEven (|x| * 10 ^ (5 - decimalExponent |x|))
    let (digits, exponent) :=
      if rounded = 10 ^ 6 then (10 ^ 5, decimalExponent |x| + 1)
      else (rounded.toNat, decimalExponent |x|)
    if -4 ≤ exponent ∧ exponent < 6 then
      let (kept, places) := stripZeros digits (5 - exponent).toNat
      sign ++ decimal kept places
    else
      let (kept, places) := stripZeros digits 5
      let magnitude := toString exponent.natAbs
      sign ++ decimal kept places ++ (if exponent < 0 then "e-" else "e+") ++
        (if magnitude.length < 2 then "0" else "") ++ magnitude

instance : FloatArith ℚ where
  add := fun x y => x + y
  sub := fun x y => x - y
  div := fun x y => if y = 0 then .error "ZeroDivisionError" else .ok (x / y)
  abs := fun x => |x|
  floor := fun x => .ok ⌊x⌋
  round := fun x => .ok (roundEven x)
  general := generalFormat
  fixed := fun x => toString (roundEven x)

/-! ## Rounding

With the laws of `Rounded` results about quotients and differences of counts are proved once, for
floats and for exact numbers. -/

/-- What correctly rounded arithmetic guarantees of finite values. -/
class Rounded (F : Type) [FloatArith F] : Prop where
  le_refl (x : F) : FloatOps.le x x
  le_trans {x y z : F} (hxy : FloatOps.le x y) (hyz : FloatOps.le y z) : FloatOps.le x z
  le_total (x y : F) : FloatOps.le x y ∨ FloatOps.le y x
  lt_iff {x y : F} : FloatOps.lt x y ↔ ¬ FloatOps.le y x
  /-- The quotient of integers is rounded from the exact one. -/
  divInt_le {m n k l : Int} (hn : 0 < n) (hl : 0 < l) (h : m * l ≤ k * n) :
    FloatOps.le (FloatOps.divInt m n : F) (FloatOps.divInt k l)
  divInt_zero {n : Int} (hn : 0 < n) : (FloatOps.divInt 0 n : F) = FloatOps.ofInt 0
  divInt_self {n : Int} (hn : 0 < n) : (FloatOps.divInt n n : F) = FloatOps.ofInt 1
  sub_le {x y z w : F} (hxy : FloatOps.le x y) (hwz : FloatOps.le w z) :
    FloatOps.le (FloatArith.sub x z) (FloatArith.sub y w)
  sub_self (x : F) : FloatArith.sub x x = FloatOps.ofInt 0
  /-- A multiple of a quotient of integers is finite. -/
  toInt_multiple {m n k : Int} (hn : 0 < n) :
    ∃ i, FloatOps.toInt (FloatOps.mul (FloatOps.divInt m n : F) (FloatOps.ofInt k)) = some i
  /-- A fraction of a count rounds to no negative number. -/
  round_fraction {m n k : Int} (hm : 0 ≤ m) (hn : 0 < n) (hk : 0 ≤ k) :
    ∃ i, FloatArith.round (FloatOps.mul (FloatOps.divInt m n : F) (FloatOps.ofInt k)) = .ok i
      ∧ 0 ≤ i

section Order

variable {F : Type} [FloatArith F] [Rounded F] {x y z : F}

theorem Rounded.lt_eq (x y : F) : FloatOps.lt x y = !FloatOps.le y x := by
  rw [Bool.eq_iff_iff, Rounded.lt_iff, Bool.not_eq_true', Bool.not_eq_true]

theorem Rounded.lt_of_lt_of_le (hxy : FloatOps.lt x y) (hyz : FloatOps.le y z) : FloatOps.lt x z :=
  Rounded.lt_iff.mpr fun hzx => Rounded.lt_iff.mp hxy (Rounded.le_trans hyz hzx)

theorem Rounded.lt_of_le_of_lt (hxy : FloatOps.le x y) (hyz : FloatOps.lt y z) : FloatOps.lt x z :=
  Rounded.lt_iff.mpr fun hzx => Rounded.lt_iff.mp hyz (Rounded.le_trans hzx hxy)

end Order

/-- A time difference converts, and to no negative number of milliseconds. -/
theorem wholeMillis_defined (F : Type) [FloatArith F] [Rounded F] (millis : Int) :
    ∃ n, wholeMillis F millis = some n ∧ 0 ≤ n := by
  obtain ⟨i, hi⟩ : ∃ i, FloatOps.toInt (FloatOps.mul
      (FloatOps.divInt (millis * 1000) 1000000 : F) (FloatOps.ofInt 1000)) = some i :=
    Rounded.toInt_multiple (by omega)
  refine ⟨max 0 i, ?_, le_max_left 0 i⟩
  show (FloatOps.toInt (FloatOps.mul
      (FloatOps.divInt (millis * 1000) 1000000 : F) (FloatOps.ofInt 1000))).map (max 0) = _
  rw [hi, Option.map_some]

theorem roundEven_nonneg {x : ℚ} (h : 0 ≤ x) : 0 ≤ roundEven x := by
  have hfloor : 0 ≤ ⌊x⌋ := Int.floor_nonneg.mpr h
  unfold roundEven
  dsimp only
  split_ifs <;> omega

/-- Exact arithmetic rounds nothing. -/
instance : Rounded ℚ where
  le_refl x := decide_eq_true (le_rfl)
  le_trans hxy hyz := decide_eq_true ((of_decide_eq_true hxy).trans (of_decide_eq_true hyz))
  le_total x y := by
    rcases le_total x y with h | h
    · exact Or.inl (decide_eq_true h)
    · exact Or.inr (decide_eq_true h)
  lt_iff := by
    intro x y
    show decide (x < y) = true ↔ ¬ decide (y ≤ x) = true
    simp
  divInt_le := by
    intro m n k l hn hl h
    show decide ((m : ℚ) / n ≤ k / l) = true
    rw [decide_eq_true_eq, div_le_div_iff₀ (by exact_mod_cast hn) (by exact_mod_cast hl)]
    exact_mod_cast h
  divInt_zero := by
    intro n hn
    show ((0 : Int) : ℚ) / n = (0 : Int)
    simp
  divInt_self := by
    intro n hn
    show (n : ℚ) / n = (1 : Int)
    rw [div_self (by exact_mod_cast hn.ne'), Int.cast_one]
  sub_le hxy hwz := decide_eq_true (sub_le_sub (of_decide_eq_true hxy) (of_decide_eq_true hwz))
  sub_self x := by
    show x - x = ((0 : Int) : ℚ)
    simp
  toInt_multiple _ := ⟨_, rfl⟩
  round_fraction := by
    intro m n k hm hn hk
    refine ⟨_, rfl, roundEven_nonneg ?_⟩
    have hm' : (0 : ℚ) ≤ m := by exact_mod_cast hm
    have hn' : (0 : ℚ) < n := by exact_mod_cast hn
    have hk' : (0 : ℚ) ≤ k := by exact_mod_cast hk
    exact mul_nonneg (div_nonneg hm' hn'.le) hk'

end HostFloat
