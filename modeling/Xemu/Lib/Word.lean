import Mathlib

/-! # Machine words: bit fields of `UInt32` and two's-complement limbs

    Generic facts about fixed-width machine arithmetic, used by every
    model of C code that packs fields into 32-bit words:

    - `bitmask k` is the C idiom `(1 << k) - 1`; masking with it and
      extracting one bit with `(x >> k) & 1` are pushed down to `Nat`
      division and remainder, where `omega` finishes the arithmetic.
    - `GET_MASK` and `SET_MASK` of a field: setting a field keeps every bit
      of a disjoint mask, and reading the field back reads the value.
    - A limb of width `k` held in a 32-bit register: the carry of an
      addition and the borrow of a wrapped subtraction both appear as bit
      `k` of the 32-bit result.
    - Two's complement of width `n + 1`: the reading `toSigned`, and the
      sign-bit tests for signed overflow of addition and subtraction.
    - Convergent (round-half-to-even) rounding of a fixed-point value, and
      its add-half-and-truncate form.
    - The C conversions between `uint16_t` and `int16_t`, and `int16_t`
      sums and differences that do not overflow; `int32_t` values of
      small naturals.

    Nothing here mentions a particular program.
-/

namespace Xemu.Word

/-! ## Section 1: Bit fields of `UInt32` -/

/-- The C macro `BITMASK(k) = (1 << k) - 1`, as a 32-bit word. -/
def bitmask (k : Nat) : UInt32 := UInt32.ofNat (2 ^ k - 1)

theorem toNat_bitmask (k : Nat) (hk : k ≤ 32) : (bitmask k).toNat = 2 ^ k - 1 := by
  have hpow : 2 ^ k ≤ 2 ^ 32 := Nat.pow_le_pow_right (by norm_num) hk
  have hpos : 0 < 2 ^ k := Nat.two_pow_pos k
  simp only [bitmask, UInt32.toNat_ofNat']
  exact Nat.mod_eq_of_lt (by omega)

@[simp] theorem toNat_and_bitmask (x : UInt32) (k : Nat) (hk : k ≤ 32) :
    (x &&& bitmask k).toNat = x.toNat % 2 ^ k := by
  rw [UInt32.toNat_and, toNat_bitmask k hk, Nat.and_two_pow_sub_one_eq_mod]

/-- Bit `k` of a word, read the C way as `(x >> k) & 1`. -/
theorem toNat_shiftRight_and_one (x : UInt32) (k : UInt32) (hk : k.toNat < 32) :
    ((x >>> k) &&& 1).toNat = x.toNat / 2 ^ k.toNat % 2 := by
  simp [Nat.shiftRight_eq_div_pow, Nat.mod_eq_of_lt hk]

/-- A loop counter converted to a shift amount keeps its value. -/
theorem toNat_toUInt32_of_lt (n : Nat) (hn : n < 2 ^ 32) : n.toUInt32.toNat = n := by
  rw [Nat.toUInt32, UInt32.toNat_ofNat', Nat.mod_eq_of_lt hn]

/-- `1 << k` is `2 ^ k` for an in-range shift. -/
theorem toNat_one_shiftLeft (k : UInt32) (hk : k.toNat < 32) :
    ((1 : UInt32) <<< k).toNat = 2 ^ k.toNat := by
  have hpow : 2 ^ k.toNat < 4294967296 := Nat.pow_lt_pow_right (by norm_num) hk
  simp [Nat.mod_eq_of_lt hk, Nat.shiftLeft_eq]
  exact hpow

/-- The C test `x & (1 << k)` is non-zero exactly when bit `k` is set. -/
theorem and_shiftLeft_ne_zero (x : UInt32) (k : UInt32) (hk : k.toNat < 32) :
    x &&& ((1 : UInt32) <<< k) ≠ 0 ↔ x.toNat / 2 ^ k.toNat % 2 = 1 := by
  rw [ne_eq, ← UInt32.toNat_inj, UInt32.toNat_and, toNat_one_shiftLeft k hk, Nat.and_comm, Nat.two_pow_and,
    Nat.testBit_eq_decide_div_mod_eq]
  cases h : x.toNat / 2 ^ k.toNat % 2 == 1 <;> simp_all

/-- Or-ing bits in and masking them out again gives those bits. -/
theorem or_and_self_right (x b : UInt32) : (x ||| b) &&& b = b := by
  apply UInt32.toNat_inj.mp
  rw [UInt32.toNat_and, UInt32.toNat_or]
  apply Nat.eq_of_testBit_eq
  intro i
  simp only [Nat.testBit_and, Nat.testBit_or]
  cases x.toNat.testBit i <;> cases b.toNat.testBit i <;> rfl

/-- Masking with `b` after or-ing in `y &&& b` to bits kept by a mask `m`
    disjoint from `b` gives `y &&& b`. -/
theorem and_or_and_mask (x y m b : UInt32) (h : m &&& b = 0) :
    ((x &&& m) ||| (y &&& b)) &&& b = y &&& b := by
  have hb : ∀ i, m.toNat.testBit i = true → b.toNat.testBit i = false := by
    intro i hi
    have h0 := congrArg (fun z : UInt32 => z.toNat.testBit i) h
    simp only [UInt32.toNat_and, Nat.testBit_and, hi, Bool.true_and, UInt32.toNat_zero,
      Nat.zero_testBit] at h0
    exact h0
  apply UInt32.toNat_inj.mp
  simp only [UInt32.toNat_and, UInt32.toNat_or]
  apply Nat.eq_of_testBit_eq
  intro i
  simp only [Nat.testBit_and, Nat.testBit_or]
  cases hm : m.toNat.testBit i
  · simp
  · simp [hb i hm]

/-- Bits that neither the mask `m` kept from `x` nor `y` has stay clear. -/
theorem and_or_and_eq_zero (x m y b : UInt32) (hm : m &&& b = 0) (hy : y &&& b = 0) :
    ((x &&& m) ||| y) &&& b = 0 := by
  have hdist : ((x &&& m) ||| y) &&& b = (x &&& (m &&& b)) ||| (y &&& b) := by
    apply UInt32.toBitVec_inj.mp
    simp only [UInt32.toBitVec_and, UInt32.toBitVec_or]
    rw [BitVec.and_or_distrib_right, BitVec.and_assoc]
  rw [hdist, hm, hy, UInt32.and_zero, UInt32.or_zero]

/-- Masking with bits `j .. n-1` clears the low `j` bits of an `n`-bit word. -/
theorem toNat_and_highBits (x : UInt32) (j n : Nat) (hj : j ≤ n) (hn : n ≤ 32)
    (hx : x.toNat < 2 ^ n) :
    (x &&& UInt32.ofNat (2 ^ n - 2 ^ j)).toNat = x.toNat / 2 ^ j * 2 ^ j := by
  have hmask : 2 ^ n - 2 ^ j = (2 ^ (n - j) - 1) * 2 ^ j := by
    rw [Nat.sub_mul, ← Nat.pow_add, Nat.sub_add_cancel hj, Nat.one_mul]
  have hlt : 2 ^ n - 2 ^ j < 2 ^ 32 := by
    have h32 : 2 ^ n ≤ 2 ^ 32 := Nat.pow_le_pow_right (by norm_num) hn
    have hpos : 0 < 2 ^ j := Nat.two_pow_pos j
    omega
  rw [UInt32.toNat_and, UInt32.toNat_ofNat', Nat.mod_eq_of_lt hlt, hmask]
  apply Nat.eq_of_testBit_eq
  intro i
  rw [Nat.testBit_and, Nat.testBit_mul_two_pow, Nat.testBit_mul_two_pow, Nat.testBit_two_pow_sub_one,
    Nat.testBit_div_two_pow]
  by_cases hji : j ≤ i
  · have hi : i - j + j = i := by omega
    rw [hi]
    by_cases hin : i < n
    · simp [hji, show i - j < n - j by omega]
    · have hfalse : x.toNat.testBit i = false :=
        Nat.testBit_eq_false_of_lt (lt_of_lt_of_le hx (Nat.pow_le_pow_right (by norm_num) (by omega)))
      simp [hfalse]
  · simp [hji]

/-- `(x << 1) | b` for a bit `b`: the doubled word with `b` in bit 0. -/
theorem toNat_shiftLeft_one_or (x b : UInt32) (hb : b.toNat < 2) :
    ((x <<< 1) ||| b).toNat = 2 * (x.toNat % 2 ^ 31) + b.toNat := by
  have hshift : (x <<< 1).toNat = 2 ^ 1 * (x.toNat % 2 ^ 31) := by
    rw [UInt32.toNat_shiftLeft]
    simp only [UInt32.reduceToNat, Nat.reduceMod, Nat.shiftLeft_eq]
    omega
  rw [UInt32.toNat_or, hshift, ← Nat.two_pow_add_eq_or_of_lt (by simpa using hb)]

/-- `ctz32`: the number of trailing zero bits of a word, 32 for 0. -/
def ctz32 (x : UInt32) : UInt32 :=
  (((List.range 32).find? fun i => x.toNat.testBit i).getD 32).toUInt32

/-- `GET_MASK(v, mask)`: the field of `v` under `mask`, shifted down to bit 0. -/
def getMask (v mask : UInt32) : UInt32 := (v &&& mask) >>> ctz32 mask

/-- `SET_MASK(v, mask, val)`: `v` with the field under `mask` replaced by the
    low bits of `val`. -/
def setMask (v mask val : UInt32) : UInt32 := (v &&& ~~~mask) ||| ((val <<< ctz32 mask) &&& mask)

/-- Setting a field leaves every bit outside its mask as it was. -/
theorem setMask_and_of_disjoint {v mask val m : UInt32} (h : mask &&& m = 0) :
    setMask v mask val &&& m = v &&& m := by
  apply UInt32.toBitVec_inj.mp
  -- the hypothesis, bit by bit: no bit is set in both masks
  have hbit : ∀ i (hi : i < 32), mask.toBitVec[i] = true → m.toBitVec[i] = false := by
    intro i hi hm
    have := congrArg (fun x : UInt32 => x.toBitVec[i]) h
    simp only [UInt32.toBitVec_and, BitVec.getElem_and, hm, Bool.true_and,
      UInt32.toBitVec_zero, BitVec.getElem_zero] at this
    exact this
  ext i hi
  simp only [setMask, UInt32.toBitVec_and, UInt32.toBitVec_or, UInt32.toBitVec_not,
    BitVec.getElem_and, BitVec.getElem_or, BitVec.getElem_not]
  cases hm : mask.toBitVec[i]
  · simp
  · simp [hbit i hi hm]

theorem setMask_and_self (v mask val : UInt32) :
    setMask v mask val &&& mask = (val <<< ctz32 mask) &&& mask := by
  apply UInt32.toBitVec_inj.mp
  ext i hi
  simp only [setMask, UInt32.toBitVec_and, UInt32.toBitVec_or, UInt32.toBitVec_not,
    BitVec.getElem_and, BitVec.getElem_or, BitVec.getElem_not]
  cases mask.toBitVec[i] <;> simp

/-- A field is at most its mask shifted down. -/
theorem getMask_toNat_le (v mask : UInt32) : (getMask v mask).toNat ≤ (getMask mask mask).toNat := by
  simp only [getMask, UInt32.and_self, UInt32.toNat_shiftRight, UInt32.toNat_and,
    Nat.shiftRight_eq_div_pow]
  exact Nat.div_le_div_right Nat.and_le_right

theorem getMask_setMask_of_disjoint {v mask val m : UInt32} (h : mask &&& m = 0) :
    getMask (setMask v mask val) m = getMask v m := by
  rw [getMask, getMask, setMask_and_of_disjoint h]

theorem getMask_setMask_self (v mask val : UInt32) :
    getMask (setMask v mask val) mask = getMask (val <<< ctz32 mask) mask := by
  rw [getMask, getMask, setMask_and_self]

/-! Words computed without wrap-around: each equation holds when the
    unbounded value is below `2 ^ 32`. -/

theorem toNat_add_of_lt {a b : UInt32} (h : a.toNat + b.toNat < 2 ^ 32) :
    (a + b).toNat = a.toNat + b.toNat := by
  rw [UInt32.toNat_add, Nat.mod_eq_of_lt h]

theorem toNat_mul_of_lt {a b : UInt32} (h : a.toNat * b.toNat < 2 ^ 32) :
    (a * b).toNat = a.toNat * b.toNat := by
  rw [UInt32.toNat_mul, Nat.mod_eq_of_lt h]

theorem toNat_sub_mul_of_lt {a b k : UInt32} (hb : b.toNat ≤ a.toNat)
    (h : (a.toNat - b.toNat) * k.toNat < 2 ^ 32) :
    ((a - b) * k).toNat = (a.toNat - b.toNat) * k.toNat := by
  have hsub := UInt32.toNat_sub_of_le _ _ (UInt32.le_iff_toNat_le.mpr hb)
  rw [toNat_mul_of_lt (by rwa [hsub]), hsub]

theorem toNat_div_mul_of_lt {a d k : UInt32} (h : a.toNat / d.toNat * k.toNat < 2 ^ 32) :
    (a / d * k).toNat = a.toNat / d.toNat * k.toNat := by
  rw [toNat_mul_of_lt (by rwa [UInt32.toNat_div]), UInt32.toNat_div]

theorem toNat_sub_div_mul_of_lt {a b d k : UInt32} (hb : b.toNat ≤ a.toNat)
    (h : (a.toNat - b.toNat) / d.toNat * k.toNat < 2 ^ 32) :
    ((a - b) / d * k).toNat = (a.toNat - b.toNat) / d.toNat * k.toNat := by
  have hsub := UInt32.toNat_sub_of_le _ _ (UInt32.le_iff_toNat_le.mpr hb)
  rw [toNat_div_mul_of_lt (by rwa [hsub]), hsub]

/-- A running 32-bit total that never reaches `2 ^ 32` is the plain sum. -/
theorem toNat_foldl_add {α : Type _} (f : α → UInt32) (l : List α) (init : UInt32)
    (h : init.toNat + (l.map fun x => (f x).toNat).sum < 2 ^ 32) :
    (l.foldl (fun total x => total + f x) init).toNat =
      init.toNat + (l.map fun x => (f x).toNat).sum := by
  induction l generalizing init with
  | nil => simp
  | cons x l ih =>
    simp only [List.foldl_cons, List.map_cons, List.sum_cons] at h ⊢
    have hstep : (init + f x).toNat = init.toNat + (f x).toNat := by
      rw [UInt32.toNat_add, Nat.mod_eq_of_lt (by omega)]
    rw [ih _ (by rw [hstep]; omega), hstep, Nat.add_assoc]

/-- A `w`-bit down counter kept in a 32-bit register, `x = (x - 1) & BITMASK(w)`:
    from `(r + 1) mod 2^w` it reaches `r`, so that 0 stands for `2^w`. -/
theorem toNat_sub_one_and_bitmask (w : Nat) (hw : w ≤ 32) (x : UInt32) (r : Nat)
    (hr : r < 2 ^ w) (hx : x.toNat = (r + 1) % 2 ^ w) :
    ((x - 1) &&& bitmask w).toNat = r := by
  have hpow : 2 ^ w ≤ 2 ^ 32 := Nat.pow_le_pow_right (by norm_num) hw
  rw [UInt32.toNat_and, toNat_bitmask w hw, Nat.and_two_pow_sub_one_eq_mod, UInt32.toNat_sub, hx]
  simp only [UInt32.reduceToNat]
  by_cases hwrap : r + 1 = 2 ^ w
  · rw [hwrap, Nat.mod_self]
    have hmod : (2 ^ 32 - 1 + 0) % 2 ^ 32 % 2 ^ w = 2 ^ w - 1 := by
      interval_cases w <;> norm_num
    omega
  · have hlt : r + 1 < 2 ^ w := by omega
    rw [Nat.mod_eq_of_lt hlt]
    have hsub : (2 ^ 32 - 1 + (r + 1)) % 2 ^ 32 = r := by omega
    rw [hsub, Nat.mod_eq_of_lt hr]

/-! ## Section 2: Limbs with carry and borrow

    A limb of `k < 32` bits is kept in a 32-bit register, so one
    addition or subtraction of two limbs (and a carry or borrow) never
    loses information: the 32-bit result carries the outgoing carry or
    borrow in bit `k`. -/

section limbs

variable {k : Nat}

/-- The carry out of a limb addition is bit `k` of the (non-wrapping) sum. -/
theorem carry_bit (a b c : Nat) (ha : a < 2 ^ k) (hb : b < 2 ^ k) (hc : c ≤ 1) :
    (a + b + c) / 2 ^ k % 2 = (a + b + c) / 2 ^ k := by
  have hsum : a + b + c < 2 * 2 ^ k := by omega
  have hq : (a + b + c) / 2 ^ k < 2 := Nat.div_lt_of_lt_mul (by rw [Nat.mul_comm]; exact hsum)
  exact Nat.mod_eq_of_lt hq

/-- A 32-bit wrapped subtraction of at most `2 ^ k` from a `k`-bit limb:
    either no borrow, or a wrap to `2 ^ 32 - (b - a)`, whose bits from `k`
    upwards are all set. -/
theorem wrap_sub_eq (a b : Nat) (hk : k < 32) (ha : a < 2 ^ k) (hb : b ≤ 2 ^ k) :
    (2 ^ 32 - b + a) % 2 ^ 32 =
      if a < b then 2 ^ k * (2 ^ (32 - k) - 1) + (2 ^ k - (b - a)) else a - b := by
  have hpow : 2 ^ k * 2 ^ (32 - k) = 2 ^ 32 := by
    rw [← Nat.pow_add]; congr 1; omega
  have hk32 : 2 ^ k < 2 ^ 32 := Nat.pow_lt_pow_right (by norm_num) hk
  split_ifs with hlt
  · have hlo : 2 ^ 32 - b + a < 2 ^ 32 := by omega
    rw [Nat.mod_eq_of_lt hlo, Nat.mul_sub, Nat.mul_one, hpow]
    omega
  · rw [show 2 ^ 32 - b + a = (a - b) + 2 ^ 32 by omega, Nat.add_mod_right,
      Nat.mod_eq_of_lt (by omega)]

/-- The borrow of a wrapped limb subtraction is bit `k` of the result. -/
theorem borrow_bit (a b : Nat) (hk : k < 32) (ha : a < 2 ^ k) (hb : b ≤ 2 ^ k) :
    (2 ^ 32 - b + a) % 2 ^ 32 / 2 ^ k % 2 = if a < b then 1 else 0 := by
  have hhi : 2 ≤ 2 ^ (32 - k) := by
    calc 2 = 2 ^ 1 := by norm_num
      _ ≤ 2 ^ (32 - k) := Nat.pow_le_pow_right (by norm_num) (by omega)
  rw [wrap_sub_eq a b hk ha hb]
  split_ifs with hlt
  · rw [Nat.mul_add_div (Nat.two_pow_pos k), Nat.div_eq_of_lt (by omega), Nat.add_zero]
    have heven : 2 ^ (32 - k) % 2 = 0 := by
      obtain ⟨j, hj⟩ : ∃ j, 32 - k = j + 1 := ⟨31 - k, by omega⟩
      rw [hj, Nat.pow_succ, Nat.mul_mod_left]
    omega
  · rw [Nat.div_eq_of_lt (by omega)]

/-- The low `k` bits of a wrapped limb subtraction: the difference, with
    `2 ^ k` borrowed from the next limb when the subtrahend is larger. -/
theorem borrow_low (a b : Nat) (hk : k < 32) (ha : a < 2 ^ k) (hb : b ≤ 2 ^ k) :
    (2 ^ 32 - b + a) % 2 ^ 32 % 2 ^ k = a + (if a < b then 2 ^ k else 0) - b := by
  rw [wrap_sub_eq a b hk ha hb]
  split_ifs with hlt
  · rw [Nat.mul_add_mod, Nat.mod_eq_of_lt (by omega)]
    omega
  · rw [Nat.mod_eq_of_lt (by omega)]
    omega

end limbs

/-! ## Section 3: Two's complement

    A value `v < 2 ^ (n + 1)` read as a signed number of width `n + 1`.
    The sign bit is `v / 2 ^ n`. -/

/-- The signed reading of an `(n + 1)`-bit two's-complement value. -/
def toSigned (n v : Nat) : Int :=
  if 2 ^ n ≤ v then (v : Int) - 2 ^ (n + 1) else v

/-- A signed number fits in `n + 1` bits. -/
def FitsSigned (n : Nat) (x : Int) : Prop := -(2 : Int) ^ n ≤ x ∧ x < 2 ^ n

instance (n : Nat) (x : Int) : Decidable (FitsSigned n x) :=
  inferInstanceAs (Decidable (_ ∧ _))

section twos

variable {n : Nat}

theorem sign_bit_eq (v : Nat) (hv : v < 2 ^ (n + 1)) :
    v / 2 ^ n = if 2 ^ n ≤ v then 1 else 0 := by
  have hpos : 0 < 2 ^ n := Nat.two_pow_pos n
  rw [Nat.pow_succ] at hv
  split_ifs with h
  · exact (Nat.div_eq_iff hpos).2 ⟨by omega, by omega⟩
  · exact Nat.div_eq_of_lt (by omega)

/-- A sign-extended word is its magnitude with the sign of its top bit. -/
theorem toSigned_eq_ite_natAbs (v : Nat) (hv : v < 2 ^ (n + 1)) :
    toSigned n v = if 2 ^ n ≤ v then -((toSigned n v).natAbs : Int) else (toSigned n v).natAbs := by
  have hv' : (v : Int) < 2 ^ (n + 1) := by exact_mod_cast hv
  unfold toSigned
  split_ifs with h
  · rw [Int.ofNat_natAbs_of_nonpos (by omega)]
    ring
  · rw [Int.natAbs_natCast]

/-- Sign-bit overflow test of an addition: the sum overflows iff both
    operands' sign bits differ from the result's. -/
theorem add_overflow_iff (a b : Nat) (ha : a < 2 ^ (n + 1)) (hb : b < 2 ^ (n + 1)) :
    (a / 2 ^ n ≠ (a + b) % 2 ^ (n + 1) / 2 ^ n ∧ b / 2 ^ n ≠ (a + b) % 2 ^ (n + 1) / 2 ^ n) ↔
      ¬ FitsSigned n (toSigned n a + toSigned n b) := by
  have hr : (a + b) % 2 ^ (n + 1) < 2 ^ (n + 1) := Nat.mod_lt _ (Nat.two_pow_pos _)
  rw [sign_bit_eq a ha, sign_bit_eq b hb, sign_bit_eq _ hr]
  have hpow : (2 : Nat) ^ (n + 1) = 2 * 2 ^ n := by rw [Nat.pow_succ, Nat.mul_comm]
  have hpowI : (2 : Int) ^ (n + 1) = 2 * 2 ^ n := by rw [pow_succ, mul_comm]
  have hmod : (a + b) % (2 * 2 ^ n) = if a + b < 2 * 2 ^ n then a + b else a + b - 2 * 2 ^ n := by
    split_ifs with h
    · exact Nat.mod_eq_of_lt h
    · rw [Nat.mod_eq_sub_mod (by omega), Nat.mod_eq_of_lt (by omega)]
  rw [hpow] at hr ⊢
  rw [hmod]
  simp only [toSigned, FitsSigned, hpowI]
  have hP : (0 : Int) < 2 ^ n := by positivity
  have hcast : ((2 ^ n : Nat) : Int) = 2 ^ n := by push_cast; rfl
  split_ifs <;> omega

/-- Sign-bit overflow test of a subtraction `a - b`: it overflows iff the
    operands' sign bits differ and the result's differs from `a`'s. -/
theorem sub_overflow_iff (a b : Nat) (ha : a < 2 ^ (n + 1)) (hb : b < 2 ^ (n + 1)) :
    (b / 2 ^ n ≠ a / 2 ^ n ∧
        (2 ^ (n + 1) - b + a) % 2 ^ (n + 1) / 2 ^ n ≠ a / 2 ^ n) ↔
      ¬ FitsSigned n (toSigned n a - toSigned n b) := by
  have hr : (2 ^ (n + 1) - b + a) % 2 ^ (n + 1) < 2 ^ (n + 1) := Nat.mod_lt _ (Nat.two_pow_pos _)
  rw [sign_bit_eq a ha, sign_bit_eq b hb, sign_bit_eq _ hr]
  have hpow : (2 : Nat) ^ (n + 1) = 2 * 2 ^ n := by rw [Nat.pow_succ, Nat.mul_comm]
  have hpowI : (2 : Int) ^ (n + 1) = 2 * 2 ^ n := by rw [pow_succ, mul_comm]
  rw [hpow] at hr ha hb ⊢
  have hmod : (2 * 2 ^ n - b + a) % (2 * 2 ^ n) =
      if b ≤ a then a - b else 2 * 2 ^ n - b + a := by
    split_ifs with h
    · rw [show 2 * 2 ^ n - b + a = (a - b) + 2 * 2 ^ n by omega, Nat.add_mod_right,
        Nat.mod_eq_of_lt (by omega)]
    · exact Nat.mod_eq_of_lt (by omega)
  rw [hmod]
  simp only [toSigned, FitsSigned, hpowI]
  have hP : (0 : Int) < 2 ^ n := by positivity
  have hcast : ((2 ^ n : Nat) : Int) = 2 ^ n := by push_cast; rfl
  split_ifs <;> omega

end twos

/-! ## Section 4: `uint64_t` shifts and masks

    The amount of a 64-bit shift is read mod 64; below 64, and when the
    shifted value does not leave the word, the shifts are `* 2 ^ k` and
    `/ 2 ^ k`. -/

theorem toNat_shiftLeft64 (x : UInt64) (k : Nat) (hk : k < 64) (h : x.toNat * 2 ^ k < 2 ^ 64) :
    (x <<< UInt64.ofNat k).toNat = x.toNat * 2 ^ k := by
  rw [UInt64.toNat_shiftLeft, UInt64.toNat_ofNat', Nat.mod_eq_of_lt (by omega : k < 2 ^ 64),
    Nat.mod_eq_of_lt hk, Nat.shiftLeft_eq, Nat.mod_eq_of_lt h]

/-- A left shift that may leave the word keeps the low 64 bits. -/
theorem toNat_shiftLeft64_mod (x : UInt64) (k : Nat) (hk : k < 64) :
    (x <<< UInt64.ofNat k).toNat = x.toNat * 2 ^ k % 2 ^ 64 := by
  rw [UInt64.toNat_shiftLeft, UInt64.toNat_ofNat', Nat.mod_eq_of_lt (by omega : k < 2 ^ 64),
    Nat.mod_eq_of_lt hk, Nat.shiftLeft_eq]

theorem toNat_shiftRight64 (x : UInt64) (k : Nat) (hk : k < 64) :
    (x >>> UInt64.ofNat k).toNat = x.toNat / 2 ^ k := by
  rw [UInt64.toNat_shiftRight, UInt64.toNat_ofNat', Nat.mod_eq_of_lt (by omega : k < 2 ^ 64),
    Nat.mod_eq_of_lt hk, Nat.shiftRight_eq_div_pow]

/-- Masking with `BITMASK(k)` keeps the low `k` bits. -/
theorem toNat_and_lowMask64 (x : UInt64) (k : Nat) (hk : k ≤ 64) :
    (x &&& UInt64.ofNat (2 ^ k - 1)).toNat = x.toNat % 2 ^ k := by
  have hpow : 2 ^ k ≤ 2 ^ 64 := Nat.pow_le_pow_right (by norm_num) hk
  have hpos : 0 < 2 ^ k := Nat.two_pow_pos k
  rw [UInt64.toNat_and, UInt64.toNat_ofNat', Nat.mod_eq_of_lt (by omega),
    Nat.and_two_pow_sub_one_eq_mod]

/-! ## Section 5: Fixed-point rounding

    `roundHalfEven x k` is the convergent rounding of the fixed-point value
    `x / 2 ^ k` to an integer.  Hardware forms it by adding half a unit and
    truncating, and repairs the ties afterwards. -/

/-- Round-half-to-even of `x / 2 ^ k`: the nearest integer, and the even
    one of the two nearest on a tie. -/
def roundHalfEven (x k : Nat) : Nat :=
  let q := x / 2 ^ k
  let r := x % 2 ^ k
  if 2 * r < 2 ^ k then q
  else if 2 ^ k < 2 * r then q + 1
  else if q % 2 = 0 then q else q + 1

/-- Convergent rounding as hardware does it: add half a unit, truncate, and
    when the truncated bits are all zero (a tie) clear the lowest kept bit. -/
theorem roundHalfEven_eq_add_half (x j : Nat) :
    roundHalfEven x (j + 1) =
      (x + 2 ^ j) / 2 ^ (j + 1) -
        (if (x + 2 ^ j) % 2 ^ (j + 1) = 0 then (x + 2 ^ j) / 2 ^ (j + 1) % 2 else 0) := by
  have hpow : 2 ^ (j + 1) = 2 * 2 ^ j := by rw [Nat.pow_succ, Nat.mul_comm]
  unfold roundHalfEven
  dsimp only
  rw [hpow]
  have hK : 0 < 2 ^ j := Nat.two_pow_pos j
  generalize 2 ^ j = K at hK ⊢
  -- `x = 2K·q + r`, and adding `K` carries into `q` exactly when `r ≥ K`
  have hdm := Nat.mod_add_div x (2 * K)
  have hr := Nat.mod_lt x (show 0 < 2 * K by omega)
  generalize x / (2 * K) = q at hdm ⊢
  generalize x % (2 * K) = r at hdm hr ⊢
  by_cases hlow : r < K
  · obtain ⟨hq, hrem⟩ := (Nat.div_mod_unique (show 0 < 2 * K by omega)).mpr
      (show r + K + 2 * K * q = x + K ∧ r + K < 2 * K by omega)
    rw [hq, hrem, if_pos (by omega), if_neg (by omega)]
    omega
  · have hsucc : 2 * K * (q + 1) = 2 * K * q + 2 * K := by ring
    obtain ⟨hq, hrem⟩ := (Nat.div_mod_unique (show 0 < 2 * K by omega)).mpr
      (show r - K + 2 * K * (q + 1) = x + K ∧ r - K < 2 * K by omega)
    rw [hq, hrem, if_neg (by omega)]
    split_ifs <;> omega

example : roundHalfEven 5 1 = 2 ∧ roundHalfEven 7 1 = 4 ∧ roundHalfEven 6 2 = 2 := by decide

/-- The finishing step of add-half rounding at bit `k`: truncate below bit
    `k`, and on a tie (nothing left below bit `k`) clear bit `k` as well. -/
def truncTie (s k : Nat) : Nat :=
  (s / 2 ^ k - (if s % 2 ^ k = 0 then s / 2 ^ k % 2 else 0)) * 2 ^ k

/-- The finishing step commutes with keeping the low `m` bits of the sum. -/
theorem truncTie_mod_pow (y k m : Nat) (hkm : k < m) :
    truncTie (y % 2 ^ m) k = truncTie y k % 2 ^ m := by
  obtain ⟨l, rfl⟩ : ∃ l, m = k + (l + 1) := ⟨m - k - 1, by omega⟩
  have hdvd : 2 ^ k ∣ 2 ^ (k + (l + 1)) := Nat.pow_dvd_pow 2 (by omega)
  have hsplit : 2 ^ (k + (l + 1)) = 2 ^ k * (2 * 2 ^ l) := by rw [pow_add, pow_succ]; ring
  unfold truncTie
  rw [Nat.mod_mod_of_dvd _ hdvd, hsplit, Nat.mod_mul_right_div_self,
    Nat.mul_comm (2 ^ k) (2 * 2 ^ l), Nat.mul_mod_mul_right]
  congr 1
  generalize y / 2 ^ k = q
  -- the quotient mod `2 · 2^l` keeps the parity of `q`
  have hmod : q % (2 * 2 ^ l) = q % 2 + 2 * (q / 2 % 2 ^ l) := Nat.mod_mul
  have hmod' : (q - q % 2) % (2 * 2 ^ l) = 2 * (q / 2 % 2 ^ l) := by
    rw [show q - q % 2 = 2 * (q / 2) by omega, Nat.mul_mod_mul_left]
  split_ifs
  · rw [hmod', hmod]
    omega
  · simp

/-- Convergent rounding in `m`-bit wrap-around arithmetic: add half a unit
    mod `2 ^ m`, then finish with `truncTie`. -/
theorem roundHalfEven_mod_pow (x j m : Nat) (hjm : j + 1 < m) :
    roundHalfEven x (j + 1) * 2 ^ (j + 1) % 2 ^ m = truncTie ((x + 2 ^ j) % 2 ^ m) (j + 1) := by
  rw [truncTie_mod_pow _ _ _ hjm, roundHalfEven_eq_add_half, truncTie]

/-! ## Section 6: `int16_t` and `uint16_t`

    Converting between the two 16-bit types keeps the bits; `toInt` reads
    them in two's complement.  Sums and differences equal the integer ones
    while they stay in `[-2 ^ 15, 2 ^ 15)`. -/

/-- The `int16_t` value of a `uint16_t`. -/
theorem toInt_toInt16 (x : UInt16) :
    x.toInt16.toInt = if x.toNat < 2 ^ 15 then (x.toNat : Int) else x.toNat - 2 ^ 16 := by
  have hlt := x.toBitVec.isLt
  rw [← Int16.toInt_toBitVec, UInt16.toBitVec_toInt16, BitVec.toInt_eq_toNat_cond,
    UInt16.toNat_toBitVec] at *
  split_ifs <;> omega

/-- The `uint16_t` bits of an `int16_t`, as an integer. -/
theorem toNat_toUInt16_eq_emod (x : Int16) : (x.toUInt16.toNat : Int) = x.toInt % 2 ^ 16 := by
  have hlt := x.toBitVec.isLt
  rw [← Int16.toInt_toBitVec, ← Int16.toNat_toBitVec, BitVec.toInt_eq_toNat_cond]
  split_ifs <;> omega

theorem toInt_add_of_fits (a b : Int16) (h1 : -2 ^ 15 ≤ a.toInt + b.toInt)
    (h2 : a.toInt + b.toInt < 2 ^ 15) : (a + b).toInt = a.toInt + b.toInt := by
  rw [Int16.toInt_add]
  exact Int.bmod_eq_of_le (by norm_num; omega) (by norm_num; omega)

theorem toInt_sub_of_fits (a b : Int16) (h1 : -2 ^ 15 ≤ a.toInt - b.toInt)
    (h2 : a.toInt - b.toInt < 2 ^ 15) : (a - b).toInt = a.toInt - b.toInt := by
  rw [Int16.toInt_sub]
  exact Int.bmod_eq_of_le (by norm_num; omega) (by norm_num; omega)

/-- A `uint32_t` converted to `int32_t` keeps its bits. -/
theorem toInt32_eq_ofNat (u : UInt32) : u.toInt32 = Int32.ofNat u.toNat := by
  rw [← UInt32.toInt32_ofNat', UInt32.ofNat_toNat]

/-- A natural below `2 ^ 31` is its own `int32_t` value. -/
theorem toInt_ofNat32_of_lt (n : Nat) (h : n < 2 ^ 31) : (Int32.ofNat n).toInt = n := by
  rw [Int32.toInt_ofNat']
  exact Int.bmod_eq_of_le (by simp [Int32.size]) (by simp [Int32.size]; omega)

/-- A loop bound below `2 ^ 31` counts that many iterations. -/
theorem toNatClampNeg_ofNat_of_lt (n : Nat) (h : n < 2 ^ 31) :
    (Int32.ofNat n).toNatClampNeg = n := by
  rw [Int32.toNatClampNeg, toInt_ofNat32_of_lt n h]
  simp

end Xemu.Word
