import Mathlib

/-! # Bit deposit and extract over a mask

    `deposit w k m` scatters the low bits of `k` into the set bits of the
    mask `m` (the `pdep` operation), looking at the lowest `w` bit
    positions; `extract w o m` gathers them back (`pext`).  Both are
    defined by recursion on the width, one bit position at a time, so
    they evaluate by `decide` and every proof below is an induction on
    `w` that splits on the lowest bit of the mask.

    The main facts:
    - `maskedInc_deposit`: the masked-increment trick
      `o' = (o - m) & m` in `w`-bit arithmetic steps `deposit k` to
      `deposit (k + 1)`;
    - `extract_deposit`: `extract` inverts `deposit` below
      `2 ^ bitCount w m`;
    - deposits into bit-disjoint masks are bit-disjoint, and `extract`
      is additive over bit-disjoint sums, so a sum of deposits into
      disjoint masks determines each component.

    Nothing here mentions a particular program.
-/

namespace Xemu.Deposit

/-! ## Section 1: Definitions -/

/-- The number of set bits of `m` among its lowest `w` bits. -/
def bitCount : Nat → Nat → Nat
  | 0, _ => 0
  | w + 1, m => m % 2 + bitCount w (m / 2)

/-- Scatter the low bits of `k`, in order, into the set bits of `m`. -/
def deposit : Nat → Nat → Nat → Nat
  | 0, _, _ => 0
  | w + 1, k, m =>
    if m % 2 = 1 then 2 * deposit w (k / 2) (m / 2) + k % 2
    else 2 * deposit w k (m / 2)

/-- Gather the bits of `o` at the set bits of `m`, in order. -/
def extract : Nat → Nat → Nat → Nat
  | 0, _, _ => 0
  | w + 1, o, m =>
    if m % 2 = 1 then 2 * extract w (o / 2) (m / 2) + o % 2
    else extract w (o / 2) (m / 2)

/-- The masked increment `(o - m) & m` of `w`-bit unsigned arithmetic. -/
def maskedInc (w m o : Nat) : Nat := (2 ^ w - m + o) % 2 ^ w &&& m

/-! ## Section 2: Bits of `&&&` one position at a time -/

/-- `&&&` splits into its lowest bit and the rest. -/
theorem and_eq_two_mul_add (a b : Nat) :
    a &&& b = 2 * (a / 2 &&& b / 2) + a % 2 * (b % 2) := by
  have hsplit := Nat.div_add_mod (a &&& b) 2
  rw [Nat.and_div_two] at hsplit
  have hlow : (a &&& b) % 2 = a % 2 * (b % 2) := by
    have h := Nat.and_mod_two_pow (a := a) (b := b) (n := 1)
    simp only [pow_one] at h
    rw [h]
    rcases Nat.mod_two_eq_zero_or_one a with ha | ha <;>
      rcases Nat.mod_two_eq_zero_or_one b with hb | hb <;>
      simp [ha, hb]
  omega

/-- `&&&` of two numbers given by their halves and low bits. -/
theorem and_of_halves {a b a' b' la lb : Nat} (ha : a = 2 * a' + la) (hb : b = 2 * b' + lb)
    (hla : la < 2) (hlb : lb < 2) : a &&& b = 2 * (a' &&& b') + la * lb := by
  rw [and_eq_two_mul_add, show a / 2 = a' by omega, show b / 2 = b' by omega,
    show a % 2 = la by omega, show b % 2 = lb by omega]

/-- Bit-disjointness, one position at a time. -/
theorem and_eq_zero_iff (a b : Nat) :
    a &&& b = 0 ↔ a % 2 * (b % 2) = 0 ∧ a / 2 &&& b / 2 = 0 := by
  rw [and_eq_two_mul_add]; omega

/-- On bit-disjoint numbers `^^^` is addition: there are no carries. -/
theorem xor_eq_add_of_and_eq_zero (a b : Nat) (h : a &&& b = 0) : a ^^^ b = a + b := by
  induction a using Nat.strong_induction_on generalizing b with
  | _ a ih =>
    rcases Nat.eq_zero_or_pos a with rfl | ha
    · simp
    rw [and_eq_zero_iff] at h
    obtain ⟨hlow, hrest⟩ := h
    have hsplit := Nat.div_add_mod (a ^^^ b) 2
    rw [Nat.xor_div_two, ih (a / 2) (by omega) (b / 2) hrest, Nat.xor_mod_two_eq] at hsplit
    rcases Nat.mod_two_eq_zero_or_one a with ha2 | ha2 <;>
      rcases Nat.mod_two_eq_zero_or_one b with hb2 | hb2 <;>
      simp only [ha2, hb2] at hlow <;> omega

/-- On bit-disjoint numbers `|||` is addition too. -/
theorem or_eq_add_of_and_eq_zero (a b : Nat) (h : a &&& b = 0) : a ||| b = a + b := by
  rw [← xor_eq_add_of_and_eq_zero a b h]
  apply Nat.eq_of_testBit_eq
  intro i
  have hi := congrArg (Nat.testBit · i) h
  simp only [Nat.testBit_and, Nat.zero_testBit, Bool.and_eq_false_iff] at hi
  rw [Nat.testBit_or, Nat.testBit_xor]
  rcases hi with hi | hi <;> simp [hi]

/-- A sum of bit-disjoint numbers is disjoint from what both are. -/
theorem add_and_eq_zero (a b c : Nat) (hab : a &&& b = 0) (hac : a &&& c = 0)
    (hbc : b &&& c = 0) : (a + b) &&& c = 0 := by
  rw [← xor_eq_add_of_and_eq_zero a b hab, Nat.and_xor_distrib_right, hac, hbc, Nat.zero_xor]

/-- A bit `n` set above a number below `2 ^ n` stays disjoint from
    anything below `2 ^ n` that the number was disjoint from. -/
theorem two_pow_add_and_eq_zero (n x u : Nat) (hx : x < 2 ^ n) (hu : u < 2 ^ n)
    (h : x &&& u = 0) : (2 ^ n + x) &&& u = 0 := by
  have hlt : (2 ^ n + x) &&& u < 2 ^ n := lt_of_le_of_lt Nat.and_le_right hu
  rw [← Nat.mod_eq_of_lt hlt, Nat.and_mod_two_pow, Nat.add_mod_left, Nat.mod_eq_of_lt hx,
    Nat.mod_eq_of_lt hu, h]

/-! ## Section 3: Deposit -/

section deposit

variable {w : Nat}

theorem deposit_lt (k m : Nat) : deposit w k m < 2 ^ w := by
  induction w generalizing k m with
  | zero => simp [deposit]
  | succ w ih =>
    have h1 := ih (k / 2) (m / 2)
    have h2 := ih k (m / 2)
    simp only [deposit, Nat.pow_succ]
    split_ifs <;> omega

/-- A deposit is bounded by its mask. -/
theorem deposit_le (k m : Nat) : deposit w k m ≤ m := by
  induction w generalizing k m with
  | zero => simp [deposit]
  | succ w ih =>
    have h1 := ih (k / 2) (m / 2)
    have h2 := ih k (m / 2)
    simp only [deposit]
    split_ifs <;> omega

@[simp] theorem deposit_zero (m : Nat) : deposit w 0 m = 0 := by
  induction w generalizing m with
  | zero => rfl
  | succ w ih => simp [deposit, ih]

/-- A deposit only sets bits of the mask. -/
theorem deposit_and_self (k m : Nat) : deposit w k m &&& m = deposit w k m := by
  induction w generalizing k m with
  | zero => simp [deposit]
  | succ w ih =>
    simp only [deposit]
    split_ifs with hm
    · rw [and_of_halves rfl (show m = 2 * (m / 2) + 1 by omega) (Nat.mod_lt _ (by norm_num))
        (by norm_num), ih, Nat.mul_one]
    · rw [and_of_halves (show 2 * deposit w k (m / 2) = 2 * deposit w k (m / 2) + 0 from rfl)
        (show m = 2 * (m / 2) + 0 by omega) (by norm_num) (by norm_num), ih]
      simp

/-- Deposits into bit-disjoint masks are bit-disjoint. -/
theorem deposit_and_deposit (k k' m m' : Nat) (h : m &&& m' = 0) :
    deposit w k m &&& deposit w k' m' = 0 := by
  induction w generalizing k k' m m' with
  | zero => simp [deposit]
  | succ w ih =>
    rw [and_eq_zero_iff] at h
    obtain ⟨hlow, hrest⟩ := h
    simp only [deposit]
    split_ifs with hm hm'
    · rw [hm, hm'] at hlow; omega
    · rw [and_of_halves rfl
        (show 2 * deposit w k' (m' / 2) = 2 * deposit w k' (m' / 2) + 0 from rfl)
        (Nat.mod_lt _ (by norm_num)) (by norm_num), ih _ _ _ _ hrest]
      simp
    · rw [and_of_halves (show 2 * deposit w k (m / 2) = 2 * deposit w k (m / 2) + 0 from rfl)
        rfl (by norm_num) (Nat.mod_lt _ (by norm_num)), ih _ _ _ _ hrest]
      simp
    · rw [and_of_halves (show 2 * deposit w k (m / 2) = 2 * deposit w k (m / 2) + 0 from rfl)
        (show 2 * deposit w k' (m' / 2) = 2 * deposit w k' (m' / 2) + 0 from rfl)
        (by norm_num) (by norm_num), ih _ _ _ _ hrest]

/-- Filling the complement of `m` and masking back gives the deposit: the
    no-carry half of the masked increment. -/
theorem fill_and_deposit (k m : Nat) (hm : m < 2 ^ w) :
    (2 ^ w - 1 - m + deposit w k m) &&& m = deposit w k m := by
  induction w generalizing k m with
  | zero => simp [deposit]
  | succ w ih =>
    have hpow : 2 ^ (w + 1) = 2 * 2 ^ w := by rw [Nat.pow_succ, Nat.mul_comm]
    have hm2 : m / 2 < 2 ^ w := by omega
    simp only [deposit]
    split_ifs with hbit
    · -- the low mask bit is set, so the complement has a clear low bit
      have hd := deposit_le (w := w) (k / 2) (m / 2)
      have hlo : 2 ^ (w + 1) - 1 - m + (2 * deposit w (k / 2) (m / 2) + k % 2) =
          2 * (2 ^ w - 1 - m / 2 + deposit w (k / 2) (m / 2)) + k % 2 := by omega
      rw [and_of_halves hlo (show m = 2 * (m / 2) + 1 by omega) (Nat.mod_lt _ (by norm_num))
        (by norm_num), ih _ _ hm2, Nat.mul_one]
    · -- the low mask bit is clear, so the complement has a set low bit
      have hd := deposit_le (w := w) k (m / 2)
      have hlo : 2 ^ (w + 1) - 1 - m + 2 * deposit w k (m / 2) =
          2 * (2 ^ w - 1 - m / 2 + deposit w k (m / 2)) + 1 := by omega
      rw [and_of_halves hlo (show m = 2 * (m / 2) + 0 by omega) (by norm_num) (by norm_num),
        ih _ _ hm2, Nat.mul_zero, Nat.add_zero]

/-- The masked-increment trick: in `w`-bit arithmetic, `(o - m) & m` steps
    the deposit of `k` to the deposit of `k + 1`; the carry ripples
    through the bits outside the mask. -/
theorem maskedInc_deposit (k m : Nat) (hm : m < 2 ^ w) :
    maskedInc w m (deposit w k m) = deposit w (k + 1) m := by
  induction w generalizing k m with
  | zero =>
    have : m = 0 := by simpa using hm
    simp [maskedInc, deposit, this]
  | succ w ih =>
    have hpow : 2 ^ (w + 1) = 2 * 2 ^ w := by rw [Nat.pow_succ, Nat.mul_comm]
    have hm2 : m / 2 < 2 ^ w := by omega
    unfold maskedInc at ih ⊢
    simp only [deposit]
    split_ifs with hbit
    · have hd := deposit_le (w := w) (k / 2) (m / 2)
      rcases Nat.mod_two_eq_zero_or_one k with hk | hk
      · -- `k` even: the increment sets the low bit, with no carry
        have hfill := fill_and_deposit (k / 2) (m / 2) hm2
        have hsum : (2 ^ (w + 1) - m + (2 * deposit w (k / 2) (m / 2) + k % 2)) % 2 ^ (w + 1) =
            2 * (2 ^ w - 1 - m / 2 + deposit w (k / 2) (m / 2)) + 1 := by
          rw [Nat.mod_eq_of_lt (by omega)]; omega
        rw [hsum, and_of_halves rfl (show m = 2 * (m / 2) + 1 by omega) (by norm_num) (by norm_num),
          hfill, show (k + 1) / 2 = k / 2 by omega, show (k + 1) % 2 = 1 by omega]
      · -- `k` odd: the low bit clears and the carry moves up one position
        have hsum : (2 ^ (w + 1) - m + (2 * deposit w (k / 2) (m / 2) + k % 2)) % 2 ^ (w + 1) =
            2 * ((2 ^ w - m / 2 + deposit w (k / 2) (m / 2)) % 2 ^ w) + 0 := by
          rw [hpow, show 2 * 2 ^ w - m + (2 * deposit w (k / 2) (m / 2) + k % 2) =
            2 * (2 ^ w - m / 2 + deposit w (k / 2) (m / 2)) by omega, Nat.mul_mod_mul_left]
          omega
        rw [hsum, and_of_halves rfl (show m = 2 * (m / 2) + 1 by omega) (by norm_num) (by norm_num),
          ih _ _ hm2, show (k + 1) / 2 = k / 2 + 1 by omega, show (k + 1) % 2 = 0 by omega]
    · -- the low mask bit is clear: the increment passes it by
      have hd := deposit_le (w := w) k (m / 2)
      have hsum : (2 ^ (w + 1) - m + 2 * deposit w k (m / 2)) % 2 ^ (w + 1) =
          2 * ((2 ^ w - m / 2 + deposit w k (m / 2)) % 2 ^ w) + 0 := by
        rw [hpow, show 2 * 2 ^ w - m + 2 * deposit w k (m / 2) =
          2 * (2 ^ w - m / 2 + deposit w k (m / 2)) by omega, Nat.mul_mod_mul_left]
        omega
      rw [hsum, and_of_halves rfl (show m = 2 * (m / 2) + 0 by omega) (by norm_num) (by norm_num),
        ih _ _ hm2]
      simp

end deposit

/-! ## Section 4: Extract inverts deposit -/

section extract

variable {w : Nat}

theorem extract_deposit (k m : Nat) :
    extract w (deposit w k m) m = k % 2 ^ bitCount w m := by
  induction w generalizing k m with
  | zero => simp [extract, bitCount, Nat.mod_one]
  | succ w ih =>
    simp only [extract, deposit, bitCount]
    split_ifs with hm
    · rw [show (2 * deposit w (k / 2) (m / 2) + k % 2) / 2 = deposit w (k / 2) (m / 2) by omega,
        show (2 * deposit w (k / 2) (m / 2) + k % 2) % 2 = k % 2 by omega, ih, hm,
        show 2 ^ (1 + bitCount w (m / 2)) = 2 * 2 ^ bitCount w (m / 2) by rw [Nat.pow_add, pow_one],
        Nat.mod_mul]
      omega
    · rw [show 2 * deposit w k (m / 2) / 2 = deposit w k (m / 2) by omega, ih]
      simp only [show m % 2 = 0 by omega, Nat.zero_add]

/-- Extracting along a mask disjoint from the deposit's mask gives `0`. -/
theorem extract_deposit_of_disjoint (k m m' : Nat) (h : m &&& m' = 0) :
    extract w (deposit w k m') m = 0 := by
  induction w generalizing k m m' with
  | zero => rfl
  | succ w ih =>
    rw [and_eq_zero_iff] at h
    obtain ⟨hlow, hrest⟩ := h
    simp only [extract, deposit]
    split_ifs with hm hm'
    · rw [hm, hm'] at hlow; omega
    · rw [show 2 * deposit w k (m' / 2) / 2 = deposit w k (m' / 2) by omega,
        show 2 * deposit w k (m' / 2) % 2 = 0 by omega, ih _ _ _ hrest]
    · rw [show (2 * deposit w (k / 2) (m' / 2) + k % 2) / 2 = deposit w (k / 2) (m' / 2) by omega,
        ih _ _ _ hrest]
    · rw [show 2 * deposit w k (m' / 2) / 2 = deposit w k (m' / 2) by omega, ih _ _ _ hrest]

/-- `extract` is additive over bit-disjoint sums (no carries). -/
theorem extract_add (a b m : Nat) (h : a &&& b = 0) :
    extract w (a + b) m = extract w a m + extract w b m := by
  induction w generalizing a b m with
  | zero => rfl
  | succ w ih =>
    rw [and_eq_zero_iff] at h
    obtain ⟨hlow, hrest⟩ := h
    have hsum : (a + b) / 2 = a / 2 + b / 2 ∧ (a + b) % 2 = a % 2 + b % 2 := by
      rcases Nat.mod_two_eq_zero_or_one a with ha | ha <;>
        rcases Nat.mod_two_eq_zero_or_one b with hb | hb <;>
        simp only [ha, hb] at hlow <;> omega
    simp only [extract]
    split_ifs <;> rw [hsum.1, ih _ _ _ hrest]
    omega

end extract

/-! ## Section 5: Bit counts -/

@[simp] theorem bitCount_zero (w : Nat) : bitCount w 0 = 0 := by
  induction w with
  | zero => rfl
  | succ w ih => simp [bitCount, ih]

/-- Setting a fresh bit `n < w` above all bits of `x` adds one to the count. -/
theorem bitCount_two_pow_add (w n x : Nat) (hn : n < w) (hx : x < 2 ^ n) :
    bitCount w (2 ^ n + x) = bitCount w x + 1 := by
  induction w generalizing n x with
  | zero => omega
  | succ w ih =>
    cases n with
    | zero =>
      have hx0 : x = 0 := by simpa using hx
      subst hx0
      simp [bitCount]
    | succ n =>
      have hdiv : (2 ^ (n + 1) + x) / 2 = 2 ^ n + x / 2 := by rw [Nat.pow_succ]; omega
      have hmod : (2 ^ (n + 1) + x) % 2 = x % 2 := by rw [Nat.pow_succ]; omega
      simp only [bitCount, hdiv, hmod, ih n (x / 2) (by omega) (by rw [Nat.pow_succ] at hx; omega)]
      omega

end Xemu.Deposit
