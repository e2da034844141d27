import Mathlib

/-! # RC4 of util/rc4.c

    `rc4_init` fills the 256-byte state with the identity and runs the key
    schedule over it; `rc4_crypt` xors the data with the keystream, its
    indices `i` and `j` starting at 0 on every call.  The state is a
    memory of bytes of which the first 256 are used: every index the code
    computes is taken modulo 256.

    What the code is for: the keystream (`keystream`) depends on the
    state and the position only, never on the data
    (`rc4CryptLoop_snd`), so two `rc4_crypt` calls from one state undo each
    other (`rc4Crypt_involutive`): decryption is encryption.
-/

namespace Xemu.Rc4

/-- `RC4Context` -/
structure RC4Context where
  /-- `s[256]` -/
  s : Nat → UInt8

/-- `rc4_swap` -/
def rc4Swap (s : Nat → UInt8) (first second : Nat) : Nat → UInt8 :=
  Function.update (Function.update s first (s second)) second (s first)

/-- One iteration of the key schedule of `rc4_init`. -/
def rc4InitStep (key : List UInt8) (js : Nat × (Nat → UInt8)) (i : Nat) : Nat × (Nat → UInt8) :=
  let j := (js.1 + (js.2 i).toNat + (key.getD (i % key.length) 0).toNat) % 256
  (j, rc4Swap js.2 i j)

/-- `rc4_init(ctx, data, len)`, the key `data` of `len` bytes. -/
def rc4Init (key : List UInt8) : RC4Context :=
  ⟨((List.range 256).foldl (rc4InitStep key) (0, fun i => UInt8.ofNat i)).2⟩

/-- The loop of `rc4_crypt` from `i` and `j` over the remaining data: the
    state after it and the bytes it writes. -/
def rc4CryptLoop (i j : Nat) (s : Nat → UInt8) : List UInt8 → (Nat → UInt8) × List UInt8
  | [] => (s, [])
  | x :: data =>
    let i := (i + 1) % 256
    let j := (j + (s i).toNat) % 256
    let s := rc4Swap s i j
    let r := rc4CryptLoop i j s data
    (r.1, (x ^^^ s (((s i).toNat + (s j).toNat) % 256)) :: r.2)

/-- `rc4_crypt(ctx, data, len)`: the context after it and the data. -/
def rc4Crypt (ctx : RC4Context) (data : List UInt8) : RC4Context × List UInt8 :=
  let r := rc4CryptLoop 0 0 ctx.s data
  (⟨r.1⟩, r.2)

/-- The first `n` keystream bytes from `i`, `j` and the state `s`. -/
def keystream (i j : Nat) (s : Nat → UInt8) : Nat → List UInt8
  | 0 => []
  | n + 1 =>
    let i := (i + 1) % 256
    let j := (j + (s i).toNat) % 256
    let s := rc4Swap s i j
    s (((s i).toNat + (s j).toNat) % 256) :: keystream i j s n

/-- The loop xors the data with the keystream, whatever the data. -/
theorem rc4CryptLoop_snd (i j : Nat) (s : Nat → UInt8) (data : List UInt8) :
    (rc4CryptLoop i j s data).2 = List.zipWith (· ^^^ ·) data (keystream i j s data.length) := by
  induction data generalizing i j s with
  | nil => rfl
  | cons x data ih =>
    simp only [rc4CryptLoop, keystream, List.length_cons, List.zipWith_cons_cons]
    rw [ih]

theorem length_keystream (i j : Nat) (s : Nat → UInt8) (n : Nat) : (keystream i j s n).length = n := by
  induction n generalizing i j s with
  | zero => rfl
  | succ n ih => simp [keystream, ih]

@[simp] theorem length_rc4Crypt_snd (ctx : RC4Context) (data : List UInt8) :
    (rc4Crypt ctx data).2.length = data.length := by
  simp [rc4Crypt, rc4CryptLoop_snd, length_keystream]

/-- Xoring twice with one stream gives the data back. -/
theorem zipWith_xor_xor (data ks : List UInt8) (h : data.length ≤ ks.length) :
    List.zipWith (· ^^^ ·) (List.zipWith (· ^^^ ·) data ks) ks = data := by
  induction data generalizing ks with
  | nil => rfl
  | cons x data ih =>
    obtain ⟨k, ks, rfl⟩ : ∃ k ks', ks = k :: ks' := List.exists_cons_of_length_pos (by simp at h; omega)
    simp only [List.zipWith_cons_cons, UInt8.xor_assoc, UInt8.xor_self, UInt8.xor_zero]
    rw [ih ks (by simp at h; omega)]

/-- `rc4_crypt` from one state undoes itself. -/
theorem rc4Crypt_involutive (ctx : RC4Context) (data : List UInt8) :
    (rc4Crypt ctx (rc4Crypt ctx data).2).2 = data := by
  simp only [rc4Crypt, rc4CryptLoop_snd, List.length_zipWith, length_keystream, Nat.min_self]
  exact zipWith_xor_xor _ _ (by simp [length_keystream])

example : (rc4Crypt (rc4Init [0x4B, 0x65, 0x79]) [0x50, 0x6c, 0x61, 0x69, 0x6e, 0x74, 0x65, 0x78, 0x74]).2 =
    [0xBB, 0xF3, 0x16, 0xE8, 0xD9, 0x40, 0xAF, 0x0A, 0xD3] := by
  decide +kernel

end Xemu.Rc4
