import Mathlib
import Xemu.Lib.Memory
import Xemu.Util.Sha1
import Xemu.Util.Rc4

/-! # EEPROM generation (hw/xbox/eeprom_generation.c)

    `xbox_eeprom_generate` writes a fresh 256-byte EEPROM image: the
    default region and video standard, a random confounder, hard-disk key,
    online key, MAC and serial, the default user section, the two
    checksums, and last the security section, bytes `0x14` to `0x2F`
    (confounder, hard-disk key, region).  That section is hashed with
    `xbox_sha1_compute` into bytes 0 to 19, and encrypted with RC4 keyed by
    the hash of that hash.

    `xbox_sha1_compute` is SHA-1 started from a per-version hash value
    that stands for a 64-byte prefix, then again from a second value over
    the 20-byte inner digest (`xboxSha1Spec`).  The source computes it from
    whatever context it is handed (`xboxSha1Compute_eq`), although it
    re-reads the inner digest from the context's own block.  With that, a
    console that recomputes the key from the stored hash decrypts the
    section it was generated with and finds its hash stored.

    The image is a memory of bytes from the start of `XboxEEPROM`; the
    random bytes and the uninitialised SHA-1 context on the stack are
    inputs.  Opening and writing the file is not modelled: the model is
    the 256 bytes passed to `fwrite`.
-/

namespace Xemu.Xbox

open Xemu.Memory Xemu.Sha1 Xemu.Sha1Spec Xemu.Rc4 Xemu.BlockStream

attribute [local instance] neZero_five

/-! ## Section 1: `xbox_sha1_compute` -/

/-- `XboxEEPROMVersion` -/
inductive XboxEEPROMVersion where
  /-- debug kernels -/
  | d
  /-- retail 1.0 kernels -/
  | r1
  /-- retail 1.1 to 1.4 kernels -/
  | r2
  /-- retail 1.6 kernels -/
  | r3
  deriving DecidableEq, Repr

/-- The words the switch of `xbox_sha1_reset` passes to `sha1_fill`, for
    the first pass or the second. -/
def xboxSha1Iv : XboxEEPROMVersion → Bool → Digest
  | .d, true => ![0x85F9E51A, 0xE04613D2, 0x6D86A50C, 0x77C32E3C, 0x4BD717A4]
  | .d, false => ![0x5D7A9C6B, 0xE1922BEB, 0xB82CCDBC, 0x3137AB34, 0x486B52B3]
  | .r2, true => ![0x39B06E79, 0xC9BD25E8, 0xDBC6B498, 0x40B4389D, 0x86BBD7ED]
  | .r2, false => ![0x9B49BED3, 0x84B430FC, 0x6B8749CD, 0xEBFE5FE5, 0xD96E7393]
  | .r3, true => ![0x8058763A, 0xF97D4E0E, 0x865A9762, 0x8A3D920D, 0x08995B2C]
  | .r3, false => ![0x01075307, 0xA2f1E037, 0x1186EEEA, 0x88DA9992, 0x168A5609]
  -- the default branch: the 1.0 version
  | .r1, true => ![0x72127625, 0x336472B9, 0xBE609BEA, 0xF55E226B, 0x99958DAC]
  | .r1, false => ![0x76441D41, 0x4DE82659, 0x2E8EF85E, 0xB256FACA, 0xC4FE2DE8]

/-- `xbox_sha1_reset(ctx, ver, first)`: the block is kept, the length
    counts a 64-byte prefix. -/
def xboxSha1Reset (ctx : SHA1Context) (ver : XboxEEPROMVersion) (first : Bool) : SHA1Context :=
  let iv := xboxSha1Iv ver first
  sha1Fill { ctx with msgBlkIndex := 0, computed := false, length := 512 } (iv 0) (iv 1) (iv 2) (iv 3) (iv 4)

/-- `xbox_sha1_compute(ctx, ver, data, len, hash)`: the context after it
    and the twenty bytes written to `hash`. -/
def xboxSha1Compute (ctx : SHA1Context) (ver : XboxEEPROMVersion) (data : List UInt8) :
    SHA1Context × List UInt8 :=
  let ctx := sha1Input (xboxSha1Reset ctx ver true) (.bytes data) data.length
  -- `sha1_result(ctx, ctx->msg_blk)`: the inner digest goes to the start of the block
  let r := sha1Result ctx
  let ctx := { r.1 with msgBlk := fun i => if i < 20 then r.2.getD i 0 else r.1.msgBlk i }
  sha1Result (sha1Input (xboxSha1Reset ctx ver false) .msgBlk 20)

/-- What `xbox_sha1_compute` is for: SHA-1 continued from the version's
    first hash value over `m` after a 64-byte prefix, then from the second
    over the inner digest. -/
def xboxSha1Spec (ver : XboxEEPROMVersion) (m : List UInt8) : List UInt8 :=
  digestBytes (hashFrom (xboxSha1Iv ver false) 64 (digestBytes (hashFrom (xboxSha1Iv ver true) 64 m)))

@[simp] theorem length_xboxSha1Compute_snd (ctx : SHA1Context) (ver : XboxEEPROMVersion) (m : List UInt8) :
    (xboxSha1Compute ctx ver m).2.length = 20 := by
  unfold xboxSha1Compute
  exact length_sha1Result_snd _

theorem xboxSha1Reset_represents (ctx : SHA1Context) (ver : XboxEEPROMVersion) (first : Bool) :
    Represents (xboxSha1Reset ctx ver first) (xboxSha1Iv ver first, []) := by
  refine ⟨?_, rfl, by simp, bufferHolds_nil _⟩
  funext j
  fin_cases j <;> rfl

/-- `xbox_sha1_compute` computes `xboxSha1Spec` from any context, for
    messages whose bit length with the prefix fits the 32-bit counter. -/
theorem xboxSha1Compute_eq (ctx : SHA1Context) (ver : XboxEEPROMVersion) (m : List UInt8)
    (hbound : 8 * (64 + m.length) < 2 ^ 32) : (xboxSha1Compute ctx ver m).2 = xboxSha1Spec ver m := by
  have hinner := sha1Result_input (xboxSha1Reset_represents ctx ver true) rfl (n := 64) rfl rfl m hbound
  unfold xboxSha1Compute
  dsimp only
  rw [hinner]
  set inner := digestBytes (hashFrom (xboxSha1Iv ver true) 64 m)
  set c := xboxSha1Reset { (sha1Result (sha1Input (xboxSha1Reset ctx ver true) (.bytes m) m.length)).1 with
    msgBlk := fun i => if i < 20 then inner.getD i 0
      else (sha1Result (sha1Input (xboxSha1Reset ctx ver true) (.bytes m) m.length)).1.msgBlk i } ver false
  -- the outer pass reads back the inner digest the block holds
  have hbytes : (List.range 20).map c.msgBlk = inner := by
    apply List.ext_getElem (by simp [inner])
    intro i h₁ h₂
    simp only [List.length_map, List.length_range] at h₁
    simp [c, xboxSha1Reset, sha1Fill, h₁, List.getElem?_eq_getElem h₂]
  have hrep : Represents c (xboxSha1Iv ver false, []) := xboxSha1Reset_represents _ ver false
  have houter := sha1Result_input hrep rfl (n := 64) rfl rfl inner (by simp [inner])
  rw [length_digestBytes] at houter
  rw [sha1Input_msgBlk_eq_bytes c 20 rfl (by omega), hbytes, houter, xboxSha1Spec]

/-! ## Section 2: `xbox_eeprom_generate` -/

/-- Offsets of the fields of the packed `XboxEEPROM`. -/
abbrev hashOffset : Nat := 0x00
abbrev confounderOffset : Nat := 0x14
abbrev hddKeyOffset : Nat := 0x1C
abbrev regionOffset : Nat := 0x2C
abbrev checksumOffset : Nat := 0x30
abbrev serialOffset : Nat := 0x34
abbrev macOffset : Nat := 0x40
abbrev onlineKeyOffset : Nat := 0x48
abbrev videoStandardOffset : Nat := 0x58
abbrev userChecksumOffset : Nat := 0x60
abbrev userSectionOffset : Nat := 0x64

/-- The bytes of `cpu_to_le32(x)` in memory. -/
def le32Bytes (x : UInt32) : List UInt8 :=
  [x.toUInt8, (x >>> 8).toUInt8, (x >>> 16).toUInt8, (x >>> 24).toUInt8]

@[simp] theorem length_le32Bytes (x : UInt32) : (le32Bytes x).length = 4 := rfl

/-- `le32_to_cpu(((uint32_t *)data)[i])` -/
def loadLe32 (data : List UInt8) (i : Nat) : UInt32 :=
  (data.getD (4 * i) 0).toUInt32 ||| (data.getD (4 * i + 1) 0).toUInt32 <<< 8 |||
    (data.getD (4 * i + 2) 0).toUInt32 <<< 16 ||| (data.getD (4 * i + 3) 0).toUInt32 <<< 24

/-- `xbox_eeprom_crc(data, len)`: the 32-bit sum of the words with its
    carries added back, inverted. -/
def xboxEepromCrc (data : List UInt8) : UInt32 :=
  let hl := (List.range (data.length / 4)).foldl (fun (hl : UInt32 × UInt32) i =>
    let val := loadLe32 data i
    let sum : UInt64 := (hl.1.toUInt64 <<< 32) ||| hl.2.toUInt64
    (((sum + val.toUInt64) >>> 32).toUInt32, hl.2 + val)) (0, 0)
  ~~~(hl.1 + hl.2)

/-- The 44 bytes copied to the start of the user section: London time
    zone and English. -/
def userSectionDefaults : List UInt8 :=
  [0x00, 0x00, 0x00, 0x00, 0x47, 0x4D, 0x54, 0x00, 0x42, 0x53, 0x54, 0x00,
   0x00, 0x00, 0x00, 0x00, 0x00, 0x00, 0x00, 0x00, 0x0A, 0x05, 0x00, 0x02, 0x03, 0x05, 0x00, 0x01,
   0x00, 0x00,
   0x00, 0x00, 0x00, 0x00, 0x00, 0x00, 0x00, 0x00, 0x00, 0x00, 0xC4, 0xFF, 0xFF, 0xFF]

/-- What the five `qcrypto_random_bytes` calls of `xbox_eeprom_generate`
    return, in call order. -/
structure EepromRandom where
  confounder : List UInt8
  hddKey : List UInt8
  onlineKey : List UInt8
  macTail : List UInt8
  serial : List UInt8
  confounder_length : confounder.length = 8
  hddKey_length : hddKey.length = 16
  onlineKey_length : onlineKey.length = 16
  macTail_length : macTail.length = 3
  serial_length : serial.length = 12

/-- The image of `xbox_eeprom_generate` up to `// encrypt security
    section`: defaults, random fields and checksums. -/
def xboxEepromFields (rnd : EepromRandom) : Nat → UInt8 :=
  let e : Nat → UInt8 := fun _ => 0
  let e := storeList e regionOffset (le32Bytes 1)
  let e := storeList e videoStandardOffset (le32Bytes 0x00400100)
  let e := storeList e confounderOffset rnd.confounder
  let e := storeList e hddKeyOffset rnd.hddKey
  let e := storeList e onlineKeyOffset rnd.onlineKey
  let e := storeList e macOffset [0x00, 0x50, 0xF2]
  let e := storeList e (macOffset + 3) rnd.macTail
  let e := storeList e serialOffset rnd.serial
  -- `e.serial[i] = '0' + (e.serial[i] % 10)`
  let e := (List.range 12).foldl
    (fun e i => Function.update e (serialOffset + i) (48 + e (serialOffset + i) % 10)) e
  let e := storeList e userSectionOffset userSectionDefaults
  let e := storeList e (userSectionOffset + 0x2C) (le32Bytes 1)
  let e := storeList e checksumOffset (le32Bytes (xboxEepromCrc (load e serialOffset 0x2C)))
  storeList e userChecksumOffset (le32Bytes (xboxEepromCrc (load e userSectionOffset 0x5C)))

/-- `xbox_eeprom_generate(file, ver)`: the 256 bytes written to the file,
    for the random bytes `rnd` and the stack's SHA-1 context `sctx`. -/
def xboxEepromGenerate (ver : XboxEEPROMVersion) (sctx : SHA1Context) (rnd : EepromRandom) : List UInt8 :=
  let e := xboxEepromFields rnd
  let r := xboxSha1Compute sctx ver (load e confounderOffset 0x1C)
  let e := storeList e hashOffset r.2
  let seed := (xboxSha1Compute r.1 ver (load e hashOffset 20)).2
  let e := storeList e confounderOffset (rc4Crypt (rc4Init seed) (load e confounderOffset 0x1C)).2
  load e 0 256

/-! ## Section 3: A generated image decrypts and verifies -/

/-- The security section as generated: confounder, hard-disk key, region. -/
def EepromRandom.securitySection (rnd : EepromRandom) : List UInt8 :=
  rnd.confounder ++ rnd.hddKey ++ le32Bytes 1

theorem length_securitySection (rnd : EepromRandom) : rnd.securitySection.length = 0x1C := by
  simp [EepromRandom.securitySection, rnd.confounder_length, rnd.hddKey_length]

/-- Before encryption bytes `0x14` to `0x2F` hold the security section:
    each field is stored once and nothing written after them touches
    them. -/
theorem xboxEepromFields_security (rnd : EepromRandom) :
    load (xboxEepromFields rnd) confounderOffset 0x1C = rnd.securitySection := by
  -- the digits of the serial are written at `0x34` to `0x3F` only
  have hserial : ∀ e : Nat → UInt8, load ((List.range 12).foldl
      (fun e i => Function.update e (serialOffset + i) (48 + e (serialOffset + i) % 10)) e)
        confounderOffset 0x1C = load e confounderOffset 0x1C := by
    intro e
    apply List.map_congr_left
    intro i hi
    rw [List.mem_range] at hi
    exact foldl_update_of_forall_ne _ (fun i => serialOffset + i) (fun e i => 48 + e (serialOffset + i) % 10)
      e (fun j hj => by rw [List.mem_range] at hj; simp only [serialOffset, confounderOffset]; omega)
  -- the section is the confounder, the key and the region, in that order
  have hsplit : ∀ m : Nat → UInt8, load m confounderOffset 0x1C =
      load m confounderOffset 8 ++ load m hddKeyOffset 16 ++ load m regionOffset 4 := by
    intro m
    rw [List.append_assoc, show (0x1C : Nat) = 8 + (16 + 4) from rfl, load_add, load_add]
  unfold xboxEepromFields
  dsimp only
  -- the stores after the security fields all lie above it
  rw [load_storeList_of_disjoint _ _ (.inl (by decide)), load_storeList_of_disjoint _ _ (.inl (by decide)),
    load_storeList_of_disjoint _ _ (.inl (by decide)), load_storeList_of_disjoint _ _ (.inl (by decide)),
    hserial, load_storeList_of_disjoint _ _ (.inl (by decide)),
    load_storeList_of_disjoint _ _ (.inl (by decide)), load_storeList_of_disjoint _ _ (.inl (by decide)),
    load_storeList_of_disjoint _ _ (.inl (by decide)), hsplit, EepromRandom.securitySection]
  congr 1
  congr 1
  · rw [load_storeList_of_disjoint _ _ (.inl (by decide)), load_storeList_eq _ _ rnd.confounder_length]
  · rw [load_storeList_eq _ _ rnd.hddKey_length]
  · rw [load_storeList_of_disjoint _ _ (.inr (by rw [rnd.hddKey_length])),
      load_storeList_of_disjoint _ _ (.inr (by rw [rnd.confounder_length]; decide)),
      load_storeList_of_disjoint _ _ (.inl (by decide)), load_storeList_eq _ _ (length_le32Bytes 1)]

/-- The stored hash is the hash of the security section. -/
theorem xboxEepromGenerate_hash (ver : XboxEEPROMVersion) (sctx : SHA1Context) (rnd : EepromRandom) :
    (xboxEepromGenerate ver sctx rnd).take 20 = xboxSha1Spec ver rnd.securitySection := by
  unfold xboxEepromGenerate
  dsimp only
  rw [take_load _ _ (by omega), load_storeList_of_disjoint _ _ (.inl (by decide)),
    load_storeList_eq _ _ (length_xboxSha1Compute_snd _ _ _), xboxEepromFields_security,
    xboxSha1Compute_eq _ _ _ (by rw [length_securitySection]; decide)]

/-- The stored security section is the generated one encrypted with the
    key `xbox_sha1_compute` derives from the stored hash. -/
theorem xboxEepromGenerate_security (ver : XboxEEPROMVersion) (sctx : SHA1Context) (rnd : EepromRandom) :
    ((xboxEepromGenerate ver sctx rnd).drop 0x14).take 0x1C =
      (rc4Crypt (rc4Init (xboxSha1Spec ver (xboxSha1Spec ver rnd.securitySection))) rnd.securitySection).2 := by
  have hhash := xboxEepromGenerate_hash ver sctx rnd
  unfold xboxEepromGenerate at hhash ⊢
  dsimp only at hhash ⊢
  rw [take_load _ _ (by omega), load_storeList_of_disjoint _ _ (.inl (by decide))] at hhash
  rw [drop_load _ _ (by omega), take_load _ _ (by omega), Nat.zero_add,
    load_storeList_eq _ _ (by rw [length_rc4Crypt_snd, length_load]), hhash,
    xboxSha1Compute_eq _ _ _ (by simp [xboxSha1Spec]),
    load_storeList_of_disjoint _ _ (.inr (by rw [length_xboxSha1Compute_snd])),
    xboxEepromFields_security]

/-- A generated image passes the console's check: with the key
    `xbox_sha1_compute` derives from the stored hash, RC4 gives back the
    generated confounder, hard-disk key and region 1, whose
    `xbox_sha1_compute` is the stored hash; and `xbox_sha1_compute` is
    `xboxSha1Spec` on every message short enough for its counter. -/
theorem eeprom_generate_verifies (ver : XboxEEPROMVersion) (sctx ctx : SHA1Context) (rnd : EepromRandom) :
    let image := xboxEepromGenerate ver sctx rnd
    let seed := (xboxSha1Compute ctx ver (image.take 20)).2
    (rc4Crypt (rc4Init seed) ((image.drop 0x14).take 0x1C)).2 = rnd.confounder ++ rnd.hddKey ++ [1, 0, 0, 0] ∧
      (xboxSha1Compute ctx ver (rnd.confounder ++ rnd.hddKey ++ [1, 0, 0, 0])).2 = image.take 20 ∧
      ∀ m : List UInt8, 8 * (64 + m.length) < 2 ^ 32 → (xboxSha1Compute ctx ver m).2 = xboxSha1Spec ver m := by
  dsimp only
  have hsec : rnd.confounder ++ rnd.hddKey ++ [1, 0, 0, 0] = rnd.securitySection := rfl
  have hbound : 8 * (64 + rnd.securitySection.length) < 2 ^ 32 := by
    rw [length_securitySection]
    decide
  -- the verifier derives the generator's key from the stored hash
  have hseed : (xboxSha1Compute ctx ver ((xboxEepromGenerate ver sctx rnd).take 20)).2 =
      xboxSha1Spec ver (xboxSha1Spec ver rnd.securitySection) := by
    rw [xboxEepromGenerate_hash, xboxSha1Compute_eq _ _ _ (by simp [xboxSha1Spec])]
  refine ⟨?_, ?_, fun m hm => xboxSha1Compute_eq ctx ver m hm⟩
  · rw [hseed, xboxEepromGenerate_security, rc4Crypt_involutive, hsec]
  · rw [hsec, xboxSha1Compute_eq _ _ _ hbound, xboxEepromGenerate_hash]

theorem eeprom_generate_verifies_empty :
    8 * (64 + ([] : List UInt8).length) < 2 ^ 32 ∧
      (xboxSha1Compute ⟨fun _ => 0, fun _ => 0, 0, 0, false⟩ .r1 []).2 = xboxSha1Spec .r1 [] :=
  ⟨by decide, (eeprom_generate_verifies .r1 ⟨fun _ => 0, fun _ => 0, 0, 0, false⟩
    ⟨fun _ => 0, fun _ => 0, 0, 0, false⟩
    ⟨List.replicate 8 0, List.replicate 16 0, List.replicate 16 0, List.replicate 3 0, List.replicate 12 0,
      rfl, rfl, rfl, rfl, rfl⟩).2.2 [] (by decide)⟩

end Xemu.Xbox
