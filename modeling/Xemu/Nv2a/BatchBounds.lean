import Mathlib
import Xemu.Lib.Logged
import Xemu.Lib.Word

/-! # Stores into the vertex batch arrays

    Model of the stores the Kelvin vertex methods of
    `hw/xbox/nv2a/pgraph/pgraph.c` and `pgraph/vertex.c` make into the
    batch arrays of `PGRAPHState`: `inline_elements`, `inline_array`,
    `draw_arrays_start` / `draw_arrays_count` and each attribute's
    `inline_buffer`.  A handler is a `Run` that records each store as the
    array and the element index it writes, and aborts where an `assert`
    fails.  The values stored are not kept, except the `draw_arrays`
    entries, which later calls read back; `draw_arrays_min_start` and
    `draw_arrays_max_count`, which no call here reads, are left out, as
    are the renderer's `flush_draw`, `draw_begin` and `draw_end`, which
    store into none of these arrays.

    The results:
    * `BatchInv` (every length within its array, and no inline elements
      while there are `draw_arrays` ranges) is kept by every call but
      `ARRAY_ELEMENT16`, and every store of those calls lies within its
      array (`kelvinBatchStep_sat`, `batch_run_in_bounds`);
    * `ARRAY_ELEMENT16` checks for one free element and stores two: after
      `0x7FFFE` calls of `ARRAY_ELEMENT32` in a block it stores
      `inline_elements[0x7FFFF]`, one past the end, with no `assert`
      failing on the way.
-/

namespace Xemu.Nv2a.Batch

open Xemu.Logged Xemu.Word

/-! ## Section 1: The arrays -/

/-- `NV2A_MAX_BATCH_LENGTH` -/
abbrev nv2aMaxBatchLength : UInt32 := 0x07FFFF

theorem nv2aMaxBatchLength_toNat : nv2aMaxBatchLength.toNat = 0x7FFFF := rfl

/-- `ARRAY_SIZE(pg->draw_arrays_start)`, also that of `draw_arrays_count`. -/
abbrev drawArraysSize : UInt32 := 1250

/-- `NV2A_VERTEXSHADER_ATTRIBUTES` -/
abbrev nv2aVertexshaderAttributes : Nat := 16

/-- `NV2A_VERTEX_ATTR_POSITION` -/
abbrev nv2aVertexAttrPosition : Fin nv2aVertexshaderAttributes := 0

/-- The batch arrays; `inlineBuffer a` is that of attribute `a`. -/
inductive BatchArray
  | inlineElements
  | inlineArray
  | drawArraysStart
  | drawArraysCount
  | inlineBuffer (attr : Fin nv2aVertexshaderAttributes)
  deriving DecidableEq, Repr

/-- The elements allocated: the arrays of `PGRAPHState`, and in floats the
    `g_malloc(NV2A_MAX_BATCH_LENGTH * sizeof(float) * 4)` of each inline
    buffer. -/
def BatchArray.size : BatchArray → Nat
  | .inlineElements => nv2aMaxBatchLength.toNat
  | .inlineArray => nv2aMaxBatchLength.toNat
  | .drawArraysStart => drawArraysSize.toNat
  | .drawArraysCount => drawArraysSize.toNat
  | .inlineBuffer _ => 4 * nv2aMaxBatchLength.toNat

/-- A store into element `index` of `array`. -/
structure BatchWrite where
  array : BatchArray
  index : Nat
  deriving DecidableEq, Repr

/-- A store inside its array. -/
def BatchWrite.InBounds (w : BatchWrite) : Prop := w.index < w.array.size

/-- The part of `PGRAPHState` the batching methods read and write. -/
structure BatchState where
  primitiveMode : UInt32
  inlineArrayLength : UInt32
  inlineElementsLength : UInt32
  inlineBufferLength : UInt32
  drawArraysLength : UInt32
  drawArraysStart : Nat → Int32
  drawArraysCount : Nat → Int32
  drawArraysPreventConnect : Bool
  inlineBufferPopulated : Fin nv2aVertexshaderAttributes → Bool

/-- The state `pgraph_init` leaves: no primitive, every length `0`. -/
def batchInit : BatchState where
  primitiveMode := 0
  inlineArrayLength := 0
  inlineElementsLength := 0
  inlineBufferLength := 0
  drawArraysLength := 0
  drawArraysStart := fun _ => 0
  drawArraysCount := fun _ => 0
  drawArraysPreventConnect := false
  inlineBufferPopulated := fun _ => false

/-- The stores `array[len++] = ...`, `n` times. -/
def storeRun (array : BatchArray) (len : UInt32) (n : Nat) : List BatchWrite :=
  (List.range n).map fun i => ⟨array, (len + UInt32.ofNat i).toNat⟩

/-- `memcpy(&attribute->inline_buffer[p], attribute->inline_value,
    sizeof(float) * 4)`: four floats from `p`. -/
def vertexStores (attr : Fin nv2aVertexshaderAttributes) (p : Nat) : List BatchWrite :=
  (List.range 4).map fun c => ⟨.inlineBuffer attr, p + c⟩

/-! ## Section 2: The methods -/

/-- `pgraph_reset_draw_arrays` -/
def pgraphResetDrawArrays (s : BatchState) : BatchState :=
  { s with drawArraysLength := 0, drawArraysPreventConnect := false }

/-- `pgraph_reset_inline_buffers` -/
def pgraphResetInlineBuffers (s : BatchState) : BatchState :=
  pgraphResetDrawArrays
    { s with inlineElementsLength := 0, inlineArrayLength := 0, inlineBufferLength := 0 }

/-- `pgraph_expand_draw_arrays`: the last range is copied into
    `inline_elements`, after earlier ranges are drawn and the buffers
    reset. -/
def pgraphExpandDrawArrays (s : BatchState) : Run BatchWrite BatchState :=
  let count : UInt32 := (s.drawArraysCount (s.drawArraysLength - 1).toNat).toUInt32
  let s := if s.drawArraysLength > 1 then pgraphResetInlineBuffers s else s
  (Run.guard (s.inlineElementsLength + count < nv2aMaxBatchLength) s).bind fun s =>
    Run.emit (storeRun .inlineElements s.inlineElementsLength count.toNat)
      (pgraphResetDrawArrays { s with inlineElementsLength := s.inlineElementsLength + count })

/-- The body `ARRAY_ELEMENT16` and `ARRAY_ELEMENT32` share: expand any
    ranges, check that `inline_elements` has room, then store `n`
    elements. -/
def arrayElements (s : BatchState) (n : Nat) : Run BatchWrite BatchState :=
  (if s.drawArraysLength ≠ 0 then pgraphExpandDrawArrays s else Run.pure s).bind fun s =>
    (Run.guard (s.inlineElementsLength < nv2aMaxBatchLength) s).bind fun s =>
      Run.emit (storeRun .inlineElements s.inlineElementsLength n)
        { s with inlineElementsLength := s.inlineElementsLength + UInt32.ofNat n }

/-- `ARRAY_ELEMENT16`: `parameter & 0xFFFF`, then `parameter >> 16`. -/
def arrayElement16 (s : BatchState) : Run BatchWrite BatchState := arrayElements s 2

/-- `ARRAY_ELEMENT32` -/
def arrayElement32 (s : BatchState) : Run BatchWrite BatchState := arrayElements s 1

/-- `DRAW_ARRAYS`: with inline elements present the range is appended to
    them; otherwise it extends the last range when contiguous and allowed,
    or is stored as a new range. -/
def drawArrays (s : BatchState) (parameter : UInt32) : Run BatchWrite BatchState :=
  let start : Int32 := (getMask parameter 0x00FFFFFF).toInt32
  let count : Int32 := (getMask parameter 0xFF000000 + 1).toInt32
  if s.inlineElementsLength ≠ 0 then
    (Run.guard (s.inlineElementsLength + count.toUInt32 < nv2aMaxBatchLength) s).bind fun s =>
      (Run.guard (s.drawArraysPreventConnect = false) s).bind fun s =>
        Run.emit (storeRun .inlineElements s.inlineElementsLength count.toUInt32.toNat)
          { s with inlineElementsLength := s.inlineElementsLength + count.toUInt32 }
  else
    (Run.guard (s.drawArraysLength < drawArraysSize) s).bind fun s =>
      let last := (s.drawArraysLength - 1).toNat
      if !s.drawArraysPreventConnect && decide (s.drawArraysLength > 0) &&
          start.toUInt32 == (s.drawArraysStart last).toUInt32 + (s.drawArraysCount last).toUInt32 then
        -- `*last_count += count`
        Run.emit [⟨.drawArraysCount, last⟩]
          { s with drawArraysCount := Function.update s.drawArraysCount last (s.drawArraysCount last + count) }
      else
        Run.emit [⟨.drawArraysStart, s.drawArraysLength.toNat⟩, ⟨.drawArraysCount, s.drawArraysLength.toNat⟩]
          { s with
            drawArraysStart := Function.update s.drawArraysStart s.drawArraysLength.toNat start
            drawArraysCount := Function.update s.drawArraysCount s.drawArraysLength.toNat count
            drawArraysLength := s.drawArraysLength + 1
            drawArraysPreventConnect := false }

/-- `INLINE_ARRAY` -/
def inlineArray (s : BatchState) : Run BatchWrite BatchState :=
  (Run.guard (s.inlineArrayLength < nv2aMaxBatchLength) s).bind fun s =>
    Run.emit [⟨.inlineArray, s.inlineArrayLength.toNat⟩]
      { s with inlineArrayLength := s.inlineArrayLength + 1 }

/-- `pgraph_allocate_inline_buffer_vertices`: the first value of an
    attribute inside a run of inline vertices fills its buffer up to the
    vertices already finished. -/
def pgraphAllocateInlineBufferVertices (s : BatchState) (attr : Fin nv2aVertexshaderAttributes) :
    Run BatchWrite BatchState :=
  if s.inlineBufferPopulated attr || s.inlineBufferLength == 0 then Run.pure s
  else
    Run.emit ((List.range s.inlineBufferLength.toNat).flatMap fun i => vertexStores attr (i * 4))
      { s with inlineBufferPopulated := Function.update s.inlineBufferPopulated attr true }

/-- `pgraph_finish_inline_buffer_vertex`: the current values of the
    populated attributes become the next vertex. -/
def pgraphFinishInlineBufferVertex (s : BatchState) : Run BatchWrite BatchState :=
  (Run.guard (s.inlineBufferLength < nv2aMaxBatchLength) s).bind fun s =>
    Run.emit ((List.finRange nv2aVertexshaderAttributes).flatMap fun a =>
        if s.inlineBufferPopulated a then vertexStores a (s.inlineBufferLength * 4).toNat else [])
      { s with inlineBufferLength := s.inlineBufferLength + 1 }

/-- The vertex-data methods: each allocates its attribute's buffer, and the
    word that completes a vertex of attribute `0` finishes the vertex. -/
def setVertexData (s : BatchState) (attr : Fin nv2aVertexshaderAttributes) (finishes : Bool) :
    Run BatchWrite BatchState :=
  (pgraphAllocateInlineBufferVertices s attr).bind fun s =>
    if finishes then pgraphFinishInlineBufferVertex s else Run.pure s

/-- `SET_VERTEX3F`, word `slot` of three. -/
def setVertex3f (s : BatchState) (slot : Nat) : Run BatchWrite BatchState :=
  setVertexData s nv2aVertexAttrPosition (slot == 2)

/-- `SET_VERTEX_DATA2F_M`, word `slot`: attribute `slot / 2`. -/
def setVertexData2fM (s : BatchState) (slot : Fin 32) : Run BatchWrite BatchState :=
  setVertexData s ⟨slot / 2, by unfold nv2aVertexshaderAttributes; omega⟩
    (slot.val / 2 == 0 && slot.val % 2 == 1)

/-- `SET_VERTEX_DATA4F_M`, word `slot`: attribute `slot / 4`. -/
def setVertexData4fM (s : BatchState) (slot : Fin 64) : Run BatchWrite BatchState :=
  setVertexData s ⟨slot / 4, by unfold nv2aVertexshaderAttributes; omega⟩
    (slot.val / 4 == 0 && slot.val % 4 == 3)

/-- `SET_VERTEX_DATA2S`, attribute `slot`. -/
def setVertexData2s (s : BatchState) (slot : Fin nv2aVertexshaderAttributes) :
    Run BatchWrite BatchState :=
  setVertexData s slot (slot.val == 0)

/-- `SET_VERTEX_DATA4UB`, attribute `slot`. -/
def setVertexData4ub (s : BatchState) (slot : Fin nv2aVertexshaderAttributes) :
    Run BatchWrite BatchState :=
  setVertexData s slot (slot.val == 0)

/-- `SET_VERTEX_DATA4S_M`, word `slot`: attribute `slot / 2`. -/
def setVertexData4sM (s : BatchState) (slot : Fin 32) : Run BatchWrite BatchState :=
  setVertexData s ⟨slot / 2, by unfold nv2aVertexshaderAttributes; omega⟩
    (slot.val / 2 == 0 && slot.val % 2 == 1)

/-- `SET_BEGIN_END`: `END` (`0`) closes a block and an `END` outside one
    only resets the buffers; a mode up to `POLYGON` (`0x0A`) opens a block
    unless one is open. -/
def setBeginEnd (s : BatchState) (parameter : UInt32) : Run BatchWrite BatchState :=
  if parameter = 0 then
    if s.primitiveMode = 0 then Run.pure (pgraphResetInlineBuffers s)
    else Run.pure { pgraphResetInlineBuffers s with primitiveMode := 0 }
  else if s.primitiveMode ≠ 0 then Run.pure s
  else
    (Run.guard (parameter ≤ 0x0A) s).bind fun s =>
      Run.pure (pgraphResetInlineBuffers { s with primitiveMode := parameter })

/-- The test of the BEGIN/END squash of `pgraph_method` after a
    `DRAW_ARRAYS`: the look-ahead words are `END`, `BEGIN` of the same mode
    and `DRAW_ARRAYS` (`lookahead`), no inline elements are buffered, and a
    `draw_arrays` slot is to spare. -/
def squashApplies (lookahead : Bool) (inlineElementsLength drawArraysLength : Nat) : Bool :=
  lookahead && inlineElementsLength == 0 && decide (drawArraysLength < drawArraysSize.toNat - 1)

/-- The BEGIN/END squash: when `squashApplies`, it skips `END` and `BEGIN`
    and keeps the next range from joining the last. -/
def squashBeginEnd (s : BatchState) (lookahead : Bool) : Run BatchWrite BatchState :=
  if squashApplies lookahead s.inlineElementsLength.toNat s.drawArraysLength.toNat then
    Run.pure { s with drawArraysPreventConnect := true }
  else Run.pure s

/-- A Kelvin method as it reaches the batch arrays. -/
inductive KelvinBatchCall
  | setBeginEnd (parameter : UInt32)
  | drawArrays (parameter : UInt32)
  | arrayElement16
  | arrayElement32
  | inlineArray
  | setVertexData (attr : Fin nv2aVertexshaderAttributes) (finishes : Bool)
  | squash (lookahead : Bool)
  /-- every other method: it touches none of the batch arrays -/
  | other
  deriving DecidableEq, Repr

/-- One method. -/
def kelvinBatchStep (s : BatchState) : KelvinBatchCall → Run BatchWrite BatchState
  | .setBeginEnd p => setBeginEnd s p
  | .drawArrays p => drawArrays s p
  | .arrayElement16 => arrayElement16 s
  | .arrayElement32 => arrayElement32 s
  | .inlineArray => inlineArray s
  | .setVertexData attr finishes => setVertexData s attr finishes
  | .squash lookahead => squashBeginEnd s lookahead
  | .other => Run.pure s

/-! ## Section 3: The bounds the methods keep -/

/-- Every length within its array, and no inline elements while there
    are `draw_arrays` ranges (a range is only stored when there are none,
    and the first array element moves the ranges into them). -/
structure BatchInv (s : BatchState) : Prop where
  inlineElements_le : s.inlineElementsLength.toNat ≤ nv2aMaxBatchLength.toNat
  inlineArray_le : s.inlineArrayLength.toNat ≤ nv2aMaxBatchLength.toNat
  inlineBuffer_le : s.inlineBufferLength.toNat ≤ nv2aMaxBatchLength.toNat
  drawArrays_le : s.drawArraysLength.toNat ≤ drawArraysSize.toNat
  elements_of_ranges : s.drawArraysLength ≠ 0 → s.inlineElementsLength = 0

theorem batchInv_init : BatchInv batchInit :=
  ⟨by decide, by decide, by decide, by decide, fun h => absurd rfl h⟩

/-- The invariant reads only the four lengths. -/
theorem BatchInv.of_lengths {s t : BatchState} (h : BatchInv s)
    (helements : t.inlineElementsLength = s.inlineElementsLength)
    (harray : t.inlineArrayLength = s.inlineArrayLength)
    (hbuffer : t.inlineBufferLength = s.inlineBufferLength)
    (hranges : t.drawArraysLength = s.drawArraysLength) : BatchInv t := by
  obtain ⟨h1, h2, h3, h4, h5⟩ := h
  rw [← helements, ← harray, ← hbuffer, ← hranges] at *
  exact ⟨h1, h2, h3, h4, h5⟩

/-- After `pgraph_reset_inline_buffers` every length is `0`, whatever the
    other fields hold. -/
theorem batchInv_resetInlineBuffers (s : BatchState) : BatchInv (pgraphResetInlineBuffers s) := by
  constructor <;> simp [pgraphResetInlineBuffers, pgraphResetDrawArrays]

/-- The stores `array[len++]` from `len` stay inside an array that has
    room for all `n`. -/
theorem storeRun_inBounds {array : BatchArray} {len : UInt32} {n : Nat}
    (h : len.toNat + n ≤ array.size) (hsize : array.size < 2 ^ 32) :
    ∀ w ∈ storeRun array len n, w.InBounds := by
  intro w hw
  simp only [storeRun, List.mem_map, List.mem_range] at hw
  obtain ⟨i, hi, rfl⟩ := hw
  have hi' : (UInt32.ofNat i).toNat = i := by
    rw [UInt32.toNat_ofNat', Nat.mod_eq_of_lt (by omega)]
  show (len + UInt32.ofNat i).toNat < array.size
  rw [toNat_add_of_lt (by omega), hi']
  omega

/-- The count of a `DRAW_ARRAYS` is `1` to `256`. -/
theorem drawArrays_count_toNat (parameter : UInt32) :
    1 ≤ (getMask parameter 0xFF000000 + 1).toInt32.toUInt32.toNat ∧
      (getMask parameter 0xFF000000 + 1).toInt32.toUInt32.toNat ≤ 256 := by
  have hfield : (getMask parameter 0xFF000000).toNat < 256 := by
    rw [getMask, show ctz32 0xFF000000 = 24 by decide, UInt32.toNat_shiftRight]
    have := (parameter &&& 0xFF000000).toNat_lt
    simp only [show (24 : UInt32).toNat % 32 = 24 by decide, Nat.shiftRight_eq_div_pow]
    omega
  rw [UInt32.toUInt32_toInt32, toNat_add_of_lt (by simp; omega), UInt32.toNat_one]
  omega

section handlers

variable {s : BatchState}

theorem pgraphExpandDrawArrays_sat (h : BatchInv s) (hd : s.drawArraysLength ≠ 0) :
    (pgraphExpandDrawArrays s).Sat BatchWrite.InBounds
      fun s' => BatchInv s' ∧ s'.drawArraysLength = 0 := by
  unfold pgraphExpandDrawArrays
  generalize (s.drawArraysCount (s.drawArraysLength - 1).toNat).toUInt32 = count
  -- flushed or not, the state has no inline elements: the last range is the only index source
  have ht : BatchInv (if s.drawArraysLength > 1 then pgraphResetInlineBuffers s else s) ∧
      (if s.drawArraysLength > 1 then pgraphResetInlineBuffers s else s).inlineElementsLength = 0 := by
    split_ifs
    · exact ⟨batchInv_resetInlineBuffers s, rfl⟩
    · exact ⟨h, h.elements_of_ranges hd⟩
  generalize (if s.drawArraysLength > 1 then pgraphResetInlineBuffers s else s) = t at ht
  obtain ⟨ht, ht0⟩ := ht
  refine Run.sat_guard_bind fun hg => Run.sat_emit ?_ ?_
  · rw [ht0, UInt32.zero_add, UInt32.lt_iff_toNat_lt] at hg
    rw [ht0]
    exact storeRun_inBounds (by simp only [BatchArray.size, UInt32.toNat_zero]; omega) (by decide)
  · rw [ht0, UInt32.zero_add, UInt32.lt_iff_toNat_lt] at hg
    refine ⟨⟨?_, ht.inlineArray_le, ht.inlineBuffer_le, by simp [pgraphResetDrawArrays],
      fun h0 => absurd rfl h0⟩, rfl⟩
    simp only [pgraphResetDrawArrays, ht0, UInt32.zero_add]
    omega

/-- `ARRAY_ELEMENT32`, and `ARRAY_ELEMENT16` cut down to one store: with
    at most one store after the `assert` the element stays inside
    `inline_elements`. -/
theorem arrayElements_sat (h : BatchInv s) {n : Nat} (hn : n ≤ 1) :
    (arrayElements s n).Sat BatchWrite.InBounds BatchInv := by
  unfold arrayElements
  -- after any expansion there are no ranges
  have hexp : (if s.drawArraysLength ≠ 0 then pgraphExpandDrawArrays s else Run.pure s).Sat
      BatchWrite.InBounds fun t => BatchInv t ∧ t.drawArraysLength = 0 := by
    split_ifs with hd
    · exact pgraphExpandDrawArrays_sat h hd
    · exact Run.sat_pure ⟨h, not_not.mp hd⟩
  refine Run.sat_bind hexp fun t ⟨ht, htd⟩ => Run.sat_guard_bind fun hg => Run.sat_emit ?_ ?_
  · rw [UInt32.lt_iff_toNat_lt] at hg
    exact storeRun_inBounds (by simp only [BatchArray.size]; omega) (by decide)
  · rw [UInt32.lt_iff_toNat_lt] at hg
    have hn' : (UInt32.ofNat n).toNat = n := by
      rw [UInt32.toNat_ofNat', Nat.mod_eq_of_lt (by omega)]
    refine ⟨?_, ht.inlineArray_le, ht.inlineBuffer_le, ht.drawArrays_le, fun hd => absurd htd hd⟩
    show (t.inlineElementsLength + UInt32.ofNat n).toNat ≤ nv2aMaxBatchLength.toNat
    rw [nv2aMaxBatchLength_toNat] at hg ⊢
    rw [toNat_add_of_lt (by rw [hn']; omega), hn']
    omega

theorem arrayElement32_sat (h : BatchInv s) : (arrayElement32 s).Sat BatchWrite.InBounds BatchInv :=
  arrayElements_sat h (le_refl 1)

theorem drawArrays_sat (h : BatchInv s) (parameter : UInt32) :
    (drawArrays s parameter).Sat BatchWrite.InBounds BatchInv := by
  obtain ⟨hc1, hc256⟩ := drawArrays_count_toNat parameter
  unfold drawArrays
  generalize (getMask parameter 0xFF000000 + 1).toInt32 = count at hc1 hc256
  generalize (getMask parameter 0x00FFFFFF).toInt32 = start
  have hmax := nv2aMaxBatchLength_toNat
  have hle := h.inlineElements_le
  split_ifs with hie
  · -- appended to the inline elements, which rules out ranges
    have hd : s.drawArraysLength = 0 := by
      by_contra hd
      exact hie (h.elements_of_ranges hd)
    have hsum : (s.inlineElementsLength + count.toUInt32).toNat =
        s.inlineElementsLength.toNat + count.toUInt32.toNat := toNat_add_of_lt (by omega)
    refine Run.sat_guard_bind fun hg => Run.sat_guard_bind fun _ => Run.sat_emit ?_ ?_
    · rw [UInt32.lt_iff_toNat_lt, hsum] at hg
      exact storeRun_inBounds (by simp only [BatchArray.size]; omega) (by decide)
    · rw [UInt32.lt_iff_toNat_lt, hsum] at hg
      refine ⟨?_, h.inlineArray_le, h.inlineBuffer_le, h.drawArrays_le, fun hd' => absurd hd hd'⟩
      show (s.inlineElementsLength + count.toUInt32).toNat ≤ _
      omega
  · -- a range: there is a free slot, and it is joined to the last one or stored in the slot
    have hie0 : s.inlineElementsLength = 0 := not_not.mp hie
    refine Run.sat_guard_bind fun hg => ?_
    rw [UInt32.lt_iff_toNat_lt] at hg
    have hsize : drawArraysSize.toNat = 1250 := rfl
    dsimp only
    split_ifs with hjoin
    · simp only [Bool.and_eq_true, Bool.not_eq_true', decide_eq_true_eq] at hjoin
      have hlast : (s.drawArraysLength - 1).toNat = s.drawArraysLength.toNat - 1 :=
        UInt32.toNat_sub_of_le _ _ (UInt32.le_iff_toNat_le.mpr (by
          have := UInt32.lt_iff_toNat_lt.mp hjoin.1.2
          simp only [UInt32.toNat_zero] at this
          simp only [UInt32.toNat_one]
          omega))
      refine Run.sat_emit ?_ (h.of_lengths rfl rfl rfl rfl)
      intro w hw
      simp only [List.mem_singleton] at hw
      subst hw
      show (s.drawArraysLength - 1).toNat < drawArraysSize.toNat
      omega
    · refine Run.sat_emit ?_ ⟨?_, h.inlineArray_le, h.inlineBuffer_le, ?_, fun _ => hie0⟩
      · intro w hw
        simp only [List.mem_cons, List.not_mem_nil, or_false] at hw
        rcases hw with rfl | rfl
        · exact hg
        · exact hg
      · exact h.inlineElements_le
      · show (s.drawArraysLength + 1).toNat ≤ drawArraysSize.toNat
        rw [toNat_add_of_lt (by simp only [UInt32.toNat_one]; omega), UInt32.toNat_one]
        omega

theorem inlineArray_sat (h : BatchInv s) : (inlineArray s).Sat BatchWrite.InBounds BatchInv := by
  unfold inlineArray
  refine Run.sat_guard_bind fun hg => Run.sat_emit ?_ ?_
  · intro w hw
    simp only [List.mem_singleton] at hw
    subst hw
    exact UInt32.lt_iff_toNat_lt.mp hg
  · have hg := UInt32.lt_iff_toNat_lt.mp hg
    rw [nv2aMaxBatchLength_toNat] at hg
    refine ⟨h.inlineElements_le, ?_, h.inlineBuffer_le, h.drawArrays_le, h.elements_of_ranges⟩
    show (s.inlineArrayLength + 1).toNat ≤ nv2aMaxBatchLength.toNat
    rw [toNat_add_of_lt (by simp only [UInt32.toNat_one]; omega), UInt32.toNat_one,
      nv2aMaxBatchLength_toNat]
    omega

/-- The floats of the vertices already finished lie below
    `4 * inline_buffer_length`. -/
theorem pgraphAllocateInlineBufferVertices_sat (h : BatchInv s) (attr : Fin nv2aVertexshaderAttributes) :
    (pgraphAllocateInlineBufferVertices s attr).Sat BatchWrite.InBounds BatchInv := by
  unfold pgraphAllocateInlineBufferVertices
  split_ifs
  · exact Run.sat_pure h
  · refine Run.sat_emit ?_ (h.of_lengths rfl rfl rfl rfl)
    intro w hw
    simp only [vertexStores, List.mem_flatMap, List.mem_map, List.mem_range] at hw
    obtain ⟨i, hi, c, hc, rfl⟩ := hw
    have hbuf := h.inlineBuffer_le
    show i * 4 + c < 4 * nv2aMaxBatchLength.toNat
    omega

theorem pgraphFinishInlineBufferVertex_sat (h : BatchInv s) :
    (pgraphFinishInlineBufferVertex s).Sat BatchWrite.InBounds BatchInv := by
  unfold pgraphFinishInlineBufferVertex
  refine Run.sat_guard_bind fun hg => Run.sat_emit ?_ ?_
  · have hg := UInt32.lt_iff_toNat_lt.mp hg
    rw [nv2aMaxBatchLength_toNat] at hg
    -- the vertex's four floats per populated attribute, at `4 * inline_buffer_length`
    have hmul : (s.inlineBufferLength * 4).toNat = s.inlineBufferLength.toNat * 4 :=
      toNat_mul_of_lt (by simp only [UInt32.reduceToNat]; omega)
    intro w hw
    simp only [List.mem_flatMap] at hw
    obtain ⟨a, -, hw⟩ := hw
    split_ifs at hw
    · simp only [vertexStores, List.mem_map, List.mem_range] at hw
      obtain ⟨c, hc, rfl⟩ := hw
      show (s.inlineBufferLength * 4).toNat + c < 4 * nv2aMaxBatchLength.toNat
      rw [hmul, nv2aMaxBatchLength_toNat]
      omega
    · cases hw
  · have hg := UInt32.lt_iff_toNat_lt.mp hg
    rw [nv2aMaxBatchLength_toNat] at hg
    refine ⟨h.inlineElements_le, h.inlineArray_le, ?_, h.drawArrays_le, h.elements_of_ranges⟩
    show (s.inlineBufferLength + 1).toNat ≤ nv2aMaxBatchLength.toNat
    rw [toNat_add_of_lt (by simp only [UInt32.toNat_one]; omega), UInt32.toNat_one,
      nv2aMaxBatchLength_toNat]
    omega

theorem setVertexData_sat (h : BatchInv s) (attr : Fin nv2aVertexshaderAttributes) (finishes : Bool) :
    (setVertexData s attr finishes).Sat BatchWrite.InBounds BatchInv := by
  unfold setVertexData
  refine Run.sat_bind (pgraphAllocateInlineBufferVertices_sat h attr) fun t ht => ?_
  split
  · exact pgraphFinishInlineBufferVertex_sat ht
  · exact Run.sat_pure ht

theorem setBeginEnd_sat (h : BatchInv s) (parameter : UInt32) :
    (setBeginEnd s parameter).Sat BatchWrite.InBounds BatchInv := by
  unfold setBeginEnd
  split_ifs
  · exact Run.sat_pure (batchInv_resetInlineBuffers s)
  · exact Run.sat_pure ((batchInv_resetInlineBuffers s).of_lengths rfl rfl rfl rfl)
  · exact Run.sat_pure h
  · exact Run.sat_guard_bind fun _ => Run.sat_pure (batchInv_resetInlineBuffers _)

theorem squashBeginEnd_sat (h : BatchInv s) (lookahead : Bool) :
    (squashBeginEnd s lookahead).Sat BatchWrite.InBounds BatchInv := by
  unfold squashBeginEnd
  split_ifs
  · exact Run.sat_pure (h.of_lengths rfl rfl rfl rfl)
  · exact Run.sat_pure h

end handlers

/-- Every method but `ARRAY_ELEMENT16` keeps the bounds and stores inside
    its arrays. -/
theorem kelvinBatchStep_sat {s : BatchState} (h : BatchInv s) {c : KelvinBatchCall}
    (hc : c ≠ .arrayElement16) : (kelvinBatchStep s c).Sat BatchWrite.InBounds BatchInv := by
  cases c with
  | setBeginEnd p => exact setBeginEnd_sat h p
  | drawArrays p => exact drawArrays_sat h p
  | arrayElement16 => exact absurd rfl hc
  | arrayElement32 => exact arrayElement32_sat h
  | inlineArray => exact inlineArray_sat h
  | setVertexData attr finishes => exact setVertexData_sat h attr finishes
  | squash lookahead => exact squashBeginEnd_sat h lookahead
  | other => exact Run.sat_pure h

/-- From `pgraph_init`, any sequence of methods without `ARRAY_ELEMENT16`
    stores only inside the batch arrays. -/
theorem batch_run_in_bounds (cs : List KelvinBatchCall) (hcs : ∀ c ∈ cs, c ≠ .arrayElement16) :
    (Run.steps kelvinBatchStep batchInit cs).Sat BatchWrite.InBounds BatchInv :=
  Run.sat_steps (C := fun c => c ≠ .arrayElement16) (fun _ _ hc hs => kelvinBatchStep_sat hs hc)
    cs batchInit hcs batchInv_init

/-! ## Section 4: `ARRAY_ELEMENT16` -/

/-- With no ranges and room for one element, the array-element methods
    store their elements from `inline_elements_length` on. -/
theorem arrayElements_of_room {s : BatchState} (hd : s.drawArraysLength = 0)
    (hroom : s.inlineElementsLength < nv2aMaxBatchLength) (n : Nat) :
    arrayElements s n = Run.emit (storeRun .inlineElements s.inlineElementsLength n)
      { s with inlineElementsLength := s.inlineElementsLength + UInt32.ofNat n } := by
  unfold arrayElements
  rw [if_neg (not_not.mpr hd), Run.pure_bind, Run.guard, if_pos hroom]
  rfl

/-- `k` calls of `ARRAY_ELEMENT32` with room for them add `k` elements. -/
theorem arrayElement32_run (k : Nat) : ∀ s : BatchState, s.drawArraysLength = 0 →
    s.inlineElementsLength.toNat + k ≤ nv2aMaxBatchLength.toNat →
    (Run.steps kelvinBatchStep s (List.replicate k .arrayElement32)).result =
      some { s with inlineElementsLength := s.inlineElementsLength + UInt32.ofNat k } := by
  induction k with
  | zero =>
    intro s _ _
    simp [Run.steps, Run.pure]
  | succ k ih =>
    intro s hd hk
    have hroom : s.inlineElementsLength < nv2aMaxBatchLength := UInt32.lt_iff_toNat_lt.mpr (by omega)
    have hone : (s.inlineElementsLength + 1).toNat = s.inlineElementsLength.toNat + 1 :=
      toNat_add_of_lt (by rw [nv2aMaxBatchLength_toNat] at hk; simp only [UInt32.toNat_one]; omega)
    -- one element, then the other `k` from the grown length
    have hstep : kelvinBatchStep s .arrayElement32 = Run.emit (storeRun .inlineElements s.inlineElementsLength 1)
        { s with inlineElementsLength := s.inlineElementsLength + 1 } :=
      arrayElements_of_room hd hroom 1
    have hlen : s.inlineElementsLength + 1 + UInt32.ofNat k = s.inlineElementsLength + UInt32.ofNat (k + 1) := by
      rw [UInt32.ofNat_add, UInt32.add_assoc, UInt32.add_comm (UInt32.ofNat k)]
      rfl
    rw [List.replicate_succ, Run.steps, hstep, Run.bind_of_result rfl]
    dsimp only
    rw [ih { s with inlineElementsLength := s.inlineElementsLength + 1 } hd (by simp only [hone]; omega),
      hlen]

/-- `ARRAY_ELEMENT16` on the last free element of `inline_elements`
    passes its `assert` and stores one element past the end. -/
theorem arrayElement16_overruns {s : BatchState} (hd : s.drawArraysLength = 0)
    (hlast : s.inlineElementsLength = nv2aMaxBatchLength - 1) :
    (arrayElement16 s).result.isSome ∧
      (⟨.inlineElements, nv2aMaxBatchLength.toNat⟩ : BatchWrite) ∈ (arrayElement16 s).events ∧
      ¬ (⟨.inlineElements, nv2aMaxBatchLength.toNat⟩ : BatchWrite).InBounds := by
  rw [arrayElement16, arrayElements_of_room hd (by rw [hlast]; decide), hlast]
  refine ⟨rfl, ?_, lt_irrefl _⟩
  show (⟨.inlineElements, nv2aMaxBatchLength.toNat⟩ : BatchWrite) ∈
    storeRun .inlineElements (nv2aMaxBatchLength - 1) 2
  decide

theorem array_element16_stores_past_inline_elements :
    (Run.steps kelvinBatchStep batchInit (KelvinBatchCall.setBeginEnd 5 ::
        List.replicate 0x7FFFE KelvinBatchCall.arrayElement32 ++ [KelvinBatchCall.arrayElement16])).result.isSome ∧
      (⟨.inlineElements, 0x7FFFF⟩ : BatchWrite) ∈ (Run.steps kelvinBatchStep batchInit
        (KelvinBatchCall.setBeginEnd 5 :: List.replicate 0x7FFFE KelvinBatchCall.arrayElement32 ++
          [KelvinBatchCall.arrayElement16])).events ∧
      ¬ (⟨.inlineElements, 0x7FFFF⟩ : BatchWrite).InBounds := by
  -- `BEGIN` leaves the buffers empty; the array elements then fill all but the last element
  have hfill : (Run.steps kelvinBatchStep batchInit
      (KelvinBatchCall.setBeginEnd 5 :: List.replicate 0x7FFFE KelvinBatchCall.arrayElement32)).result =
      some { pgraphResetInlineBuffers { batchInit with primitiveMode := 5 } with
        inlineElementsLength := 0 + UInt32.ofNat 0x7FFFE } := by
    rw [Run.steps, show kelvinBatchStep batchInit (.setBeginEnd 5) =
      Run.pure (pgraphResetInlineBuffers { batchInit with primitiveMode := 5 }) from rfl, Run.pure_bind]
    exact arrayElement32_run _ _ rfl (by decide)
  obtain ⟨hsome, hmem, hout⟩ := arrayElement16_overruns (s := { pgraphResetInlineBuffers
    { batchInit with primitiveMode := 5 } with inlineElementsLength := 0 + UInt32.ofNat 0x7FFFE }) rfl
    (by decide)
  rw [Run.steps_append _ _ _ _ hfill, Run.steps_singleton]
  exact ⟨hsome, List.mem_append_right _ hmem, hout⟩

end Xemu.Nv2a.Batch
