import Mathlib
import Xemu.Lib.Word
import Xemu.Nv2a.BatchBounds

/-! # Vertex-index batching of BEGIN/END blocks

    Model of how the Kelvin methods `SET_BEGIN_END`, `DRAW_ARRAYS`,
    `ARRAY_ELEMENT16` and `ARRAY_ELEMENT32` of `hw/xbox/nv2a/pgraph/pgraph.c`
    collect vertex indices, and of which index runs `pgraph_gl_flush_draw`
    (`pgraph/gl/draw.c`) submits.  Indices are held either as `draw_arrays`
    ranges, of which a contiguous one extends the last unless
    `draw_arrays_prevent_connect` is set, or as the list `inline_elements`;
    the first array element after ranges moves the last range into the list
    (`pgraph_expand_draw_arrays`).  The pushbuffer's BEGIN/END squash, which
    skips an `END` and the next `BEGIN` of the same mode after a
    `DRAW_ARRAYS`, appears here as the call `squash`, with the test of the
    batch arrays' model (`Batch.squashApplies`): what it leaves of the two
    methods is the flag it sets.

    The renderer is taken to have a render target bound and writes enabled,
    so that every `draw_end` flushes.  The capacity `assert`s are not
    modelled here (`BatchBounds` has them); indices and counts are `Nat`
    (the source's are 32-bit and far from wrapping: a start has 24 bits, a
    draw's count at most 256, and merged ranges end below `2 ^ 24 + 256`).

    The result: a block with two separate ranges followed by an array
    element submits the second range twice.  `pgraph_expand_draw_arrays`
    flushes all the ranges, the last included, and then copies the last
    into `inline_elements` (`splitRanges_draws_range_twice`).
-/

namespace Xemu.Nv2a

open Xemu.Word

/-! ## Section 1: The batching state -/

/-- One index run `flush_draw` submits: the `draw_arrays` ranges
    `(start, count)` of a multi-draw, or the `inline_elements`. -/
inductive DrawRun
  | ranges (ranges : List (Nat × Nat))
  | elements (indices : List Nat)
deriving DecidableEq, Repr

/-- The part of `PGRAPHState` the index methods read and write, with the
    runs submitted so far. -/
structure KelvinDraw where
  primitiveMode : Nat
  inlineElements : List Nat
  drawArrays : List (Nat × Nat)
  drawArraysMinStart : Nat
  drawArraysMaxCount : Nat
  drawArraysPreventConnect : Bool
  submitted : List DrawRun
deriving DecidableEq, Repr

/-- `PRIM_TYPE_INVALID`, also `NV097_SET_BEGIN_END_OP_END`. -/
abbrev primTypeInvalid : Nat := 0

/-- `pgraph_reset_draw_arrays`; `draw_arrays_min_start = -1` in the source's
    `int32_t` is kept as its unsigned value. -/
def pgraphResetDrawArrays (pg : KelvinDraw) : KelvinDraw :=
  { pg with drawArrays := [], drawArraysMinStart := 0xFFFFFFFF, drawArraysMaxCount := 0,
            drawArraysPreventConnect := false }

/-- `pgraph_reset_inline_buffers` -/
def pgraphResetInlineBuffers (pg : KelvinDraw) : KelvinDraw :=
  pgraphResetDrawArrays { pg with inlineElements := [] }

/-- `pgraph_gl_flush_draw`, on the indices it submits: the `draw_arrays`
    ranges if there are any, else the `inline_elements` if there are any. -/
def pgraphGlFlushDraw (pg : KelvinDraw) : KelvinDraw :=
  if pg.drawArrays ≠ [] then { pg with submitted := pg.submitted ++ [.ranges pg.drawArrays] }
  else if pg.inlineElements ≠ [] then
    { pg with submitted := pg.submitted ++ [.elements pg.inlineElements] }
  else pg

/-! ## Section 2: The methods -/

/-- `SET_BEGIN_END`: `END` draws and closes the block (an `END` outside a
    block only resets the buffers); a mode opens a block unless one is open. -/
def setBeginEnd (pg : KelvinDraw) (parameter : UInt32) : KelvinDraw :=
  if parameter.toNat = primTypeInvalid then
    if pg.primitiveMode = primTypeInvalid then pgraphResetInlineBuffers pg
    else { pgraphResetInlineBuffers (pgraphGlFlushDraw pg) with primitiveMode := primTypeInvalid }
  else if pg.primitiveMode ≠ primTypeInvalid then pg
  else pgraphResetInlineBuffers { pg with primitiveMode := parameter.toNat }

/-- The indices `start, start + 1, ..., start + count - 1`. -/
def rangeIndices (start count : Nat) : List Nat := (List.range count).map (start + ·)

/-- `DRAW_ARRAYS`: with inline elements present the range is appended to
    them; otherwise it extends the last range when contiguous and allowed,
    or becomes a new range. -/
def drawArrays (pg : KelvinDraw) (parameter : UInt32) : KelvinDraw :=
  let start := (getMask parameter 0x00FFFFFF).toNat
  let count := (getMask parameter 0xFF000000).toNat + 1
  if pg.inlineElements ≠ [] then
    { pg with inlineElements := pg.inlineElements ++ rangeIndices start count }
  else
    let pg := { pg with drawArraysMinStart := min pg.drawArraysMinStart start,
                        drawArraysMaxCount := max pg.drawArraysMaxCount (start + count) }
    match pg.drawArrays.getLast? with
    | some (lastStart, lastCount) =>
      if !pg.drawArraysPreventConnect && start = lastStart + lastCount then
        { pg with drawArrays := pg.drawArrays.dropLast ++ [(lastStart, lastCount + count)] }
      else { pg with drawArrays := pg.drawArrays ++ [(start, count)], drawArraysPreventConnect := false }
    | none => { pg with drawArrays := pg.drawArrays ++ [(start, count)], drawArraysPreventConnect := false }

/-- `pgraph_expand_draw_arrays`: earlier ranges are flushed, then the last
    range is copied into `inline_elements`. -/
def pgraphExpandDrawArrays (pg : KelvinDraw) : KelvinDraw :=
  let (start, count) := pg.drawArrays.getLast?.getD (0, 0)
  let pg := if pg.drawArrays.length > 1 then pgraphResetInlineBuffers (pgraphGlFlushDraw pg) else pg
  pgraphResetDrawArrays { pg with inlineElements := pg.inlineElements ++ rangeIndices start count }

/-- The common part of `ARRAY_ELEMENT16` and `ARRAY_ELEMENT32`: expand any
    ranges, then append the indices. -/
def arrayElements (pg : KelvinDraw) (indices : List Nat) : KelvinDraw :=
  let pg := if pg.drawArrays ≠ [] then pgraphExpandDrawArrays pg else pg
  { pg with inlineElements := pg.inlineElements ++ indices }

/-- `ARRAY_ELEMENT16`: the low, then the high half-word. -/
def arrayElement16 (pg : KelvinDraw) (parameter : UInt32) : KelvinDraw :=
  arrayElements pg [(parameter &&& 0xFFFF).toNat, (parameter >>> (16 : UInt32)).toNat]

/-- `ARRAY_ELEMENT32` -/
def arrayElement32 (pg : KelvinDraw) (parameter : UInt32) : KelvinDraw :=
  arrayElements pg [parameter.toNat]

/-- The BEGIN/END squash of `pgraph_method` on this state: under the test
    the batch arrays' model makes (`Batch.squashApplies`, on the lengths of
    the inline elements and of the ranges), `END` and `BEGIN` are skipped
    and the next range may not join the last. -/
def squashBeginEnd (pg : KelvinDraw) (lookahead : Bool) : KelvinDraw :=
  if Batch.squashApplies lookahead pg.inlineElements.length pg.drawArrays.length then
    { pg with drawArraysPreventConnect := true }
  else pg

/-- A call that reaches the batching state. -/
inductive IndexCall
  | setBeginEnd (parameter : UInt32)
  | drawArrays (parameter : UInt32)
  | arrayElement16 (parameter : UInt32)
  | arrayElement32 (parameter : UInt32)
  /-- the squash after a `DRAW_ARRAYS`, with whether the look-ahead words match -/
  | squash (lookahead : Bool)
deriving DecidableEq, Repr

/-- One call. -/
def indexStep (pg : KelvinDraw) : IndexCall → KelvinDraw
  | .setBeginEnd p => setBeginEnd pg p
  | .drawArrays p => drawArrays pg p
  | .arrayElement16 p => arrayElement16 pg p
  | .arrayElement32 p => arrayElement32 pg p
  | .squash lookahead => squashBeginEnd pg lookahead

/-- A sequence of calls. -/
def indexRun (pg : KelvinDraw) (calls : List IndexCall) : KelvinDraw :=
  calls.foldl indexStep pg

/-! ## Section 3: What a block should draw -/

/-- The indices a call contributes to its block's stream. -/
def callIndices : IndexCall → List Nat
  | .drawArrays p => rangeIndices (getMask p 0x00FFFFFF).toNat ((getMask p 0xFF000000).toNat + 1)
  | .arrayElement16 p => [(p &&& 0xFFFF).toNat, (p >>> (16 : UInt32)).toNat]
  | .arrayElement32 p => [p.toNat]
  | _ => []

/-- The calls of one block: `BEGIN(mode)`, the body, `END`. -/
def blockCalls (mode : UInt32) (body : List IndexCall) : List IndexCall :=
  [.setBeginEnd mode] ++ body ++ [.setBeginEnd 0]

/-! ## Section 4: Ranges followed by an array element

    The first array element of a block that already holds two or more ranges
    makes `pgraph_expand_draw_arrays` flush all of them, the last included,
    and then copy the last into `inline_elements`, which `END` submits again.
-/

/-- Two separate ranges, `0..2` and `10..12`, then the array element `20`. -/
def splitRangesBody : List IndexCall :=
  [.drawArrays 0x02000000, .drawArrays 0x0200000A, .arrayElement32 20]

theorem splitRanges_draws_range_twice (pg : KelvinDraw) :
    (indexRun { pg with primitiveMode := primTypeInvalid, inlineElements := [], drawArrays := [] }
        (blockCalls 5 splitRangesBody)).submitted =
      pg.submitted ++ [.ranges [(0, 3), (10, 3)], .elements [10, 11, 12, 20]] ∧
    splitRangesBody.flatMap callIndices = [0, 1, 2, 10, 11, 12, 20] := by
  have hs₁ : (getMask 0x02000000 0x00FFFFFF).toNat = 0 := by decide
  have hc₁ : (getMask 0x02000000 0xFF000000).toNat = 2 := by decide
  have hs₂ : (getMask 0x0200000A 0x00FFFFFF).toNat = 10 := by decide
  have hc₂ : (getMask 0x0200000A 0xFF000000).toNat = 2 := by decide
  refine ⟨?_, by decide⟩
  simp [indexRun, blockCalls, splitRangesBody, indexStep, setBeginEnd, drawArrays, arrayElement32,
    arrayElements, pgraphExpandDrawArrays, pgraphGlFlushDraw, pgraphResetInlineBuffers,
    pgraphResetDrawArrays, rangeIndices, List.range_succ, hs₁, hc₁, hs₂, hc₂]

end Xemu.Nv2a