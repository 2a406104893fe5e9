import Mathlib.Data.List.Basic
import QrEdgeGateway.Core
import QrEdgeGateway.Lib.Stuffing

/-!
# The two COBS routines

`cobs_decode` of the job runner walks an index over the frame; `cobs_encode` of the emulated
device fills a fixed buffer, reserving a code slot and patching it when the block ends. Both
are given as the loops of the source and then shown to compute the stuffing format.

A write outside the device's buffer is undefined behaviour in C: the encoder's result is
`none` there, and `some (0, out)` is its reported failure.
-/

namespace QrEdgeGateway

/-! ## Decoding -/

/-- The loop of `cobs_decode` at index `i`. Each round advances `i`, so `fuel` above the
number of bytes left never runs out. -/
def cobsDecodeLoop (input : Bytes) : Nat → Nat → Bytes → Option Bytes
  | 0, _, _ => none
  | fuel + 1, i, output =>
    if i < input.length then
      let code := input.getD i 0
      if code = 0 then none
      else
        let i := i + 1
        let copyLen := code.toNat - 1
        if i + copyLen > input.length then none
        else
          -- the copy of `copy_len` bytes from `input[i]`
          let output := output ++ (input.drop i).take copyLen
          let i := i + copyLen
          let output := if code ≠ 0xFF ∧ i < input.length then output ++ [0x00] else output
          cobsDecodeLoop input fuel i output
    else some output

/-- `cobs_decode` of JobRunner.cpp: `none` where the source returns false. -/
def cobsDecode (input : Bytes) : Option Bytes :=
  cobsDecodeLoop input (input.length + 1) 0 []

/-- From index `i` the loop appends what the format decodes from the bytes left. -/
theorem cobsDecodeLoop_eq (input : Bytes) (fuel i : Nat) (output : Bytes)
    (enough : input.length - i < fuel) :
    cobsDecodeLoop input fuel i output =
      (Stuffing.unstuff (input.drop i)).map fun payload => output ++ payload := by
  induction fuel generalizing i output with
  | zero => omega
  | succ fuel ih =>
    unfold cobsDecodeLoop
    by_cases inside : i < input.length
    · have got : input.getD i 0 = input[i] := by simp [inside]
      rw [if_pos inside, List.drop_eq_getElem_cons inside, Stuffing.unstuff, got]
      generalize input[i] = code
      by_cases zero : code = 0
      · simp [zero]
      · by_cases short : (input.drop (i + 1)).length < code.toNat - 1
        · have long : i + 1 + (code.toNat - 1) > input.length := by
            rw [List.length_drop] at short
            omega
          simp only [zero, short, long, if_false, if_true, Option.map_none]
        · have fits : ¬ i + 1 + (code.toNat - 1) > input.length := by
            rw [List.length_drop] at short
            omega
          have left : (input.drop (i + 1)).drop (code.toNat - 1) =
              input.drop (i + 1 + (code.toNat - 1)) := List.drop_drop
          have more : input.drop (i + 1 + (code.toNat - 1)) ≠ [] ↔
              i + 1 + (code.toNat - 1) < input.length := by
            rw [ne_eq, List.drop_eq_nil_iff]
            omega
          simp only [zero, short, fits, if_false, left, more]
          rw [ih _ _ (by omega), Option.map_map]
          congr 1
          funext payload
          by_cases implied : code ≠ 0xFF ∧ i + 1 + (code.toNat - 1) < input.length
          · simp [implied]
          · simp [implied]
    · have empty : input.drop i = [] := List.drop_eq_nil_iff.mpr (by omega)
      simp [inside, empty, Stuffing.unstuff]

/-- The decoder of the source decodes the stuffing format. -/
theorem cobsDecode_eq (input : Bytes) : cobsDecode input = Stuffing.unstuff input := by
  unfold cobsDecode
  rw [cobsDecodeLoop_eq input _ 0 [] (by omega)]
  simp

example : cobsDecode [0x03, 0x11, 0x22, 0x02, 0x33] = some [0x11, 0x22, 0x00, 0x33] := by decide

/-! ## Encoding -/

/-- `out[i] = value`; `none` where the index leaves the buffer. -/
def bufferSet (out : Bytes) (i : Nat) (value : UInt8) : Option Bytes :=
  if i < out.length then some (out.set i value) else none

/-- The locals of `cobs_encode`; `out_cap` is the length of `out`. -/
structure EncodeState where
  /-- The caller's buffer. -/
  out : Bytes
  /-- Next free index. -/
  writeIndex : Nat := 1
  /-- The reserved code slot of the open block. -/
  codeIndex : Nat := 0
  /-- Code of the open block so far. -/
  code : UInt8 := 1

/-- The loop of `cobs_encode` over the input left to read, with the final patch. -/
def cobsEncodeLoop : Bytes → EncodeState → Option (Nat × Bytes)
  | [], s => do
    let out ← bufferSet s.out s.codeIndex s.code
    some (s.writeIndex, out)
  | byte :: rest, s =>
    if byte = 0 then do
      let out ← bufferSet s.out s.codeIndex s.code
      let s : EncodeState :=
        { out, code := 1, codeIndex := s.writeIndex, writeIndex := s.writeIndex + 1 }
      if s.writeIndex ≥ out.length then some (0, out) else cobsEncodeLoop rest s
    else if s.writeIndex ≥ s.out.length then some (0, s.out)
    else do
      let out ← bufferSet s.out s.writeIndex byte
      let s := { s with out, writeIndex := s.writeIndex + 1, code := s.code + 1 }
      if s.code = 0xFF then do
        let out ← bufferSet s.out s.codeIndex s.code
        let s : EncodeState :=
          { out, code := 1, codeIndex := s.writeIndex, writeIndex := s.writeIndex + 1 }
        if s.writeIndex ≥ out.length then some (0, out) else cobsEncodeLoop rest s
      else cobsEncodeLoop rest s

/-- `cobs_encode` of fake_serial.c into the buffer `out`: the returned length and the buffer
after the call. -/
def cobsEncode (input out : Bytes) : Option (Nat × Bytes) :=
  if out.length = 0 then some (0, out)
  else if out.length < 2 ∧ 0 < input.length then some (0, out)
  else cobsEncodeLoop input { out }

/-- The buffer while a block is open: finished blocks, the reserved slot, the data of the open
block, and bytes not written yet. -/
structure EncodeState.Holds (s : EncodeState) (done block free : Bytes) (slot : UInt8) :
    Prop where
  /-- The four parts of the buffer. -/
  layout : s.out = done ++ slot :: (block ++ free)
  /-- The slot follows the finished blocks. -/
  slotAt : s.codeIndex = done.length
  /-- The next write follows the block's data. -/
  nextAt : s.writeIndex = done.length + 1 + block.length
  /-- The pending code counts the block. -/
  counted : s.code = Stuffing.code block

namespace EncodeState.Holds

variable {s : EncodeState} {done block free : Bytes} {slot first : UInt8}

/-- The capacity, part by part. -/
theorem capacity (holds : s.Holds done block free slot) :
    s.out.length = done.length + 1 + block.length + free.length := by
  rw [holds.layout]
  simp only [List.length_append, List.length_cons]
  omega

/-- Patching the slot finishes the block in place. -/
theorem patch (holds : s.Holds done block free slot) :
    bufferSet s.out s.codeIndex s.code =
      some (done ++ Stuffing.code block :: (block ++ free)) := by
  have inside : s.codeIndex < s.out.length := by
    rw [holds.capacity, holds.slotAt]
    omega
  rw [bufferSet, if_pos inside, holds.layout, holds.slotAt, holds.counted]
  simp

/-- Closing a block with a further byte to spare patches the slot and opens an empty block. -/
theorem close (holds : s.Holds done block free slot) (room : s.writeIndex + 1 < s.out.length) :
    ∃ out next more, bufferSet s.out s.codeIndex s.code = some out ∧
      out.length = s.out.length ∧
      ({ out, code := 1, codeIndex := s.writeIndex, writeIndex := s.writeIndex + 1 } :
        EncodeState).Holds (done ++ Stuffing.code block :: block) [] more next := by
  have capacity := holds.capacity
  have next := holds.nextAt
  cases free with
  | nil =>
    rw [List.length_nil] at capacity
    omega
  | cons first more =>
    refine ⟨_, first, more, holds.patch, ?_, by simp, ?_, ?_, rfl⟩
    · rw [capacity]
      simp only [List.length_append, List.length_cons]
      omega
    · simp only [next, List.length_append, List.length_cons]
      omega
    · simp only [next, List.length_append, List.length_cons, List.length_nil]
      omega

/-- A data byte goes to the first free place and is counted. -/
theorem write (holds : s.Holds done block (first :: free) slot) (value : UInt8) :
    ∃ out, bufferSet s.out s.writeIndex value = some out ∧ out.length = s.out.length ∧
      ({ s with out, writeIndex := s.writeIndex + 1, code := s.code + 1 } :
        EncodeState).Holds done (block ++ [value]) free slot := by
  have inside : s.writeIndex < s.out.length := by
    rw [holds.capacity, holds.nextAt, List.length_cons]
    omega
  have place : s.writeIndex = (done ++ slot :: block).length := by
    rw [holds.nextAt, List.length_append, List.length_cons]
    omega
  have shape : s.out = (done ++ slot :: block) ++ first :: free := by
    rw [holds.layout]
    simp
  refine ⟨s.out.set s.writeIndex value, by rw [bufferSet, if_pos inside], by simp,
    ?_, holds.slotAt, ?_, ?_⟩
  · rw [shape, place]
    simp
  · simp only [holds.nextAt, List.length_append, List.length_singleton]
    omega
  · rw [Stuffing.code_concat, ← holds.counted]

end EncodeState.Holds

/-- The least capacity the encoder asks for. The check behind a reserved slot wants a free byte
to follow it, so a payload whose last byte closes a block takes one byte more than its
encoding. -/
def encodeDemand (block rest : Bytes) : Nat :=
  (Stuffing.stuff block rest).length +
    if rest ≠ [] ∧ Stuffing.lastBlock block rest = [] then 1 else 0

/-- The call ends without leaving its buffer: with the whole encoding at the front if the
capacity meets the demand, and with its reported failure otherwise. -/
def Encodes (encoding : Bytes) (demand cap : Nat) (result : Option (Nat × Bytes)) : Prop :=
  ∃ after : Bytes, after.length = cap ∧
    result = some (if demand ≤ cap then encoding.length else 0, after) ∧
    (demand ≤ cap → encoding <+: after)

/-- A reserved slot asks for itself and one byte, and then for what the rest asks for. -/
theorem demand_behind_slot (rest : Bytes) :
    (Stuffing.stuff [] rest).length + (if Stuffing.lastBlock [] rest = [] then 1 else 0) =
      max 2 (encodeDemand [] rest) := by
  have written := Stuffing.stuff_length [] rest (by decide)
  cases rest with
  | nil => rfl
  | cons byte rest =>
    rw [List.length_cons] at written
    simp only [encodeDemand, ne_eq, reduceCtorEq, not_false_eq_true, true_and]
    omega

/-- Both ways of closing a block: patch the slot, reserve the next one, check the capacity, and
go on with the rest. -/
theorem encodes_close {s : EncodeState} {done block free : Bytes} {slot : UInt8} (rest : Bytes)
    (holds : s.Holds done block free slot)
    (onward : ∀ {s : EncodeState} {done free : Bytes} {slot : UInt8}, s.Holds done [] free slot →
      Encodes (done ++ Stuffing.stuff [] rest) (done.length + encodeDemand [] rest) s.out.length
        (cobsEncodeLoop rest s)) :
    Encodes (done ++ Stuffing.code block :: (block ++ Stuffing.stuff [] rest))
      (done.length + (1 + block.length + max 2 (encodeDemand [] rest))) s.out.length
      ((bufferSet s.out s.codeIndex s.code).bind fun out =>
        if s.writeIndex + 1 ≥ out.length then some (0, out)
        else cobsEncodeLoop rest
          { out, code := 1, codeIndex := s.writeIndex, writeIndex := s.writeIndex + 1 }) := by
  have capacity := holds.capacity
  have next := holds.nextAt
  by_cases room : s.writeIndex + 1 < s.out.length
  · obtain ⟨out, slot, free, patched, size, fresh⟩ := holds.close room
    obtain ⟨after, kept, result, front⟩ := onward fresh
    dsimp only at kept result front
    have place : (done ++ Stuffing.code block :: block).length =
        done.length + 1 + block.length := by
      simp only [List.length_append, List.length_cons]
      omega
    -- past the check the slot and its byte are there, so only the rest can still ask for more
    have same : (done ++ Stuffing.code block :: block).length + encodeDemand [] rest ≤ out.length ↔
        done.length + (1 + block.length + max 2 (encodeDemand [] rest)) ≤ s.out.length := by
      omega
    simp only [same] at result front
    rw [patched, Option.bind_some, if_neg (by omega), result]
    refine ⟨after, by omega, ?_, fun fits => ?_⟩
    · simp
    · simpa using front fits
  · have size : (done ++ Stuffing.code block :: (block ++ free)).length = s.out.length := by
      rw [capacity]
      simp only [List.length_append, List.length_cons]
      omega
    have short : ¬ done.length + (1 + block.length + max 2 (encodeDemand [] rest)) ≤
        s.out.length := by
      omega
    rw [holds.patch, Option.bind_some, if_pos (by omega)]
    exact ⟨_, size, by rw [if_neg short], fun fits => absurd fits short⟩

/-- From any point of the encoding the loop finishes it if the capacity meets the demand, reports
failure if not, and never writes outside its buffer. -/
theorem cobsEncodeLoop_spec (rest : Bytes) {s : EncodeState} {done block free : Bytes}
    {slot : UInt8} (holds : s.Holds done block free slot)
    (short : block.length < Stuffing.blockLimit) :
    Encodes (done ++ Stuffing.stuff block rest) (done.length + encodeDemand block rest)
      s.out.length (cobsEncodeLoop rest s) := by
  induction rest generalizing s done block free slot with
  | nil =>
    have capacity := holds.capacity
    have fits : done.length + encodeDemand block [] ≤ s.out.length := by
      simp only [encodeDemand, Stuffing.stuff, List.length_cons, ne_eq, not_true_eq_false,
        false_and, if_false]
      omega
    refine ⟨done ++ Stuffing.code block :: (block ++ free), ?_, ?_, fun _ => ?_⟩
    · rw [capacity]
      simp only [List.length_append, List.length_cons]
      omega
    · rw [if_pos fits, cobsEncodeLoop, holds.patch, holds.nextAt]
      simp only [Option.bind_eq_bind, Option.bind_some, Stuffing.stuff, List.length_append,
        List.length_cons]
      congr 2
      omega
    · exact ⟨free, by simp [Stuffing.stuff]⟩
  | cons byte rest ih =>
    have closing := fun {s : EncodeState} {done free : Bytes} {slot : UInt8}
      (fresh : s.Holds done [] free slot) => ih fresh (by decide)
    have behind := demand_behind_slot rest
    unfold cobsEncodeLoop
    by_cases zero : byte = 0
    · subst zero
      have demand : encodeDemand block (0 :: rest) =
          1 + block.length + max 2 (encodeDemand [] rest) := by
        rw [← behind]
        simp only [encodeDemand, Stuffing.stuff, Stuffing.lastBlock, if_true, ne_eq, reduceCtorEq,
          not_false_eq_true, true_and, List.length_cons, List.length_append]
        omega
      rw [if_pos rfl, demand, Stuffing.stuff, if_pos rfl]
      exact encodes_close rest holds closing
    · have capacity := holds.capacity
      have next := holds.nextAt
      have grown : (block ++ [byte]).length = block.length + 1 := by simp
      rw [if_neg zero]
      cases free with
      | nil =>
        have written := Stuffing.stuff_length block (byte :: rest) short
        rw [List.length_nil] at capacity
        rw [List.length_cons] at written
        have refused : ¬ done.length + encodeDemand block (byte :: rest) ≤ s.out.length := by
          unfold encodeDemand
          omega
        rw [if_pos (by omega)]
        exact ⟨s.out, rfl, by rw [if_neg refused], fun fits => absurd fits refused⟩
      | cons first free =>
        rw [List.length_cons] at capacity
        obtain ⟨out, stored, size, holds⟩ := holds.write byte
        have filled : s.code + 1 = 0xFF ↔ block.length + 1 = Stuffing.blockLimit := by
          rw [show s.code + 1 = Stuffing.code (block ++ [byte]) from holds.counted,
            Stuffing.code_eq_full (by omega), grown]
        rw [if_neg (by omega), stored, Option.bind_eq_bind, Option.bind_some, ← size]
        simp only [filled]
        by_cases full : block.length + 1 = Stuffing.blockLimit
        · have demand : encodeDemand block (byte :: rest) =
              1 + (block ++ [byte]).length + max 2 (encodeDemand [] rest) := by
            rw [← behind]
            simp only [encodeDemand, Stuffing.stuff, Stuffing.lastBlock, zero, full, if_true,
              if_false, ne_eq, reduceCtorEq, not_false_eq_true, true_and, List.length_cons,
              List.length_append, List.length_nil]
            omega
          rw [if_pos full, demand, Stuffing.stuff, if_neg zero, if_pos full]
          exact encodes_close rest holds closing
        · have demand : encodeDemand block (byte :: rest) =
              encodeDemand (block ++ [byte]) rest := by
            cases rest <;>
              simp [encodeDemand, Stuffing.stuff, Stuffing.lastBlock, zero, full]
          rw [if_neg full, demand, Stuffing.stuff, if_neg zero, if_neg full]
          exact ih holds (by omega)

/-- The encoder of the source writes the stuffing format at the front of its buffer exactly if
the capacity meets the demand, and reports failure otherwise. -/
theorem cobsEncode_encodes (input out : Bytes) :
    Encodes (Stuffing.stuff [] input) (encodeDemand [] input) out.length
      (cobsEncode input out) := by
  have written := Stuffing.stuff_length [] input (by decide)
  rw [List.length_nil] at written
  have least : 1 ≤ encodeDemand [] input := by
    unfold encodeDemand
    omega
  unfold cobsEncode
  cases out with
  | nil =>
    rw [if_pos List.length_nil, List.length_nil]
    exact ⟨[], rfl, by rw [if_neg (by omega)], fun fits => by omega⟩
  | cons slot free =>
    rw [if_neg (by simp)]
    by_cases tight : (slot :: free).length < 2 ∧ 0 < input.length
    · have more : ¬ encodeDemand [] input ≤ (slot :: free).length := by
        unfold encodeDemand
        omega
      rw [if_pos tight]
      exact ⟨_, rfl, by rw [if_neg more], fun fits => absurd fits more⟩
    · rw [if_neg tight]
      have opened : ({ out := slot :: free } : EncodeState).Holds [] [] free slot :=
        ⟨rfl, rfl, rfl, rfl⟩
      have whole := cobsEncodeLoop_spec input opened (by decide)
      simpa only [List.nil_append, List.length_nil, Nat.zero_add] using whole

/-- With a buffer longer than the encoding, the encoder of the source writes the stuffing
format at its front and returns its length. -/
theorem cobsEncode_spec (input out : Bytes)
    (room : (Stuffing.stuff [] input).length < out.length) :
    ∃ unused, (Stuffing.stuff [] input ++ unused).length = out.length ∧
      cobsEncode input out =
        some ((Stuffing.stuff [] input).length, Stuffing.stuff [] input ++ unused) := by
  obtain ⟨after, kept, result, front⟩ := cobsEncode_encodes input out
  have fits : encodeDemand [] input ≤ out.length := by
    unfold encodeDemand
    split <;> omega
  obtain ⟨unused, rfl⟩ := front fits
  rw [if_pos fits] at result
  exact ⟨unused, kept, result⟩

/-! ## The encoder of the unit tests -/

/-- The locals of `cobs_encode` in test_jobrunner.cpp. -/
structure TestEncodeState where
  /-- The vector. -/
  out : Bytes
  /-- Index of the placeholder of the open block. -/
  codeIndex : Nat
  /-- Code of the open block so far. -/
  code : UInt8

/-- The loop over the input with the final patch; `none` is an index outside the vector. -/
def testCobsEncodeLoop : Bytes → TestEncodeState → Option Bytes
  | [], s => bufferSet s.out s.codeIndex s.code
  | byte :: rest, s =>
    if byte = 0 then do
      let out ← bufferSet s.out s.codeIndex s.code
      testCobsEncodeLoop rest { codeIndex := out.length, out := out ++ [0], code := 1 }
    else
      let s := { s with out := s.out ++ [byte], code := s.code + 1 }
      if s.code = 0xFF then do
        let out ← bufferSet s.out s.codeIndex s.code
        testCobsEncodeLoop rest { codeIndex := out.length, out := out ++ [0], code := 1 }
      else testCobsEncodeLoop rest s

/-- `cobs_encode` of test_jobrunner.cpp. -/
def testCobsEncode (input : Bytes) : Option Bytes :=
  testCobsEncodeLoop input { codeIndex := 0, code := 1, out := [0] }

/-- The vector while a block is open: finished blocks, the placeholder, the block's data. -/
theorem testCobsEncodeLoop_eq (rest done block : Bytes) (slot : UInt8)
    (short : block.length < Stuffing.blockLimit) :
    testCobsEncodeLoop rest
      { out := done ++ slot :: block, codeIndex := done.length, code := Stuffing.code block } =
      some (done ++ Stuffing.stuff block rest) := by
  induction rest generalizing done block slot with
  | nil => simp [testCobsEncodeLoop, Stuffing.stuff, bufferSet]
  | cons byte rest ih =>
    -- both ways of closing a block patch the placeholder and append the next one
    have closed : ∀ data : Bytes, ((bufferSet (done ++ slot :: data) done.length
        (Stuffing.code data)).bind fun out => testCobsEncodeLoop rest
          { codeIndex := out.length, out := out ++ [0], code := 1 }) =
        some (done ++ Stuffing.code data :: (data ++ Stuffing.stuff [] rest)) := by
      intro data
      have patched : bufferSet (done ++ slot :: data) done.length (Stuffing.code data) =
          some (done ++ Stuffing.code data :: data) := by simp [bufferSet]
      have onward := ih (done ++ Stuffing.code data :: data) [] 0 (by decide)
      rw [patched, Option.bind_some]
      simp only [List.append_assoc, List.cons_append] at onward ⊢
      exact onward
    unfold testCobsEncodeLoop Stuffing.stuff
    by_cases zero : byte = 0
    · rw [if_pos zero, if_pos zero]
      exact closed block
    · have grown : (block ++ [byte]).length = block.length + 1 := by simp
      have filled : Stuffing.code (block ++ [byte]) = 0xFF ↔
          block.length + 1 = Stuffing.blockLimit := by
        rw [Stuffing.code_eq_full (by omega), grown]
      simp only [if_neg zero, ← Stuffing.code_concat block byte, filled, List.append_assoc,
        List.cons_append]
      split
      · simpa using closed (block ++ [byte])
      · exact ih done (block ++ [byte]) slot (by omega)

/-- The encoder of the unit tests returns the stuffing format. -/
theorem testCobsEncode_eq (input : Bytes) :
    testCobsEncode input = some (Stuffing.stuff [] input) :=
  testCobsEncodeLoop_eq input [] [] 0 (by decide)

/-! ## The emulated device -/

/-- `sizeof(enc)` in the send loop of fake_serial. -/
def encSize : Nat := 1024

/-- One round of the send loop: the bytes handed to `send_all`. The outer `none` is undefined
behaviour, the inner one a `break` (payload too large, or the encoder failed). `enc` is the
uninitialised local buffer. -/
def deviceFrame (payload enc : Bytes) : Option (Option Bytes) :=
  if payload.length + payload.length / 254 + 2 > enc.length then some none
  else do
    let (encLen, enc) ← cobsEncode payload enc
    if encLen = 0 then some none
    else do
      let enc ← bufferSet enc encLen 0x00
      some (some (enc.take (encLen + 1)))

/-- A payload that passes the size guard is sent as its encoding and one delimiter. -/
theorem deviceFrame_spec (payload enc : Bytes)
    (guard : payload.length + payload.length / 254 + 2 ≤ enc.length) :
    deviceFrame payload enc = some (some (Stuffing.stuff [] payload ++ [0x00])) := by
  have bounds := Stuffing.stuff_length [] payload (by decide)
  simp only [List.length_nil, Nat.zero_add, Stuffing.blockLimit] at bounds
  obtain ⟨unused, kept, encoded⟩ := cobsEncode_spec payload enc (by omega)
  rw [List.length_append] at kept
  cases unused with
  | nil =>
    rw [List.length_nil] at kept
    omega
  | cons first unused =>
    have patched : bufferSet (Stuffing.stuff [] payload ++ first :: unused)
        (Stuffing.stuff [] payload).length 0x00 =
        some (Stuffing.stuff [] payload ++ 0x00 :: unused) := by
      simp [bufferSet]
    unfold deviceFrame
    rw [if_neg (by omega), encoded]
    simp only [Option.bind_eq_bind, Option.bind_some, patched]
    rw [if_neg (by omega), List.take_length_add_append]
    rfl

end QrEdgeGateway
