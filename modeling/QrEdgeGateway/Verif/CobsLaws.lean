import QrEdgeGateway.Cobs

/-!
# The two COBS routines are inverse

The encoder of the emulated device and the decoder of the job runner were written apart, one
in C over a fixed buffer, one in C++ over a vector. Decoding undoes encoding on every payload.
Encoding undoes decoding on every zero-free frame but for an empty block behind a full one,
which the decoder does not miss and the encoder always writes.
-/

namespace QrEdgeGateway

/-- With a byte more than its comment asks for, the encoder writes a zero-free frame of bounded
length that the decoder takes back to the payload. -/
theorem cobsDecode_undoes_cobsEncode (payload out : Bytes)
    (room : payload.length + payload.length / 254 + 2 ≤ out.length) :
    ∃ e unused, cobsEncode payload out = some (e.length, e ++ unused) ∧
      (e ++ unused).length = out.length ∧ (∀ byte ∈ e, byte ≠ 0) ∧
      payload.length + 1 ≤ e.length ∧ e.length ≤ payload.length + payload.length / 254 + 1 ∧
      cobsDecode e = some payload := by
  have bounds := Stuffing.stuff_length [] payload (by decide)
  simp only [List.length_nil, Nat.zero_add, Stuffing.blockLimit] at bounds
  obtain ⟨unused, kept, encoded⟩ := cobsEncode_spec payload out (by omega)
  have nonzero := Stuffing.stuff_nonzero [] payload (by decide) (by simp)
  have decoded : cobsDecode (Stuffing.stuff [] payload) = some payload := by
    rw [cobsDecode_eq, Stuffing.unstuff_stuff (by decide), List.nil_append]
  exact ⟨_, unused, encoded, kept, nonzero, bounds.1, bounds.2, decoded⟩

/-- One payload with a zero inside, into a buffer of just the size asked for. -/
theorem cobsDecode_undoes_cobsEncode_zero :
    ([0x11, 0x00] : Bytes).length + ([0x11, 0x00] : Bytes).length / 254 + 2 ≤
      (List.replicate 4 0xAA : Bytes).length ∧
    ∃ e unused, cobsEncode [0x11, 0x00] (List.replicate 4 0xAA) = some (e.length, e ++ unused) ∧
      cobsDecode e = some [0x11, 0x00] := by
  have room : ([0x11, 0x00] : Bytes).length + ([0x11, 0x00] : Bytes).length / 254 + 2 ≤
      (List.replicate 4 0xAA : Bytes).length := by decide
  obtain ⟨e, unused, encoded, -, -, -, -, decoded⟩ := cobsDecode_undoes_cobsEncode _ _ room
  exact ⟨room, e, unused, encoded, decoded⟩

/-- What encoding the payload of a frame gives: the frame, and an empty block behind it if it
is empty or the code of its last block is `0xFF`. -/
def reframed (blocks : List Bytes) (frame : Bytes) : Bytes :=
  if frame = [] ∨ blocks.getLast?.map Stuffing.code = some 0xFF then frame ++ [0x01] else frame

/-- The format encodes the payload of a zero-free frame as the frame, reframed. -/
theorem stuff_reframed {blocks : List Bytes} {frame payload : Bytes}
    (whole : Stuffing.Whole blocks frame) (clean : (0 : UInt8) ∉ frame)
    (decoded : cobsDecode frame = some payload) :
    Stuffing.stuff [] payload = reframed blocks frame := by
  rw [cobsDecode_eq] at decoded
  have empty : frame = [] ↔ blocks = [] := by rw [whole.shape, Stuffing.joined_eq_nil]
  rw [Stuffing.stuff_unstuff whole clean decoded]
  by_cases full : Stuffing.endsFull blocks = true
  · have ends := (Stuffing.endsFull_iff whole.short).mp full
    rw [← empty] at ends
    rw [if_pos full, reframed, if_pos ends]
  · have ends := mt (Stuffing.endsFull_iff whole.short).mpr full
    rw [← empty] at ends
    rw [if_neg full, reframed, if_neg ends, List.append_nil]

/-- A reframed frame is the frame or has one trailing byte more. -/
theorem reframed_cases (blocks : List Bytes) (frame : Bytes) :
    reframed blocks frame = frame ∨ reframed blocks frame = frame ++ [0x01] := by
  unfold reframed
  split
  · exact .inr rfl
  · exact .inl rfl

/-- Two zero-free frames of one payload differ at most by one trailing `0x01`. -/
theorem eq_or_trailing {x y payload : Bytes} (clean : (0 : UInt8) ∉ x)
    (also : (0 : UInt8) ∉ y) (left : cobsDecode x = some payload)
    (right : cobsDecode y = some payload) :
    y = x ∨ y = x ++ [0x01] ∨ x = y ++ [0x01] := by
  obtain ⟨first, whole⟩ := Stuffing.whole_of_unstuff (cobsDecode_eq x ▸ left)
  obtain ⟨second, whole'⟩ := Stuffing.whole_of_unstuff (cobsDecode_eq y ▸ right)
  have same : reframed second y = reframed first x := by
    rw [← stuff_reframed whole clean left, ← stuff_reframed whole' also right]
  rcases reframed_cases first x with one | one <;> rcases reframed_cases second y with two | two
  · exact .inl (two.symm.trans (same.trans one))
  · exact .inr (.inr (one.symm.trans (same.symm.trans two)))
  · exact .inr (.inl (two.symm.trans (same.trans one)))
  · have equal := two.symm.trans (same.trans one)
    exact .inl (List.append_cancel_right equal)

/-- Encoding undoes decoding up to the one redundant form, no other two zero-free frames share a
payload, and exactly the sequences of whole blocks are decoded at all. -/
theorem cobsEncode_undoes_cobsDecode (x : Bytes) :
    ((0 : UInt8) ∉ x → ∀ payload, cobsDecode x = some payload →
      (∀ blocks out, Stuffing.Whole blocks x → (reframed blocks x).length < out.length →
        ∃ unused, cobsEncode payload out =
          some ((reframed blocks x).length, reframed blocks x ++ unused)) ∧
      ∀ y, (0 : UInt8) ∉ y → cobsDecode y = some payload → y ≠ x →
        y = x ++ [0x01] ∨ x = y ++ [0x01]) ∧
    ((cobsDecode x).isSome = true ↔ ∃ blocks, Stuffing.Whole blocks x) := by
  refine ⟨fun clean payload decoded => ⟨?_, ?_⟩, ?_⟩
  · intro blocks out whole room
    have frame := stuff_reframed whole clean decoded
    rw [← frame] at room ⊢
    obtain ⟨unused, -, encoded⟩ := cobsEncode_spec payload out room
    exact ⟨unused, encoded⟩
  · intro y also other distinct
    exact (eq_or_trailing clean also decoded other).resolve_left distinct
  · rw [cobsDecode_eq]
    exact Stuffing.unstuff_isSome

/-- A frame of three blocks, the middle one empty, is decoded, and encoding its payload gives the
frame back. -/
theorem cobsEncode_undoes_cobsDecode_blocks :
    cobsDecode [0x02, 0x41, 0x01, 0x03, 0x42, 0x43] = some [0x41, 0x00, 0x00, 0x42, 0x43] ∧
    (∃ unused, cobsEncode [0x41, 0x00, 0x00, 0x42, 0x43] (List.replicate 8 0xAA) =
      some (6, [0x02, 0x41, 0x01, 0x03, 0x42, 0x43] ++ unused)) ∧
    ∃ blocks, Stuffing.Whole blocks [0x02, 0x41, 0x01, 0x03, 0x42, 0x43] := by
  have decoded : cobsDecode [0x02, 0x41, 0x01, 0x03, 0x42, 0x43] =
      some [0x41, 0x00, 0x00, 0x42, 0x43] := by decide
  have whole : Stuffing.Whole [[0x41], [], [0x42, 0x43]]
      ([0x02, 0x41, 0x01, 0x03, 0x42, 0x43] : Bytes) := ⟨by decide, by decide⟩
  obtain ⟨encodes, decodes⟩ := cobsEncode_undoes_cobsDecode [0x02, 0x41, 0x01, 0x03, 0x42, 0x43]
  exact ⟨decoded, (encodes (by decide) _ decoded).1 _ _ whole (by decide),
    decodes.mp (by rw [decoded]; rfl)⟩

end QrEdgeGateway
