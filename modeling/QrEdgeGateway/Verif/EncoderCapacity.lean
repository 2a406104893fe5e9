import QrEdgeGateway.Cobs

/-!
# How much room the encoder needs

The comment on `cobs_encode` asks for a buffer of `in_len + in_len/254 + 1` bytes. That is the
longest encoding, but the encoder checks its capacity behind every code slot it reserves, also
behind the last one: a payload whose last byte closes a block takes one byte more. Whatever the
capacity, the encoder stays in its buffer and writes the whole encoding or reports failure; and
it writes what the encoder of the unit tests returns.
-/

namespace QrEdgeGateway

/-- The capacity that the comment on `cobs_encode` states. -/
def statedCapacity (inLen : Nat) : Nat := inLen + inLen / 254 + 1

/-- The encoding of a payload and the demand of the encoder, from the payload. -/
theorem encodeDemand_eq (payload : Bytes) :
    encodeDemand [] payload = payload.length + 1 + Stuffing.fullBlocks payload +
      if payload ≠ [] ∧ 254 ∣ (Stuffing.lastRun payload).length then 1 else 0 := by
  have length := Stuffing.stuff_length_eq [] payload (by decide) (by simp)
  have left := Stuffing.lastBlock_length [] payload (by decide) (by simp)
  have closed : Stuffing.lastBlock [] payload = [] ↔ 254 ∣ (Stuffing.lastRun payload).length := by
    rw [← List.length_eq_zero_iff, left, List.nil_append]
    exact Nat.dvd_iff_mod_eq_zero.symm
  rw [encodeDemand, length]
  simp only [closed, List.length_nil, Nat.zero_add, List.nil_append]

/-- Runs of nonzero bytes fill no more blocks than the whole payload could. -/
theorem fullBlocks_le (payload : Bytes) : Stuffing.fullBlocks payload ≤ payload.length / 254 := by
  have length := Stuffing.stuff_length_eq [] payload (by decide) (by simp)
  have bounds := Stuffing.stuff_length [] payload (by decide)
  simp only [List.length_nil, Nat.zero_add, List.nil_append, Stuffing.blockLimit] at length bounds
  omega

/-- The stated capacity suffices exactly if there is a byte more than stated, or the payload is
not one of those that take the stated worst case and a byte: it is empty, its last block stays
open, or its zeros leave it fewer full blocks than its length could fill. -/
theorem cobsEncode_complete_iff (payload out : Bytes)
    (stated : statedCapacity payload.length ≤ out.length) :
    (∃ n after, cobsEncode payload out = some (n, after) ∧ 0 < n ∧
      after.take n = Stuffing.stuff [] payload) ↔
    statedCapacity payload.length < out.length ∨ payload = [] ∨
      ¬ 254 ∣ (Stuffing.lastRun payload).length ∨
      Stuffing.fullBlocks payload < payload.length / 254 := by
  obtain ⟨after, kept, result, front⟩ := cobsEncode_encodes payload out
  have demand := encodeDemand_eq payload
  have filled := fullBlocks_le payload
  have nonempty : (Stuffing.stuff [] payload).length ≠ 0 := by
    simp [Stuffing.stuff_ne_nil]
  have enough : encodeDemand [] payload ≤ out.length ↔
      statedCapacity payload.length < out.length ∨ payload = [] ∨
        ¬ 254 ∣ (Stuffing.lastRun payload).length ∨
        Stuffing.fullBlocks payload < payload.length / 254 := by
    unfold statedCapacity at stated ⊢
    rw [demand]
    by_cases closes : payload ≠ [] ∧ 254 ∣ (Stuffing.lastRun payload).length
    · simp only [closes, if_true, ne_eq, not_false_eq_true, true_and, false_or, not_true_eq_false]
      omega
    · rw [if_neg closes]
      have leaves : payload = [] ∨ ¬ 254 ∣ (Stuffing.lastRun payload).length := by tauto
      constructor
      · intro _
        tauto
      · intro _
        omega
  rw [← enough]
  constructor
  · rintro ⟨n, found, same, positive, -⟩
    by_contra short
    rw [result, if_neg short] at same
    cases same
    exact absurd positive (Nat.lt_irrefl 0)
  · intro fits
    rw [if_pos fits] at result
    refine ⟨_, after, result, Nat.pos_of_ne_zero nonempty, ?_⟩
    exact (List.prefix_iff_eq_take.mp (front fits)).symm

/-- One nonzero byte goes into the two bytes stated for it. -/
theorem cobsEncode_complete_single : statedCapacity ([0x11] : Bytes).length ≤ 2 ∧
    ∃ n after, cobsEncode [0x11] [0xAA, 0xAA] = some (n, after) ∧ 0 < n ∧
      after.take n = Stuffing.stuff [] [0x11] := by
  have stated : statedCapacity ([0x11] : Bytes).length ≤ ([0xAA, 0xAA] : Bytes).length := by decide
  refine ⟨stated, (cobsEncode_complete_iff [0x11] [0xAA, 0xAA] stated).mpr ?_⟩
  exact .inr (.inr (.inl (by decide)))

/-- One zero does not go into the two bytes stated for it: the encoder has patched the first
code and reserved the second, and gives up. -/
theorem cobsEncode_zero_fails : statedCapacity ([0x00] : Bytes).length = 2 ∧
    cobsEncode [0x00] [0xAA, 0xAA] = some (0, [0x01, 0xAA]) ∧
    Stuffing.stuff [] [0x00] = [0x01, 0x01] := by
  decide

/-- Whatever the payload and the capacity, no write leaves the buffer, and what is returned with
a positive length is the encoding that every larger buffer would get. -/
theorem cobsEncode_all_or_nothing (payload out : Bytes) :
    ∃ n after, cobsEncode payload out = some (n, after) ∧ after.length = out.length ∧
      (0 < n → n ≤ out.length ∧ ∀ large : Bytes, statedCapacity payload.length < large.length →
        ∃ unused, cobsEncode payload large = some (n, after.take n ++ unused)) := by
  obtain ⟨after, kept, result, front⟩ := cobsEncode_encodes payload out
  refine ⟨_, after, result, kept, fun positive => ?_⟩
  have fits : encodeDemand [] payload ≤ out.length := by
    by_contra short
    rw [if_neg short] at positive
    exact absurd positive (Nat.lt_irrefl 0)
  have written := front fits
  rw [if_pos fits]
  refine ⟨kept ▸ written.length_le, fun large room => ?_⟩
  have bounds := Stuffing.stuff_length [] payload (by decide)
  simp only [List.length_nil, Nat.zero_add, Stuffing.blockLimit] at bounds
  unfold statedCapacity at room
  obtain ⟨unused, -, encoded⟩ := cobsEncode_spec payload large (by omega)
  refine ⟨unused, ?_⟩
  rw [encoded, ← List.prefix_iff_eq_take.mp written]

/-- The shipped encoder writes what the encoder of the unit tests returns. -/
theorem cobsEncode_eq_testCobsEncode (payload out : Bytes)
    (room : payload.length + payload.length / 254 + 2 ≤ out.length) :
    ∃ n after, cobsEncode payload out = some (n, after) ∧ 0 < n ∧
      testCobsEncode payload = some (after.take n) := by
  have bounds := Stuffing.stuff_length [] payload (by decide)
  simp only [List.length_nil, Nat.zero_add, Stuffing.blockLimit] at bounds
  obtain ⟨unused, -, encoded⟩ := cobsEncode_spec payload out (by omega)
  refine ⟨_, _, encoded, by omega, ?_⟩
  rw [testCobsEncode_eq, List.take_left]

/-- Both encoders on a zero between two bytes. -/
theorem cobsEncode_eq_testCobsEncode_zero :
    ∃ n after, cobsEncode [0x11, 0x00, 0x22] (List.replicate 5 0xAA) = some (n, after) ∧ 0 < n ∧
      testCobsEncode [0x11, 0x00, 0x22] = some (after.take n) :=
  cobsEncode_eq_testCobsEncode _ _ (by decide)

end QrEdgeGateway
