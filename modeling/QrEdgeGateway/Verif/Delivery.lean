import QrEdgeGateway.Verif.Reading

/-!
# From the device to the store

A payload that passes the size guard of the emulated device travels through four pieces: the
encoder with its buffer, the frame on the wire, the reader that gets the frame in arbitrary
chunks among idle rounds, and the decoder. As long as the rounds fit the budget the reader
returns the encoding, the decoder the payload, and the job stores it.
-/

namespace QrEdgeGateway

/-- Bytes in front of a round that ends with the delimiter are part of the body. -/
theorem Round.split_front {front body : Bytes} {rest : List Round} {last : Chunk}
    (delivers : front ++ (Round.ending rest last).flatMap Round.bytes = body ++ [0]) :
    ∃ later, body = front ++ later ∧
      (Round.ending rest last).flatMap Round.bytes = later ++ [0] := by
  obtain ⟨later, final, shape⟩ : ∃ later final,
      (Round.ending rest last).flatMap Round.bytes = later ++ [final] := by
    refine ⟨_, _, (List.dropLast_concat_getLast ?_).symm⟩
    simp [Round.ending, Round.bytes, last.nonempty]
  rw [shape, ← List.append_assoc] at delivers
  obtain ⟨same, zero⟩ := List.append_inj' delivers rfl
  exact ⟨later, same.symm, by rw [shape, zero]⟩

namespace Reader

/-- A list of rounds that delivers a body and its delimiter in its last round, within the
budget, ends the call with the body. -/
theorem run_rounds (rounds : List Round) (last : Chunk) (r : Reader) {body : Bytes}
    (head : r.pc = .head)
    (delivers : (Round.ending rounds last).flatMap Round.bytes = body ++ [0])
    (clean : (0 : UInt8) ∉ body) (fits : r.frame.length + body.length ≤ maxFrame)
    (budget : stepMs * rounds.length < r.remaining) :
    ∃ left : Int, Transition.run Reader.step r ((Round.ending rounds last).flatMap Round.obs) =
      some { remaining := left, frame := r.frame ++ body,
             pc := .returned (!(r.frame ++ body).isEmpty) } := by
  induction rounds generalizing r body with
  | nil =>
    refine ⟨r.remaining, ?_⟩
    have shape : last.bytes = body ++ 0 :: [] := by
      simpa [Round.ending, Round.bytes] using delivers
    have one : (Round.ending [] last).flatMap Round.obs = (Round.data last).obs := by
      simp [Round.ending]
    rw [one, run_round r _ head, after, onChunk_delimiter shape clean fits]
  | cons round rest ih =>
    have cons : Round.ending (round :: rest) last = round :: Round.ending rest last := rfl
    rw [cons, List.flatMap_cons] at delivers
    -- the delimiter is the last byte of a later round, so this one delivers part of the body
    obtain ⟨later, rfl, onward⟩ := Round.split_front delivers
    rw [List.mem_append, not_or] at clean
    rw [List.length_append] at fits
    obtain ⟨left, charged, next⟩ := after_clean r round clean.1 (by omega)
    have more : stepMs * rest.length < left := by
      rw [List.length_cons] at budget
      push_cast at budget
      unfold stepMs at budget charged ⊢
      omega
    have positive : 0 < left := by
      have : 0 ≤ stepMs * rest.length := by unfold stepMs; omega
      omega
    have resumed : r.after round =
        { remaining := left, frame := r.frame ++ round.bytes, pc := .head } := by
      rw [next, again_of_pos positive]
    obtain ⟨final, reached⟩ := ih (r := { remaining := left, frame := r.frame ++ round.bytes })
      rfl onward clean.2 (by rw [List.length_append]; omega) more
    refine ⟨final, ?_⟩
    rw [cons, List.flatMap_cons]
    refine Transition.run_trans ((run_round r round head).trans (congrArg some resumed)) ?_
    rw [reached, List.append_assoc]

end Reader

namespace Job

/-- The observations of one pass through the loop of `run_job` that reads a frame: the flag, the
clock, `open`, the rounds of the reader, the flag again and the tests of the frame. -/
def passObs (now : Int) (rounds : List Round) : List Obs :=
  [.running true, .clock now, .opened true] ++ rounds.flatMap Round.obs ++ [.running true, .tau]

/-- The observations of a job that reads each chunk in a pass of its own. -/
def readEach (cut : List Chunk) : List Obs :=
  .clock 0 :: cut.flatMap fun chunk => passObs 0 [.data chunk]

/-- A pass whose reader returns a frame that holds a QR text leads to its write. -/
theorem run_pass {j : Job} {now left : Int} {rounds : List Round} {enc payload : Bytes}
    (head : j.pc = .head) (early : now < j.deadline)
    (positive : 0 < (j.deadline - now) / nsPerMs)
    (read : Transition.run Reader.step (.enter ((j.deadline - now) / nsPerMs))
      (rounds.flatMap Round.obs) =
        some { remaining := left, frame := enc, pc := .returned true })
    (accepted : acceptFrame enc = some payload) :
    Transition.run Job.next j (passObs now rounds) =
      some { j with pc := .storing (.done payload) } := by
  have entered : Reader.enter ((j.deadline - now) / nsPerMs) =
      { remaining := (j.deadline - now) / nsPerMs } := Reader.again_of_pos positive
  have opened : Transition.run Job.next j [.running true, .clock now, .opened true] =
      some { j with pc := .reading (.enter ((j.deadline - now) / nsPerMs)) } := by
    have late : ¬ now ≥ j.deadline := by omega
    simp [Transition.run, Job.next, step, head, late, entered, JobPc.ofReader]
  have inside : ∀ got, (Reader.enter ((j.deadline - now) / nsPerMs)).pc ≠ .returned got := by
    rw [entered]
    simp
  have returned := run_reading j inside read
  have judged : Transition.run Job.next { j with pc := .closed true enc } [.running true, .tau] =
      some { j with pc := .storing (.done payload) } := by
    simp [Transition.run, Job.next, step, judge, accepted]
  exact Transition.run_trans (Transition.run_trans opened returned) judged

end Job

/-- End-to-end delivery. Every QR payload that passes the device's size guard, zero-free as the
device's C strings are or not, is encoded into the 1024-byte buffer with a length `n ≠ 0` that
leaves room for the delimiter, and sent as those `n` nonzero bytes and one `0x00`. Take any
rounds of the reader, without error or cancellation, whose chunks make up that frame, the last
one holding its end, and which are no more than the budget has steps of 50 ms. Then
`read_cobs_frame` returns the `n` bytes, `cobs_decode` the payload, and a pass of `run_job` at
its loop head stores `DONE` with it. -/
theorem payload_is_delivered (payload enc : Bytes) (buffer : enc.length = encSize)
    (qr : startsWithQr payload = true)
    (guard : payload.length + payload.length / 254 + 2 ≤ encSize) :
    ∃ (n : Nat) (out : Bytes), cobsEncode payload enc = some (n, out) ∧ n ≠ 0 ∧
      n + 1 ≤ encSize ∧ (out.take n).length = n ∧ (0 : UInt8) ∉ out.take n ∧
      deviceFrame payload enc = some (some (out.take n ++ [0x00])) ∧
      cobsDecode (out.take n) = some payload ∧
      ∀ (rounds : List Round) (last : Chunk),
        (Round.ending rounds last).flatMap Round.bytes = out.take n ++ [0x00] →
        (∀ remainingMs : Int,
          ((Round.ending rounds last).length : Int) ≤ (remainingMs + 49) / Reader.stepMs →
          ∃ left, Transition.run Reader.step (.enter remainingMs)
            ((Round.ending rounds last).flatMap Round.obs) =
              some { remaining := left, frame := out.take n, pc := .returned true }) ∧
        ∀ (j : Job) (now : Int) (store : JobStore), j.pc = .head →
          ((Round.ending rounds last).length : Int) ≤
            ((j.deadline - now) / nsPerMs + 49) / Reader.stepMs →
          (store.get j.id).isSome = true →
          ∃ k stored, Transition.run Job.next j
              (Job.passObs now (Round.ending rounds last)) = some k ∧ k.id = j.id ∧
            k.step .tau = some ({ k with pc := .clearing }, .write (.done payload)) ∧
            store.write k.id (.done payload) = some stored ∧
            stored.get j.id = some ⟨.done, "OK", some payload⟩ := by
  have bounds := Stuffing.stuff_length [] payload (by decide)
  simp only [List.length_nil, Nat.zero_add, Stuffing.blockLimit] at bounds
  obtain ⟨unused, -, encoded⟩ := cobsEncode_spec payload enc (by omega)
  have front : (Stuffing.stuff [] payload ++ unused).take (Stuffing.stuff [] payload).length =
      Stuffing.stuff [] payload := by simp
  have nonzero : (0 : UInt8) ∉ Stuffing.stuff [] payload := fun zero =>
    Stuffing.stuff_nonzero [] payload (by decide) (by simp) 0 zero rfl
  have decoded : cobsDecode (Stuffing.stuff [] payload) = some payload := by
    rw [cobsDecode_eq, Stuffing.unstuff_stuff (by decide)]
    rfl
  have short : (Stuffing.stuff [] payload).length ≤ maxFrame := by
    unfold encSize at guard
    unfold maxFrame
    omega
  have some_ : (Stuffing.stuff [] payload).isEmpty = false := by
    simpa using Stuffing.stuff_ne_nil [] payload
  refine ⟨_, _, encoded, by omega, by omega, by rw [front], by rwa [front], ?_, by rwa [front],
    fun rounds last delivers => ?_⟩
  · rw [front]
    exact deviceFrame_spec payload enc (by omega)
  · rw [front] at delivers ⊢
    have reads : ∀ remainingMs : Int,
        ((Round.ending rounds last).length : Int) ≤ (remainingMs + 49) / Reader.stepMs →
        0 < remainingMs ∧ ∃ left, Transition.run Reader.step (.enter remainingMs)
          ((Round.ending rounds last).flatMap Round.obs) =
            some { remaining := left, frame := Stuffing.stuff [] payload,
                   pc := .returned true } := by
      intro remainingMs few
      have budget : Reader.stepMs * rounds.length < remainingMs := by
        rw [Round.ending, List.length_append, List.length_singleton] at few
        push_cast at few
        unfold Reader.stepMs at few ⊢
        omega
      have positive : 0 < remainingMs := by
        unfold Reader.stepMs at budget
        omega
      have entered : Reader.enter remainingMs = { remaining := remainingMs } :=
        Reader.again_of_pos positive
      obtain ⟨left, reached⟩ := Reader.run_rounds rounds last { remaining := remainingMs } rfl
        delivers nonzero (by simpa using short) budget
      refine ⟨positive, left, ?_⟩
      rw [entered, reached]
      simp [some_]
    refine ⟨fun remainingMs few => (reads remainingMs few).2, ?_⟩
    intro j now store head few present
    obtain ⟨positive, left, read⟩ := reads _ few
    have early : now < j.deadline := by
      unfold nsPerMs at positive
      omega
    have accepted : acceptFrame (Stuffing.stuff [] payload) = some payload :=
      Job.acceptFrame_some.mpr ⟨decoded, qr⟩
    have passed := Job.run_pass head early positive read accepted
    have writable : (store.write j.id (.done payload)).isSome = true := by
      rw [JobStore.write_isSome]
      exact present
    obtain ⟨stored, written⟩ := Option.isSome_iff_exists.mp writable
    refine ⟨_, stored, passed, rfl, rfl, written, ?_⟩
    rw [JobStore.get_write written, if_pos rfl]
    rfl

/-- The text `QR:1`. -/
def sampleQr : Bytes := qrPrefix ++ [0x31]

/-- A job at its loop head with a budget of one second, whose record is pending. -/
def sampleJob : Job := { id := "0a1b2c3d", timeoutMs := 1000, deadline := 1000000000, pc := .head }

/-- The frame of `QR:1` arrives in two chunks with a timeout between them. -/
def sampleRounds : List Round := [.data ⟨[5, 0x51], by decide, by decide⟩, .timeout]

/-- The second chunk of the frame. -/
def sampleEnd : Chunk := ⟨[0x52, 0x3A, 0x31, 0], by decide, by decide⟩

/-- `QR:1`, sent by the device and read in two chunks, is what the job stores. -/
theorem sampleQr_is_delivered : ∃ k stored, Transition.run Job.next sampleJob
      (Job.passObs 0 (Round.ending sampleRounds sampleEnd)) = some k ∧
    (JobStore.create {} sampleJob.id).write k.id (.done sampleQr) = some stored ∧
    stored.get sampleJob.id = some ⟨.done, "OK", some sampleQr⟩ := by
  obtain ⟨n, out, -, -, -, -, -, sent, -, delivered⟩ :=
    payload_is_delivered sampleQr (List.replicate encSize 0) (by simp) (by decide) (by decide)
  have frame : out.take n ++ [0x00] = Stuffing.stuff [] sampleQr ++ [0x00] :=
    Option.some.inj (Option.some.inj
      (sent.symm.trans (deviceFrame_spec sampleQr _ (by rw [List.length_replicate]; decide))))
  obtain ⟨k, stored, passed, -, -, written, found⟩ :=
    (delivered sampleRounds sampleEnd (by rw [frame]; decide)).2 sampleJob 0
      (JobStore.create {} sampleJob.id) rfl (by decide) (by decide)
  exact ⟨k, stored, passed, written, found⟩

end QrEdgeGateway
