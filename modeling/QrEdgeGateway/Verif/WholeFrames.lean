import QrEdgeGateway.Lib.Delimited
import QrEdgeGateway.Verif.Delivery

/-!
# Which bytes become a result

The reader forgets everything when it gives up, and the next call begins at whatever byte comes
next. What it returns is therefore a block of the stream that a delimiter ends, but not always
a whole frame: after a budget spent, an error or an oversized frame it is the rest of one. Every
such block can be what a job decodes under some schedule, so results are whole frames exactly
for streams in which no rest of a frame decodes to a QR text of its own.
-/

namespace QrEdgeGateway

/-- A complete frame of the stream, within the limit: it begins the stream or follows a `0x00`,
and a `0x00` follows it. -/
def WholeFrame (s frame : Bytes) : Prop :=
  (Delimited.First 0 s frame ∨ Delimited.Later 0 s frame) ∧ frame.length ≤ maxFrame

/-- A zero-free block of the stream, within the limit, that a `0x00` follows. -/
def Block (s block : Bytes) : Prop :=
  (0 : UInt8) ∉ block ∧ block.length ≤ maxFrame ∧
    ∃ before after, s = before ++ block ++ 0 :: after

/-- What a control point of the job says about the bytes consumed. -/
def JobPc.Traced (s consumed : Bytes) : JobPc → Prop
  | .reading r => (0 : UInt8) ∉ r.frame ∧ r.frame.length ≤ maxFrame ∧ r.frame <:+ consumed
  | .closed got enc => got = true → Block s enc
  | .decoding got enc => got = true → Block s enc
  | .storing (.done qr) => ∃ enc, Block s enc ∧ acceptFrame enc = some qr
  | _ => True

namespace Fed

variable {s consumed : Bytes} {f g : Fed} {obs : Obs}

/-- What a call has collected ends the bytes consumed; what it returns is a block. -/
theorem traced_ofReader {r : Reader}
    (inside : (∀ got, r.pc ≠ .returned got) →
      (0 : UInt8) ∉ r.frame ∧ r.frame.length ≤ maxFrame ∧ r.frame <:+ consumed)
    (returned : r.pc = .returned true → Block s r.frame) :
    (JobPc.ofReader r).Traced s consumed := by
  unfold JobPc.ofReader
  split
  · rename_i got here
    intro true_
    exact returned (true_ ▸ here)
  · rename_i here
    exact inside here

/-- A chunk extends the frame or, at a delimiter, completes a block. -/
theorem traced_onChunk {r : Reader} {chunk : Chunk} {rest : Bytes}
    (stream : s = consumed ++ (chunk.bytes ++ rest)) (clean : (0 : UInt8) ∉ r.frame)
    (small : r.frame.length ≤ maxFrame) (ends : r.frame <:+ consumed) :
    (JobPc.ofReader (r.onChunk chunk)).Traced s (consumed ++ chunk.bytes) := by
  have spec := scanChunk_spec r.frame chunk.bytes small
  obtain ⟨before, rfl⟩ := ends
  unfold Reader.onChunk
  cases scanned : scanChunk r.frame chunk.bytes with
  | delimiter out =>
    rw [scanned] at spec
    obtain ⟨taken, dropped, shape, rfl, free, bound⟩ := spec
    refine traced_ofReader (fun inside => absurd rfl (inside _)) fun _ => ⟨?_, bound, ?_⟩
    · exact fun zero => (List.mem_append.mp zero).elim clean free
    · exact ⟨before, dropped ++ rest, by simp [stream, shape, Reader.ret]⟩
  | tooLarge out =>
    refine traced_ofReader (fun inside => absurd rfl (inside _)) fun impossible => ?_
    simp [Reader.ret] at impossible
  | consumed out =>
    rw [scanned] at spec
    obtain ⟨rfl, free, bound⟩ := spec
    refine traced_ofReader (fun _ => ?_) fun impossible => absurd impossible (Reader.again_pc _)
    dsimp only [Reader.charge]
    rw [Reader.again_frame]
    exact ⟨fun zero => (List.mem_append.mp zero).elim clean free, bound, before, by simp⟩

/-- Every step of a fed job keeps track of the bytes consumed. -/
theorem traced_step (stream : s = consumed ++ streamOf f.pending)
    (traced : f.job.pc.Traced s consumed) (taken : f.step obs = some g) :
    ∃ more, s = (consumed ++ more) ++ streamOf g.pending ∧
      g.job.pc.Traced s (consumed ++ more) := by
  obtain ⟨after, left⟩ := g
  obtain ⟨advanced, pending⟩ := step_iff.mp taken
  refine ⟨streamOf obs.reads, by rw [stream, pending]; simp [streamOf], ?_⟩
  obtain ⟨effect, move⟩ := Job.next_move advanced
  cases move with
  | enter here =>
    refine traced_ofReader (fun _ => ?_) fun impossible => absurd impossible (Reader.again_pc _)
    rw [Reader.enter, Reader.again_frame]
    exact ⟨by simp, by simp, List.nil_suffix⟩
  | read here stepped =>
    rw [here] at traced
    obtain ⟨clean, small, ends⟩ := traced
    obtain ⟨chunk, rfl, rfl⟩ | ⟨other, frame, unreturned, -⟩ := Reader.step_cases stepped
    · have shape : s = consumed ++ (chunk.bytes ++ streamOf left) := by
        rw [stream, pending]
        simp [streamOf, Obs.reads]
      simpa [streamOf, Obs.reads] using traced_onChunk shape clean small ends
    · refine traced_ofReader (fun _ => ?_) fun returned => absurd returned unreturned
      rw [frame, Obs.reads_eq_nil other]
      simpa [streamOf] using ⟨clean, small, ends⟩
  | close here =>
    rw [here] at traced
    exact traced
  | @test got enc here =>
    rw [here] at traced
    unfold Job.judge
    cases got with
    | false => trivial
    | true =>
      cases accepted : acceptFrame enc with
      | some payload => exact ⟨enc, traced rfl, accepted⟩
      | none => trivial
  | _ => trivial

end Fed

/-! ## Every block can be decoded

A job that loses every byte before the block, one call for each, and then reads the block byte
by byte, stores what the block holds. -/

/-- The observations of a pass that reads one byte and drops it: a `0x00` ends the call by
itself, after any other byte `poll` fails. -/
def skipObs (byte : UInt8) : List Obs :=
  [.running true, .clock 0, .opened true] ++
    ((Round.data (.single byte)).obs ++
      if byte = 0 then [] else [.running true, .poll .failed, .running true]) ++
    [.running true, .tau]

/-- The rounds that read a block byte by byte. -/
def blockRounds (block : Bytes) : List Round := block.map fun byte => .data (.single byte)

/-- The calls of a skipped byte lead back to the head of the loop. -/
theorem run_skip {j : Job} (head : j.pc = .head) (budget : 50 < j.deadline / nsPerMs)
    (byte : UInt8) : Transition.run Job.next j (skipObs byte) = some j := by
  have opened : Transition.run Job.next j [.running true, .clock 0, .opened true] =
      some { j with pc := .reading { remaining := j.deadline / nsPerMs } } := by
    have late : ¬ (0 : Int) ≥ j.deadline := by
      unfold nsPerMs at budget
      omega
    have positive : 0 < j.deadline / nsPerMs := by omega
    have entered : Reader.enter (j.deadline / nsPerMs) =
        { remaining := j.deadline / nsPerMs } := Reader.again_of_pos positive
    simp [Transition.run, Job.next, Job.step, head, late, entered, JobPc.ofReader]
  obtain ⟨left, frame, read⟩ : ∃ left frame, Transition.run Reader.step
      { remaining := j.deadline / nsPerMs } ((Round.data (.single byte)).obs ++
        if byte = 0 then [] else [.running true, .poll .failed, .running true]) =
      some { remaining := left, frame, pc := .returned false } := by
    have round := Reader.run_round { remaining := j.deadline / nsPerMs }
      (.data (.single byte)) rfl
    by_cases zero : byte = 0
    · refine ⟨j.deadline / nsPerMs, [], ?_⟩
      rw [if_pos zero, List.append_nil, round]
      simp [Reader.after, Reader.onChunk, Chunk.single, scanChunk, zero, Reader.ret]
    · obtain ⟨left, charged, kept⟩ :=
        Reader.after_clean { remaining := j.deadline / nsPerMs }
          (.data (.single byte)) (by simpa [Round.bytes, Chunk.single] using Ne.symm zero)
          (by simp [Round.bytes, Chunk.single, maxFrame])
      have positive : 0 < left := by
        unfold Reader.stepMs at charged
        dsimp only at charged
        omega
      refine ⟨left, [byte], ?_⟩
      rw [if_neg zero]
      refine Transition.run_trans round ?_
      rw [kept, Reader.again_of_pos positive]
      rfl
  have returned := Job.run_reading j (by simp) read
  have closed : Transition.run Job.next { j with pc := .closed false frame }
      [.running true, .tau] = some j := by
    simp [Transition.run, Job.next, Job.step, Job.judge, ← head]
  exact Transition.run_trans (Transition.run_trans opened returned) closed

/-- Any number of skipped bytes leads back to the head of the loop. -/
theorem run_skips {j : Job} (head : j.pc = .head) (budget : 50 < j.deadline / nsPerMs)
    (bytes : Bytes) : Transition.run Job.next j (bytes.flatMap skipObs) = some j := by
  induction bytes with
  | nil => rfl
  | cons byte rest ih => exact Transition.run_trans (run_skip head budget byte) ih

/-- A skipped byte is read alone. -/
theorem reads_skipObs (byte : UInt8) : (skipObs byte).flatMap Obs.reads = [.single byte] := by
  unfold skipObs
  split <;> simp [Round.obs, Obs.reads]

/-- Skipped bytes are read one by one. -/
theorem reads_skips (bytes : Bytes) :
    (bytes.flatMap skipObs).flatMap Obs.reads = bytewise bytes := by
  induction bytes with
  | nil => rfl
  | cons byte rest ih =>
    rw [List.flatMap_cons, List.flatMap_append, ih, reads_skipObs]
    rfl

/-- A block read byte by byte is read one by one, its delimiter last. -/
theorem reads_block (block : Bytes) :
    (Job.passObs 0 (Round.ending (blockRounds block) (.single 0))).flatMap Obs.reads =
      bytewise (block ++ [0]) := by
  have inner : ((Round.ending (blockRounds block) (.single 0)).flatMap Round.obs).flatMap
      Obs.reads = bytewise (block ++ [0]) := by
    induction block with
    | nil => rfl
    | cons byte rest ih =>
      have cons : Round.ending (blockRounds (byte :: rest)) (.single 0) =
          .data (.single byte) :: Round.ending (blockRounds rest) (.single 0) := rfl
      rw [cons, List.flatMap_cons, List.flatMap_append, ih]
      rfl
  unfold Job.passObs
  rw [List.flatMap_append, List.flatMap_append, inner]
  simp [Obs.reads]

/-- A block read byte by byte delivers itself and its delimiter. -/
theorem bytes_block (block : Bytes) :
    (Round.ending (blockRounds block) (.single 0)).flatMap Round.bytes = block ++ [0] := by
  induction block with
  | nil => rfl
  | cons byte rest ih =>
    have cons : Round.ending (blockRounds (byte :: rest)) (.single 0) =
        .data (.single byte) :: Round.ending (blockRounds rest) (.single 0) := rfl
    rw [cons, List.flatMap_cons, ih]
    rfl

/-- Every block that holds a QR text is what some job on the stream stores. -/
theorem block_is_decoded {s block qr : Bytes} (found : Block s block)
    (accepted : acceptFrame block = some qr) :
    ∃ (cut : List Chunk) (timeoutMs : Int) (obs : List Obs) (final : Fed), streamOf cut = s ∧
      Transition.run Fed.step ⟨{ id := "", timeoutMs }, cut⟩ obs = some final ∧
      final.job.pc = .storing (.done qr) := by
  obtain ⟨clean, fits, before, after, rfl⟩ := found
  let timeoutMs : Int := 50 * block.length + 100
  let j : Job := { id := "", timeoutMs, deadline := 0 + timeoutMs * nsPerMs, pc := .head }
  have deadline : j.deadline / nsPerMs = timeoutMs := by
    show (0 + timeoutMs * 1000000) / 1000000 = timeoutMs
    omega
  have budget : 50 < j.deadline / nsPerMs := by
    rw [deadline]
    show (50 : Int) < 50 * block.length + 100
    omega
  have remaining : (j.deadline - 0) / nsPerMs = timeoutMs := by rw [Int.sub_zero, deadline]
  have entered : Reader.enter ((j.deadline - 0) / nsPerMs) = { remaining := timeoutMs } := by
    rw [remaining]
    exact Reader.again_of_pos (by dsimp only; omega)
  have nonempty : block.isEmpty = false := by
    cases block with
    | nil => contradiction
    | cons byte rest => rfl
  obtain ⟨left, read⟩ := Reader.run_rounds (blockRounds block) (.single 0)
    { remaining := timeoutMs } rfl (bytes_block block) clean (by simpa using fits) (by
      show Reader.stepMs * ((blockRounds block).length : Int) < timeoutMs
      simp only [blockRounds, List.length_map, Reader.stepMs, timeoutMs]
      omega)
  rw [List.nil_append, nonempty, ← entered] at read
  have passed := Job.run_pass (j := j) rfl
    (by unfold nsPerMs at budget; omega) (by rw [remaining]; omega) read accepted
  have started : Transition.run Job.next { id := "", timeoutMs } [.clock 0] = some j := rfl
  have whole := Transition.run_trans (Transition.run_trans started (run_skips rfl budget before))
    passed
  refine ⟨_, timeoutMs, _, _, ?_, Fed.run_of_job (bytewise after) whole, rfl⟩
  rw [List.flatMap_append, List.flatMap_append, reads_skips, reads_block]
  have joined : [Obs.clock 0].flatMap Obs.reads ++ bytewise before ++ bytewise (block ++ [0]) ++
      bytewise after = bytewise (before ++ block ++ 0 :: after) := by
    simp [bytewise, Obs.reads]
  rw [joined, streamOf_bytewise]

/-- Only whole frames become results, exactly for streams without misleading rests. On a stream
`s`, every job stores `DONE` only with the decoding of a complete frame of at most 4096 bytes,
whatever the split into reads, the timing and the errors, if and only if every zero-free block
of at most 4096 bytes that ends at a delimiter of `s` and decodes to a QR text decodes to what
some complete frame of at most 4096 bytes decodes to. -/
theorem whole_frames_iff (s : Bytes) :
    (∀ (cut : List Chunk) (id : String) (timeoutMs : Int) (obs : List Obs) (final : Fed)
        (qr : Bytes), streamOf cut = s →
      Transition.run Fed.step ⟨{ id, timeoutMs }, cut⟩ obs = some final →
      final.job.pc = .storing (.done qr) →
      ∃ frame, WholeFrame s frame ∧ cobsDecode frame = some qr) ↔
    ∀ block qr, Block s block → acceptFrame block = some qr →
      ∃ frame, WholeFrame s frame ∧ cobsDecode frame = some qr := by
  constructor
  · intro whole block qr found accepted
    obtain ⟨cut, timeoutMs, obs, final, stream, reached, storing⟩ :=
      block_is_decoded found accepted
    exact whole cut "" timeoutMs obs final qr stream reached storing
  · intro harmless cut id timeoutMs obs final qr stream reached storing
    have start : ∃ consumed, s = consumed ++ streamOf cut ∧ JobPc.entry.Traced s consumed :=
      ⟨[], stream.symm, trivial⟩
    obtain ⟨consumed, -, traced⟩ : ∃ consumed, s = consumed ++ streamOf final.pending ∧
        final.job.pc.Traced s consumed :=
      Transition.run_stable
        (fun f : Fed => ∃ consumed, s = consumed ++ streamOf f.pending ∧
          f.job.pc.Traced s consumed)
        (fun ⟨_, held, traced⟩ taken =>
          (Fed.traced_step held traced taken).elim fun _ after => ⟨_, after⟩)
        start reached
    rw [storing] at traced
    obtain ⟨block, found, accepted⟩ := traced
    exact harmless block qr found accepted

/-- Two frames: an empty text, and one that does not decode but whose rest behind its first byte
is the encoding of `QR:`. The first read ends behind that first byte. -/
def misleadingCut : List Chunk :=
  [⟨[0x01, 0x00, 0x09], by decide, by decide⟩, qrChunk]

/-- A job stores `DONE` with `QR:` although no complete frame of the stream decodes to it. -/
theorem misleadingCut_done : ∃ final,
    Transition.run Fed.step ⟨{ id := "", timeoutMs := 1000 }, misleadingCut⟩
      (Job.readEach misleadingCut) = some final ∧
    final.job.pc = .storing (.done qrPrefix) ∧
    ¬ ∃ frame, WholeFrame (streamOf misleadingCut) frame ∧ cobsDecode frame = some qrPrefix := by
  refine ⟨_, rfl, by decide, ?_⟩
  rintro ⟨frame, ⟨stands, -⟩, decoded⟩
  have both : Delimited.frames 0 [] (streamOf misleadingCut) = [[1], [9, 4, 0x51, 0x52, 0x3A]] := by
    decide
  have member : frame = [1] ∨ frame = [9, 4, 0x51, 0x52, 0x3A] := by
    simpa [both] using Delimited.mem_frames.mpr stands
  obtain rfl | rfl := member <;> exact absurd decoded (by decide)

end QrEdgeGateway
