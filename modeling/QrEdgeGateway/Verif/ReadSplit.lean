import QrEdgeGateway.Lib.Delimited
import QrEdgeGateway.Verif.Delivery
import QrEdgeGateway.Verif.SmoothRuns

/-!
# How the stream is cut into reads

The outcome of a run without errors is a function of the chunks its reads deliver, but not of
their bytes alone: the call that finds a delimiter drops what follows it in the same chunk, up
to 255 bytes, and the next call starts behind. The first frame of a stream is always seen whole;
a later one may lose its beginning or be skipped. So the cut does not matter exactly for the
streams whose first frame holds a QR text, and for those in which neither a frame nor what a
read can leave of a later one does.
-/

namespace QrEdgeGateway

/-- Every zero-free segment of the stream is within the limit. -/
def Fits (s : Bytes) : Prop :=
  ∀ before segment after, s = before ++ segment ++ after → (0 : UInt8) ∉ segment →
    segment.length ≤ maxFrame

/-- The frames a reader would keep: of 1 to 4096 bytes. -/
def properFrames (s : Bytes) : List Bytes :=
  (Delimited.frames 0 [] s).filter fun frame => 1 ≤ frame.length ∧ frame.length ≤ maxFrame

/-- The outcome a stream stands for: its first frame that holds a QR text. -/
def firstQr (s : Bytes) : Outcome :=
  match (properFrames s).findSome? acceptFrame with
  | some qr => .done qr
  | none => .timeout

/-- The most bytes a read can hold behind a delimiter. -/
def maxLost : Nat := 255

/-- The first frame holds a QR text, or no frame does, nor what a read can leave of a later
one. -/
def Robust (s : Bytes) : Prop :=
  (∃ frame qr, Delimited.First 0 s frame ∧ acceptFrame frame = some qr) ∨
  (∀ frame ∈ Delimited.frames 0 [] s, acceptFrame frame = none) ∧
    ∀ frame ∈ (Delimited.frames 0 [] s).tail, ∀ lost ≤ maxLost,
      acceptFrame (frame.drop lost) = none

/-! ## What one call takes from a cut -/

section Calls

variable {body rest : Bytes}

/-- A stream without a delimiter times out. -/
theorem digest_clean (acc : Bytes) (cut : List Chunk) (clean : (0 : UInt8) ∉ streamOf cut)
    (fits : acc.length + (streamOf cut).length ≤ maxFrame) : digest acc cut = .timeout := by
  induction cut generalizing acc with
  | nil => rfl
  | cons chunk more ih =>
    have stream : streamOf (chunk :: more) = chunk.bytes ++ streamOf more := rfl
    rw [stream, List.mem_append, not_or] at clean
    rw [stream, List.length_append] at fits
    rw [digest, scanChunk_clean acc chunk.bytes clean.1 (by omega)]
    exact ih (acc ++ chunk.bytes) clean.2 (by rw [List.length_append]; omega)

/-- Up to the first delimiter of the stream the call collects everything; then it drops what is
left of the chunk. -/
theorem digest_delimited (acc : Bytes) (cut : List Chunk)
    (stream : streamOf cut = body ++ 0 :: rest) (clean : (0 : UInt8) ∉ body)
    (fits : acc.length + body.length ≤ maxFrame) :
    ∃ dropped later, rest = dropped ++ streamOf later ∧ dropped.length ≤ maxLost ∧
      digest acc cut = Fed.verdict true (acc ++ body) later := by
  induction cut generalizing acc body with
  | nil => simp [streamOf] at stream
  | cons chunk more ih =>
    have shape : chunk.bytes ++ streamOf more = body ++ 0 :: rest := stream
    by_cases inside : (0 : UInt8) ∈ chunk.bytes
    · obtain ⟨taken, dropped, bytes, free⟩ := List.eq_append_cons_of_mem inside
      rw [bytes, List.append_assoc, List.cons_append] at shape
      obtain ⟨rfl, rfl⟩ := Delimited.split_unique free clean shape
      refine ⟨dropped, more, rfl, ?_, ?_⟩
      · have bound := chunk.fits
        rw [bytes, List.length_append, List.length_cons] at bound
        unfold maxLost
        omega
      · rw [digest, bytes, scanChunk_delimiter acc taken dropped clean fits]
        rfl
    · -- the whole chunk lies in front of the delimiter
      obtain ⟨body', rfl, stream'⟩ := Delimited.split_behind inside shape
      rw [List.mem_append, not_or] at clean
      rw [List.length_append] at fits
      rw [digest, scanChunk_clean acc chunk.bytes clean.1 (by omega), ← List.append_assoc]
      exact ih (acc ++ chunk.bytes) stream' clean.2 (by rw [List.length_append]; omega)

/-- A frame that is read byte by byte up to a chunk that begins with its delimiter. -/
theorem digest_frame (acc : Bytes) {chunk : Chunk} {dropped : Bytes} {more : List Chunk}
    (clean : (0 : UInt8) ∉ body) (fits : acc.length + body.length ≤ maxFrame)
    (shape : chunk.bytes = 0 :: dropped) :
    digest acc (bytewise body ++ chunk :: more) = Fed.verdict true (acc ++ body) more := by
  induction body generalizing acc with
  | nil =>
    have found := scanChunk_delimiter acc [] dropped clean fits
    rw [List.nil_append, ← shape] at found
    show digest acc (chunk :: more) = _
    rw [digest, found]
    rfl
  | cons byte body ih =>
    rw [List.mem_cons, not_or] at clean
    rw [List.length_cons] at fits
    have read := scanChunk_clean acc [byte] (by simpa using clean.1) (by simp; omega)
    show digest acc (.single byte :: (bytewise body ++ chunk :: more)) = _
    have later := ih (acc ++ [byte]) clean.2
      (by rw [List.length_append, List.length_singleton]; omega)
    rw [digest, Chunk.single, read]
    simpa using later

end Calls

namespace Fits

variable {s before rest : Bytes}

/-- What a call leaves of a fitting stream fits. -/
theorem behind (dropped : Bytes) (fits : Fits (before ++ 0 :: (dropped ++ rest))) :
    Fits rest := by
  intro front segment after shape
  exact fits (before ++ 0 :: (dropped ++ front)) segment after (by simp [shape])

/-- A short stream fits. -/
theorem of_length (short : s.length ≤ maxFrame) : Fits s := by
  rintro front segment after rfl -
  rw [List.length_append, List.length_append] at short
  omega

/-- The first frame of a fitting stream is within the limit. -/
theorem first {body : Bytes} (fits : Fits (body ++ rest)) (clean : (0 : UInt8) ∉ body) :
    body.length ≤ maxFrame := fits [] body rest rfl clean

end Fits

/-! ## Robust streams -/

/-- A stream whose first frame holds a QR text gives it, however it is cut. -/
theorem digest_first {s frame qr : Bytes} {cut : List Chunk} (fits : Fits s)
    (stream : streamOf cut = s) (first : Delimited.First 0 s frame)
    (accepted : acceptFrame frame = some qr) : digest [] cut = .done qr := by
  obtain ⟨clean, after, rfl⟩ := first
  obtain ⟨dropped, later, -, -, value⟩ := digest_delimited [] cut stream clean
    (by simpa using fits.first clean)
  rw [value, List.nil_append]
  simp [Fed.verdict, accepted]

/-- A stream is silent when its first frame holds no QR text, nor does what a read can leave of
a later one. -/
def Silent (s : Bytes) : Prop :=
  (∀ frame, Delimited.First 0 s frame → acceptFrame frame = none) ∧
    ∀ frame, Delimited.Later 0 s frame → ∀ lost ≤ maxLost, acceptFrame (frame.drop lost) = none

/-- What a read leaves of a silent stream is silent. -/
theorem Silent.behind {body dropped rest : Bytes} (short : dropped.length ≤ maxLost)
    (silent : Silent (body ++ 0 :: (dropped ++ rest))) : Silent rest := by
  -- the part of the first frame of the rest that is lost begins at the last zero in front of it
  obtain ⟨front, lost, shape, clean⟩ :=
    Delimited.split_last (List.mem_cons_self : (0 : UInt8) ∈ 0 :: dropped)
  have stream : body ++ 0 :: (dropped ++ rest) = (body ++ front) ++ 0 :: (lost ++ rest) := by
    rw [← List.cons_append, shape]
    simp
  have bound : lost.length ≤ maxLost := by
    have total := congrArg List.length shape
    rw [List.length_cons, List.length_append, List.length_cons] at total
    omega
  rw [stream] at silent
  constructor
  · rintro frame ⟨free, after, rfl⟩
    have later : Delimited.Later 0 ((body ++ front) ++ 0 :: (lost ++ (frame ++ 0 :: after)))
        (lost ++ frame) :=
      ⟨fun zero => (List.mem_append.mp zero).elim clean free, body ++ front, after, by simp⟩
    simpa using silent.2 (lost ++ frame) later lost.length bound
  · intro frame later
    have further : Delimited.Later 0 ((body ++ front ++ 0 :: lost) ++ rest) frame := later.prepend
    exact silent.2 frame (by simpa using further)

/-- A silent stream gives nothing, however it is cut. -/
theorem digest_silent {s : Bytes} {cut : List Chunk} (fits : Fits s)
    (stream : streamOf cut = s) (silent : Silent s) : digest [] cut = .timeout := by
  induction measured : s.length using Nat.strongRecOn generalizing s cut with
  | ind size ih =>
    by_cases delimited : (0 : UInt8) ∈ s
    · obtain ⟨body, rest, rfl, clean⟩ := List.eq_append_cons_of_mem delimited
      obtain ⟨dropped, later, rfl, short, value⟩ := digest_delimited [] cut stream clean
        (by simpa using fits.first clean)
      have refused : acceptFrame body = none := silent.1 body ⟨clean, _, rfl⟩
      have shorter : (streamOf later).length < size := by
        rw [← measured]
        simp only [List.length_append, List.length_cons]
        omega
      rw [value, List.nil_append]
      simpa [Fed.verdict, refused] using
        ih _ shorter (fits.behind dropped) rfl (silent.behind short) rfl
    · subst stream
      exact digest_clean [] cut delimited (by simpa using fits [] _ [] (by simp) delimited)

/-! ## Streams that are not robust -/

/-- A frame that holds a QR text shows it behind its code byte. -/
theorem acceptFrame_shows {byte : UInt8} {rest qr : Bytes}
    (accepted : acceptFrame (byte :: rest) = some qr) : qrPrefix <+: rest := by
  obtain ⟨decoded, begins⟩ := Job.acceptFrame_some.mp accepted
  rw [cobsDecode_eq] at decoded
  exact Stuffing.unstuff_front (by decide) (by decide) decoded
    (List.isPrefixOf_iff_prefix.mp begins)

/-- Without its code byte a frame that holds a QR text holds none. -/
theorem acceptFrame_tail {byte : UInt8} {rest qr : Bytes}
    (accepted : acceptFrame (byte :: rest) = some qr) : acceptFrame rest = none := by
  obtain ⟨more, rfl⟩ := acceptFrame_shows accepted
  cases again : acceptFrame (qrPrefix ++ more) with
  | none => rfl
  | some other =>
    have shape : qrPrefix ++ more = 0x51 :: ([0x52, 0x3A] ++ more) := rfl
    rw [shape] at again
    obtain ⟨_, shifted⟩ := acceptFrame_shows again
    simp [qrPrefix] at shifted

/-- A cut of the end of a stream extends to a cut in which a call reads the first frame and
loses what is missing in between. -/
theorem exists_longer_cut {body dropped : Bytes} (later : List Chunk)
    (clean : (0 : UInt8) ∉ body) (fits : body.length ≤ maxFrame)
    (short : dropped.length ≤ maxLost) :
    ∃ cut, streamOf cut = body ++ 0 :: (dropped ++ streamOf later) ∧
      digest [] cut = Fed.verdict true body later := by
  let chunk : Chunk := ⟨0 :: dropped, by simp, Nat.succ_le_succ short⟩
  refine ⟨bytewise body ++ chunk :: later, ?_, ?_⟩
  · have front := streamOf_bytewise body
    unfold streamOf at front ⊢
    rw [List.flatMap_append, front]
    rfl
  · simpa using digest_frame [] clean (by simpa using fits) (rfl : chunk.bytes = 0 :: dropped)

/-- A stream whose first frame holds no QR text can be cut so that none is found. -/
theorem exists_silent_cut {s : Bytes} (fits : Fits s)
    (refused : ∀ frame, Delimited.First 0 s frame → acceptFrame frame = none) :
    ∃ cut, streamOf cut = s ∧ digest [] cut = .timeout := by
  induction measured : s.length using Nat.strongRecOn generalizing s with
  | ind size ih =>
    by_cases delimited : (0 : UInt8) ∈ s
    · obtain ⟨body, rest, rfl, clean⟩ := List.eq_append_cons_of_mem delimited
      have missed : acceptFrame body = none := refused body ⟨clean, rest, rfl⟩
      -- with the delimiter goes the first byte of a frame that must not be seen
      obtain ⟨dropped, left, short, rfl, onward⟩ : ∃ dropped left : Bytes,
          dropped.length ≤ maxLost ∧ rest = dropped ++ left ∧
          ∀ frame, Delimited.First 0 left frame → acceptFrame frame = none := by
        by_cases next : ∃ frame qr, Delimited.First 0 rest frame ∧ acceptFrame frame = some qr
        · obtain ⟨frame, qr, ⟨free, after, rfl⟩, accepted⟩ := next
          cases frame with
          | nil => simp [acceptFrame_nil] at accepted
          | cons byte frame =>
            refine ⟨[byte], frame ++ 0 :: after, by simp [maxLost], rfl, ?_⟩
            rintro other ⟨free', after', shape⟩
            rw [List.mem_cons, not_or] at free
            obtain ⟨rfl, -⟩ := Delimited.split_unique free.2 free' shape
            exact acceptFrame_tail accepted
        · exact ⟨[], rest, by decide, rfl, fun frame first =>
            Option.eq_none_iff_forall_ne_some.mpr fun qr accepted =>
              next ⟨frame, qr, first, accepted⟩⟩
      have shorter : left.length < size := by
        rw [← measured]
        simp only [List.length_append, List.length_cons]
        omega
      obtain ⟨later, rfl, value⟩ := ih _ shorter (fits.behind dropped) onward rfl
      obtain ⟨cut, stream, first⟩ := exists_longer_cut later clean (fits.first clean) short
      exact ⟨cut, stream, by simpa [first, Fed.verdict, missed] using value⟩
    · exact ⟨bytewise s, streamOf_bytewise s, digest_clean [] _ (by simpa using delimited)
        (by simpa using fits [] s [] (by simp) delimited)⟩

/-- In front of a part that can be cut so that a QR text is found, another frame changes
nothing. -/
theorem exists_loud_cut_behind (dropped : Bytes) {body rest found : Bytes} {later : List Chunk}
    (fits : Fits (body ++ 0 :: (dropped ++ rest))) (clean : (0 : UInt8) ∉ body)
    (short : dropped.length ≤ maxLost) (stream : streamOf later = rest)
    (value : digest [] later = .done found) :
    ∃ cut found, streamOf cut = body ++ 0 :: (dropped ++ rest) ∧ digest [] cut = .done found := by
  subst stream
  obtain ⟨cut, stream, first⟩ := exists_longer_cut later clean (fits.first clean) short
  cases accepted : acceptFrame body with
  | some qr => exact ⟨cut, qr, stream, by simp [first, Fed.verdict, accepted]⟩
  | none => exact ⟨cut, found, stream, by simpa [first, Fed.verdict, accepted] using value⟩

/-- If a read can leave a QR text of a later frame, the stream can be cut so that one is
found. -/
theorem exists_loud_cut {s frame qr : Bytes} {lost : Nat} (fits : Fits s)
    (later : Delimited.Later 0 s frame) (short : lost ≤ maxLost)
    (accepted : acceptFrame (frame.drop lost) = some qr) :
    ∃ cut found, streamOf cut = s ∧ digest [] cut = .done found := by
  obtain ⟨free, before, after, rfl⟩ := later
  induction measured : before.length using Nat.strongRecOn generalizing before with
  | ind size ih =>
    by_cases delimited : (0 : UInt8) ∈ before
    · obtain ⟨body, rest, rfl, clean⟩ := List.eq_append_cons_of_mem delimited
      rw [List.append_assoc, List.cons_append] at fits ⊢
      have shorter : rest.length < size := by
        rw [← measured]
        simp only [List.length_append, List.length_cons]
        omega
      obtain ⟨later, found, stream, value⟩ := ih _ shorter rest (fits.behind []) rfl
      exact exists_loud_cut_behind [] fits clean (by decide) stream value
    · have whole : frame ++ 0 :: after = frame.take lost ++ (frame.drop lost ++ 0 :: after) := by
        rw [← List.append_assoc, List.take_append_drop]
      rw [whole] at fits ⊢
      have clean : (0 : UInt8) ∉ frame.drop lost := fun zero => free (List.mem_of_mem_drop zero)
      have value := digest_first (fits.behind _) (streamOf_bytewise _) ⟨clean, after, rfl⟩ accepted
      exact exists_loud_cut_behind _ fits delimited (by rw [List.length_take]; omega)
        (streamOf_bytewise _) value

/-! ## The outcome of a stream -/

section Outcome

variable {s frame qr : Bytes}

/-- A frame of a fitting stream that holds a QR text is one a reader would keep. -/
theorem mem_properFrames (fits : Fits s) (found : frame ∈ Delimited.frames 0 [] s)
    (accepted : acceptFrame frame = some qr) : frame ∈ properFrames s := by
  have small : frame.length ≤ maxFrame := by
    rcases Delimited.mem_frames.mp found with ⟨clean, after, rfl⟩ | ⟨clean, before, after, rfl⟩
    · exact fits.first clean
    · exact fits (before ++ [0]) frame (0 :: after) (by simp) clean
  have filled : 1 ≤ frame.length := by
    cases frame with
    | nil => simp [acceptFrame_nil] at accepted
    | cons byte rest => simp
  exact List.mem_filter.mpr ⟨found, by simp [filled, small]⟩

/-- A stream whose first frame holds a QR text stands for it. -/
theorem firstQr_first (fits : Fits s) (first : Delimited.First 0 s frame)
    (accepted : acceptFrame frame = some qr) : firstQr s = .done qr := by
  have proper := mem_properFrames fits (Delimited.mem_frames.mpr (.inl first)) accepted
  obtain ⟨clean, after, rfl⟩ := first
  have kept : properFrames (frame ++ 0 :: after) = frame :: properFrames after := by
    rw [properFrames, Delimited.frames_delimited clean, List.nil_append]
    exact List.filter_cons_of_pos (List.mem_filter.mp proper).2
  simp [firstQr, kept, accepted]

/-- A stream none of whose frames holds a QR text stands for a timeout. -/
theorem firstQr_none (refused : ∀ frame ∈ Delimited.frames 0 [] s, acceptFrame frame = none) :
    firstQr s = .timeout := by
  have nothing : (properFrames s).findSome? acceptFrame = none :=
    List.findSome?_eq_none_iff.mpr fun frame proper => refused frame (List.mem_of_mem_filter proper)
  rw [firstQr, nothing]

/-- A stream one of whose frames holds a QR text does not stand for a timeout. -/
theorem firstQr_some (fits : Fits s) (found : frame ∈ Delimited.frames 0 [] s)
    (accepted : acceptFrame frame = some qr) : firstQr s ≠ .timeout := by
  unfold firstQr
  cases search : (properFrames s).findSome? acceptFrame with
  | some other => simp
  | none =>
    have refused := List.findSome?_eq_none_iff.mp search frame
      (mem_properFrames fits found accepted)
    simp [accepted] at refused

end Outcome

/-- Exactly for a robust stream every smooth run stores the outcome it stands for, however its
bytes are cut into reads. -/
theorem outcome_independent_of_reads_iff (s : Bytes) (fits : Fits s) :
    (∀ (cut : List Chunk) (id : String) (timeoutMs : Int) (obs : List Obs) (final : Fed)
      (stored : Outcome), streamOf cut = s →
      Transition.run Fed.step ⟨{ id, timeoutMs }, cut⟩ obs = some final →
      Transition.Along Fed.step (fun f obs => f.smooth obs = true) ⟨{ id, timeoutMs }, cut⟩ obs →
      final.job.pc = .storing stored → stored = firstQr s) ↔ Robust s := by
  constructor
  · intro same
    have digested (cut : List Chunk) (stream : streamOf cut = s) : digest [] cut = firstQr s := by
      obtain ⟨timeoutMs, obs, final, ⟨reached, smooth⟩, stands⟩ := Fed.reaches_of_cut cut ""
      exact same cut "" timeoutMs obs final _ stream reached smooth stands
    by_cases first : ∃ frame qr, Delimited.First 0 s frame ∧ acceptFrame frame = some qr
    · exact .inl first
    have refused : ∀ frame ∈ Delimited.frames 0 [] s, acceptFrame frame = none := by
      intro frame found
      cases accepted : acceptFrame frame with
      | none => rfl
      | some qr =>
        obtain ⟨cut, stream, value⟩ := exists_silent_cut fits fun front begins =>
          Option.eq_none_iff_forall_ne_some.mpr fun other seen =>
            first ⟨front, other, begins, seen⟩
        exact absurd (value ▸ digested cut stream).symm (firstQr_some fits found accepted)
    refine .inr ⟨refused, fun frame found lost short => ?_⟩
    cases accepted : acceptFrame (frame.drop lost) with
    | none => rfl
    | some qr =>
      obtain ⟨cut, other, stream, value⟩ :=
        exists_loud_cut fits (Delimited.mem_frames_tail.mp found) short accepted
      have equal := digested cut stream
      rw [value, firstQr_none refused] at equal
      contradiction
  · intro robust cut id timeoutMs obs final stored stream reached smooth stands
    rw [Fed.stored_eq_digest reached smooth stands]
    rcases robust with ⟨frame, qr, first, accepted⟩ | ⟨refused, tails⟩
    · rw [digest_first fits stream first accepted, firstQr_first fits first accepted]
    · have silent : Silent s :=
        ⟨fun frame first => refused frame (Delimited.mem_frames.mpr (.inl first)),
          fun frame later => tails frame (Delimited.mem_frames_tail.mpr later)⟩
      rw [digest_silent fits stream silent, firstQr_none refused]

/-- A stream of one frame, the text `QR:`. -/
def loneFrame : Bytes := [0x04, 0x51, 0x52, 0x3A, 0x00]

/-- A stream of one frame gives its text, however it is cut. -/
theorem loneFrame_outcome : Fits loneFrame ∧ ∀ (cut : List Chunk) (id : String) (timeoutMs : Int)
    (obs : List Obs) (final : Fed) (stored : Outcome), streamOf cut = loneFrame →
    Transition.run Fed.step ⟨{ id, timeoutMs }, cut⟩ obs = some final →
    Transition.Along Fed.step (fun f obs => f.smooth obs = true) ⟨{ id, timeoutMs }, cut⟩ obs →
    final.job.pc = .storing stored → stored = firstQr loneFrame := by
  have fits : Fits loneFrame := .of_length (by decide)
  refine ⟨fits, (outcome_independent_of_reads_iff loneFrame fits).mpr (.inl ?_)⟩
  exact ⟨[0x04, 0x51, 0x52, 0x3A], [0x51, 0x52, 0x3A], ⟨by decide, [], rfl⟩, by decide⟩

/-! ## Two frames in one read

An empty frame and the text `QR:` arrive together; cut between them they arrive one by one. -/

/-- Both frames in one read. -/
def together : List Chunk := [⟨[0x00, 0x04, 0x51, 0x52, 0x3A, 0x00], by decide, by decide⟩]

/-- The two frames in two reads. -/
def apart : List Chunk := [.single 0x00, qrChunk]

/-- Read together the second frame is lost and the job times out; read apart it is found. -/
theorem together_loses_frame :
    streamOf together = streamOf apart ∧ Fits (streamOf together) ∧
    firstQr (streamOf together) = .done [0x51, 0x52, 0x3A] ∧
    (∃ final, Transition.run Fed.step ⟨{ id := "a", timeoutMs := 100 }, together⟩
        (Job.readEach together ++ [.running true, .clock (100 * nsPerMs)]) =
          some final ∧
      Transition.Along Fed.step (fun f obs => f.smooth obs = true)
        ⟨{ id := "a", timeoutMs := 100 }, together⟩
        (Job.readEach together ++ [.running true, .clock (100 * nsPerMs)]) ∧
      final.job.pc = .storing .timeout) ∧
    ∃ final, Transition.run Fed.step ⟨{ id := "a", timeoutMs := 100 }, apart⟩
        (Job.readEach apart) = some final ∧
      Transition.Along Fed.step (fun f obs => f.smooth obs = true)
        ⟨{ id := "a", timeoutMs := 100 }, apart⟩ (Job.readEach apart) ∧
      final.job.pc = .storing (.done [0x51, 0x52, 0x3A]) := by
  refine ⟨by decide, .of_length (by decide), by decide, ?_, ?_⟩
  · exact ⟨_, rfl, by decide, rfl⟩
  · exact ⟨_, rfl, by decide, rfl⟩

end QrEdgeGateway
