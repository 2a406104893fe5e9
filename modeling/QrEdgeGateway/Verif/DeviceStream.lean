import QrEdgeGateway.Device
import QrEdgeGateway.Verif.ReadSplit
import QrEdgeGateway.Verif.WholeFrames

/-!
# From the device to the job, whatever fails in between

However `send` splits the frames and whenever a connection ends, each connection carries whole
frames and at its end at most the beginning of one. A job reads some part of one connection in
chunks of its own. It may begin in the middle of a frame, so the text it stores is the payload in
every case exactly if no end of the frame holds another text, as for every short payload of large
bytes. And it joins in: from the second delimiter on that its reads do not straddle it has the
payload.
-/

namespace QrEdgeGateway

/-- The frame of a payload. -/
def wireFrame (payload : Bytes) : Bytes := Stuffing.stuff [] payload

/-- The payload passes the size guard of the send loop. -/
def Passes (payload : Bytes) : Prop := payload.length + payload.length / 254 + 2 ≤ encSize

instance (payload : Bytes) : Decidable (Passes payload) :=
  inferInstanceAs (Decidable (_ ≤ _))

/-- Whole frames and the beginning of another, none of either for a payload that does not
pass. -/
def Emission (payload sent : Bytes) : Prop :=
  ∃ k front, sent = Delimited.train 0 (wireFrame payload) k ++ front ∧
    front <+: wireFrame payload ∧ (¬ Passes payload → sent = [])

variable {payload sent : Bytes}

/-- A frame has no zero byte. -/
theorem wireFrame_clean (payload : Bytes) : (0 : UInt8) ∉ wireFrame payload := fun zero =>
  Stuffing.stuff_nonzero [] payload (by decide) (by simp) 0 zero rfl

/-- A frame decodes to its payload. -/
theorem wireFrame_decodes (payload : Bytes) : cobsDecode (wireFrame payload) = some payload := by
  rw [cobsDecode_eq, wireFrame, Stuffing.unstuff_stuff (by decide)]
  rfl

/-- The frame of a payload that passes is within the limit of the reader. -/
theorem wireFrame_fits (passes : Passes payload) : (wireFrame payload).length ≤ maxFrame := by
  have bounds := Stuffing.stuff_length [] payload (by decide)
  simp only [List.length_nil, Nat.zero_add, Stuffing.blockLimit] at bounds
  unfold Passes encSize at passes
  unfold wireFrame maxFrame
  omega

/-- A round of the send loop never leaves its buffer, and hands over the frame if the payload
passes. -/
theorem deviceFrame_eq (payload : Bytes) (enc : EncBuffer) : deviceFrame payload enc.bytes =
    some (if Passes payload then some (wireFrame payload ++ [0]) else none) := by
  by_cases passes : Passes payload
  · rw [if_pos passes]
    exact deviceFrame_spec payload enc.bytes (by rw [enc.size]; exact passes)
  · have guard : payload.length + payload.length / 254 + 2 > enc.bytes.length := by
      rw [enc.size]
      exact Nat.lt_of_not_le passes
    rw [if_neg passes, deviceFrame, if_pos guard]

/-! ## What a connection carries -/

namespace Emission

/-- Nothing was sent. -/
theorem nothing : Emission payload [] := ⟨0, [], rfl, List.nil_prefix, fun _ => rfl⟩

/-- Whole frames were sent. -/
theorem whole (k : Nat) (refused : ¬ Passes payload → k = 0) :
    Emission payload (Delimited.train 0 (wireFrame payload) k) := by
  refine ⟨k, [], by simp, List.nil_prefix, fun fails => ?_⟩
  rw [refused fails]
  rfl

/-- Whole frames and part of a frame were sent. -/
theorem part {k off : Nat} (passes : Passes payload)
    (under : off < (wireFrame payload ++ [0]).length) : Emission payload
      (Delimited.train 0 (wireFrame payload) k ++ (wireFrame payload ++ [0]).take off) := by
  refine ⟨k, _, rfl, ?_, fun fails => absurd passes fails⟩
  rw [List.length_append, List.length_singleton] at under
  rw [List.take_append_of_le_length (by omega)]
  exact List.take_prefix _ _

end Emission

namespace Device

variable {d next : Device} {event : DeviceEvent}

/-- What the open connection has carried, by where the device is. -/
def Carries (payload current : Bytes) : DevicePc → Prop
  | .serving => current = []
  | .accepting => current = []
  | .emitting => ∃ k, current = Delimited.train 0 (wireFrame payload) k ∧
      (¬ Passes payload → k = 0)
  | .pausing => ∃ k, current = Delimited.train 0 (wireFrame payload) k ∧
      (¬ Passes payload → k = 0)
  | .sending frame off => Passes payload ∧ frame = wireFrame payload ++ [0] ∧
      off < frame.length ∧
      ∃ k, current = Delimited.train 0 (wireFrame payload) k ++ frame.take off
  | .closing => Emission payload current
  | .ended => Emission payload current
  | .fault => False

/-- Every connection of the device is framed. -/
structure Framed (d : Device) : Prop where
  /-- The open one, as far as it is. -/
  current : Carries d.payload d.current d.pc
  /-- Those closed. -/
  closed : ∀ sent ∈ d.closed, Emission d.payload sent

/-- Wherever the device is, the open connection has carried whole frames and part of one. -/
theorem Framed.emission (framed : d.Framed) : Emission d.payload d.current := by
  have current := framed.current
  cases here : d.pc with
  | serving | accepting =>
    rw [here] at current
    rw [show d.current = [] from current]
    exact .nothing
  | emitting | pausing =>
    rw [here] at current
    obtain ⟨k, same, refused⟩ := current
    rw [same]
    exact .whole k refused
  | sending frame off =>
    rw [here] at current
    obtain ⟨passes, rfl, under, k, same⟩ := current
    rw [same]
    exact .part passes under
  | closing | ended =>
    rw [here] at current
    exact current
  | fault =>
    rw [here] at current
    exact current.elim

/-- `send_all` leaves part of a frame on its way, or a whole one behind. -/
theorem carries_sendAll {current : Bytes} {k off : Nat} (passes : Passes payload)
    (bound : off ≤ (wireFrame payload ++ [0]).length)
    (same : current =
      Delimited.train 0 (wireFrame payload) k ++ (wireFrame payload ++ [0]).take off) :
    Carries payload current (sendAll (wireFrame payload ++ [0]) off) := by
  unfold sendAll
  split
  · rename_i under
    exact ⟨passes, rfl, under, k, same⟩
  · rename_i full
    refine ⟨k + 1, ?_, fun fails => absurd passes fails⟩
    rw [same, List.take_of_length_le (by omega), Delimited.train_concat]

/-- Every step of the device keeps its connections framed. -/
theorem Framed.step (framed : d.Framed) (taken : d.step event = some next) :
    next.Framed ∧ next.payload = d.payload := by
  have emitted := framed.emission
  have current := framed.current
  cases step_move taken with
  | signal => exact ⟨⟨current, framed.closed⟩, rfl⟩
  | leave here | refuse here | quit here stopped | drop here built | fail here | broken here =>
    exact ⟨⟨emitted, framed.closed⟩, rfl⟩
  | retry here => exact ⟨framed, rfl⟩
  | listen here | again here =>
    rw [here] at current
    exact ⟨⟨current, framed.closed⟩, rfl⟩
  | client here =>
    rw [here] at current
    exact ⟨⟨⟨0, current, fun _ => rfl⟩, framed.closed⟩, rfl⟩
  | wake here =>
    rw [here] at current
    exact ⟨⟨current, framed.closed⟩, rfl⟩
  | overrun here built =>
    rw [deviceFrame_eq] at built
    contradiction
  | emit here built =>
    rw [here] at current
    obtain ⟨k, same, -⟩ := current
    rw [deviceFrame_eq, Option.some.injEq] at built
    by_cases passes : Passes d.payload
    · rw [if_pos passes, Option.some.injEq] at built
      rw [← built]
      exact ⟨⟨carries_sendAll passes (Nat.zero_le _) (by simpa using same), framed.closed⟩, rfl⟩
    · rw [if_neg passes] at built
      contradiction
  | @sent frame off n here fits some_ =>
    rw [here] at current
    obtain ⟨passes, rfl, under, k, same⟩ := current
    have bound : off + n ≤ (wireFrame d.payload ++ [0]).length := by omega
    refine ⟨⟨carries_sendAll (k := k) passes bound ?_, framed.closed⟩, rfl⟩
    rw [same, List.append_assoc, List.take_add]
  | close here =>
    refine ⟨⟨rfl, fun sent member => ?_⟩, rfl⟩
    obtain old | rfl := List.mem_append.mp member |>.imp_right List.mem_singleton.mp
    · exact framed.closed sent old
    · exact emitted

/-- In every reachable state the connections are framed. -/
theorem framed {events : List DeviceEvent}
    (reached : Transition.run Device.step { payload } events = some d) :
    d.Framed ∧ d.payload = payload := by
  refine Transition.run_stable (fun d : Device => d.Framed ∧ d.payload = payload) ?_ ?_ reached
  · rintro state event next ⟨held, same⟩ taken
    obtain ⟨after, kept⟩ := held.step taken
    exact ⟨after, kept.trans same⟩
  · exact ⟨⟨rfl, by simp⟩, rfl⟩

/-- Every connection of a reachable device is framed. -/
theorem emission_of_connection {events : List DeviceEvent}
    (reached : Transition.run Device.step { payload } events = some d)
    (member : sent ∈ d.connections) : Emission payload sent := by
  obtain ⟨framed, rfl⟩ := framed reached
  obtain old | rfl := List.mem_append.mp member |>.imp_right List.mem_singleton.mp
  · exact framed.closed sent old
  · exact framed.emission

/-- Framing survives every way of sending. Whatever the buffer held, however `send` splits the
frames, is interrupted or fails, and whenever signals arrive, the device never writes outside its
buffer, and each of its connections carries whole frames, each the encoding of the payload and a
delimiter, followed by at most the beginning of one; a payload that does not pass the size guard
is never sent, not even in part. -/
theorem connections_are_framed (payload : Bytes) (events : List DeviceEvent) (d : Device)
    (reached : Transition.run Device.step { payload } events = some d) :
    d.pc ≠ .fault ∧ ∀ sent ∈ d.connections, Emission payload sent := by
  refine ⟨fun fault => ?_, fun sent member => emission_of_connection reached member⟩
  have current := (framed reached).1.current
  rw [fault] at current
  exact current

/-- A round of the send loop with a cleared buffer. -/
def clearRound : DeviceEvent := .round ⟨List.replicate encSize 0, List.length_replicate⟩

/-- A frame goes out in two parts with an interruption in between; the second one is cut off by
the peer, and the next client is served. -/
def brokenSends : List DeviceEvent :=
  [.tau, .accept .client, clearRound, .send (.sent 4), .send .interrupted, .send (.sent 7),
    .wake, clearRound, .send (.sent 2), .send .failed, .tau, .tau, .accept .client]

/-- One connection carries a frame and two bytes of another, the next one nothing so far. -/
theorem brokenSends_framed : ∃ d,
    Transition.run Device.step { payload := defaultPayload } brokenSends = some d ∧
    d.connections = [wireFrame defaultPayload ++ [0] ++ [0x0A, 0x51], []] ∧
    d.pc ≠ .fault ∧ ∀ sent ∈ d.connections, Emission defaultPayload sent := by
  have sent : (Transition.run Device.step { payload := defaultPayload } brokenSends).map
      Device.connections = some [wireFrame defaultPayload ++ [0] ++ [0x0A, 0x51], []] := by
    decide +kernel
  obtain ⟨d, reached, same⟩ := Option.map_eq_some_iff.mp sent
  exact ⟨d, reached, same, connections_are_framed defaultPayload brokenSends d reached⟩

end Device

/-! ## What a job makes of a connection -/

/-- Every text that an end of the frame holds is the payload. -/
def Unambiguous (payload : Bytes) : Prop :=
  ∀ rest qr, rest <:+ wireFrame payload → acceptFrame rest = some qr → qr = payload

/-- A text a job stores is held by a block of its stream. -/
theorem Fed.stored_block {cut : List Chunk} {id : String} {timeoutMs : Int} {obs : List Obs}
    {final : Fed} {qr : Bytes}
    (reached : Transition.run Fed.step ⟨{ id, timeoutMs }, cut⟩ obs = some final)
    (storing : final.job.pc = .storing (.done qr)) :
    ∃ block, Block (streamOf cut) block ∧ acceptFrame block = some qr := by
  have start : ∃ consumed, streamOf cut = consumed ++ streamOf cut ∧
      JobPc.entry.Traced (streamOf cut) consumed := ⟨[], rfl, trivial⟩
  obtain ⟨consumed, -, traced⟩ : ∃ consumed, streamOf cut = consumed ++ streamOf final.pending ∧
      final.job.pc.Traced (streamOf cut) consumed :=
    Transition.run_stable
      (fun f : Fed => ∃ consumed, streamOf cut = consumed ++ streamOf f.pending ∧
        f.job.pc.Traced (streamOf cut) consumed)
      (fun ⟨_, held, traced⟩ taken =>
        (Fed.traced_step held traced taken).elim fun _ after => ⟨_, after⟩)
      start reached
  rw [storing] at traced
  exact traced

/-- In a part of a connection a delimiter is preceded by the end of a frame, and followed by more
frames. -/
theorem Emission.split {before block after : Bytes} (emission : Emission payload sent)
    (clean : (0 : UInt8) ∉ block) (shape : sent = before ++ block ++ 0 :: after) :
    Passes payload ∧ block <:+ wireFrame payload ∧
      ∃ j front, after = Delimited.train 0 (wireFrame payload) j ++ front ∧
        front <+: wireFrame payload := by
  obtain ⟨k, front, same, begins, refused⟩ := emission
  have free : (0 : UInt8) ∉ front := fun zero => wireFrame_clean payload (begins.subset zero)
  obtain ⟨ends, j, more⟩ := Delimited.split_train (wireFrame_clean payload) free clean
    (same.symm.trans shape)
  refine ⟨?_, ends, j, front, more, begins⟩
  by_contra fails
  rw [refused fails] at shape
  simp at shape

/-- What a job stores from a part of a connection, an end of the frame holds. -/
theorem stored_end {cut : List Chunk} {id : String} {timeoutMs : Int} {obs : List Obs}
    {final : Fed} {qr : Bytes} (emission : Emission payload sent) (inside : streamOf cut <:+: sent)
    (reached : Transition.run Fed.step ⟨{ id, timeoutMs }, cut⟩ obs = some final)
    (storing : final.job.pc = .storing (.done qr)) :
    Passes payload ∧ ∃ rest, rest <:+ wireFrame payload ∧ acceptFrame rest = some qr := by
  obtain ⟨block, ⟨clean, -, before, after, shape⟩, accepted⟩ := Fed.stored_block reached storing
  obtain ⟨left, right, whole⟩ := inside
  have split : sent = (left ++ before) ++ block ++ 0 :: (after ++ right) := by
    rw [← whole, shape]
    simp
  obtain ⟨passes, ends, -⟩ := emission.split clean split
  exact ⟨passes, block, ends, accepted⟩

/-- The schedule that sends one whole frame. -/
def oneFrame (payload : Bytes) : List DeviceEvent :=
  [.tau, .accept .client, Device.clearRound, .send (.sent (wireFrame payload ++ [0]).length)]

/-- A payload that passes can be sent. -/
theorem oneFrame_sent (passes : Passes payload) : ∃ d,
    Transition.run Device.step { payload } (oneFrame payload) = some d ∧
      wireFrame payload ++ [0] ∈ d.connections := by
  have built := deviceFrame_eq payload ⟨List.replicate encSize 0, List.length_replicate⟩
  rw [if_pos passes] at built
  have all : (wireFrame payload ++ [0]).take ((wireFrame payload).length + 1) =
      wireFrame payload ++ [0] := List.take_of_length_le (by simp)
  refine ⟨{ payload, pc := .pausing, current := wireFrame payload ++ [0] }, ?_, by
    simp [Device.connections]⟩
  simp only [oneFrame, Device.clearRound, Transition.run, Device.step, Option.bind_some]
  simp [built, sendAll, Device.sendStep, all]

/-- A payload of less than 254 bytes, each larger than their number, is unambiguous: an end of
its frame that misses the code byte begins with a code for more bytes than are left. -/
theorem unambiguous_of_large (short : payload.length < Stuffing.blockLimit)
    (large : ∀ byte ∈ payload, payload.length < byte.toNat) : Unambiguous payload := by
  have clean : (0 : UInt8) ∉ payload := fun zero => by simpa using large 0 zero
  have single : wireFrame payload = Stuffing.code payload :: payload := by
    have opened := Stuffing.stuff_open [] payload [] clean (by simpa using short)
    simpa [wireFrame, Stuffing.stuff] using opened
  intro rest qr ends accepted
  obtain ⟨decoded, -⟩ := Job.acceptFrame_some.mp accepted
  rw [single] at ends
  obtain rfl | inner := List.suffix_cons_iff.mp ends
  · rw [← single, wireFrame_decodes] at decoded
    exact (Option.some.inj decoded).symm
  · cases rest with
    | nil => simp [acceptFrame_nil] at accepted
    | cons byte more =>
      have big := large byte (inner.subset (by simp))
      have fewer := inner.length_le
      rw [List.length_cons] at fewer
      have nonzero : byte ≠ 0 := fun zero => by simp [zero] at big
      have beyond : more.length < byte.toNat - 1 := by omega
      rw [cobsDecode_eq, Stuffing.unstuff, if_neg nonzero, if_pos beyond] at decoded
      contradiction

example : Unambiguous defaultPayload := unambiguous_of_large (by decide) (by decide +kernel)

/-- No job stores a garbled text, exactly for unambiguous payloads. Whatever the device and its
connections went through, whichever part of a connection a job reads, in which chunks, and
whatever errors, timeouts and interruptions it meets, a text it stores is the payload, if and only
if the payload is too large to be sent at all or every end of its frame that holds a text holds
the payload. Short payloads of large bytes are of this kind. -/
theorem stored_text_is_payload_iff (payload : Bytes) :
    ((∀ (events : List DeviceEvent) (d : Device) (sent : Bytes) (cut : List Chunk) (id : String)
        (timeoutMs : Int) (obs : List Obs) (final : Fed) (qr : Bytes),
      Transition.run Device.step { payload } events = some d → sent ∈ d.connections →
      streamOf cut <:+: sent →
      Transition.run Fed.step ⟨{ id, timeoutMs }, cut⟩ obs = some final →
      final.job.pc = .storing (.done qr) → qr = payload) ↔
        (Passes payload → Unambiguous payload)) ∧
    (payload.length < Stuffing.blockLimit → (∀ byte ∈ payload, payload.length < byte.toNat) →
      Unambiguous payload) := by
  refine ⟨⟨fun safe passes rest qr ends accepted => ?_, ?_⟩, unambiguous_of_large⟩
  · -- a job that loses the beginning of the frame stores what its end holds
    obtain ⟨before, whole⟩ := ends
    obtain ⟨d, reached, member⟩ := oneFrame_sent passes
    have clean : (0 : UInt8) ∉ rest := fun zero => wireFrame_clean payload (by simp [← whole, zero])
    have fits : rest.length ≤ maxFrame := by
      have bound := wireFrame_fits passes
      rw [← whole, List.length_append] at bound
      omega
    have block : Block (wireFrame payload ++ [0]) rest :=
      ⟨clean, fits, before, [], by rw [whole]⟩
    obtain ⟨cut, timeoutMs, obs, final, stream, ran, storing⟩ := block_is_decoded block accepted
    have inside : streamOf cut <:+: wireFrame payload ++ [0] := ⟨[], [], by simp [stream]⟩
    exact safe _ d _ cut "" timeoutMs obs final qr reached member inside ran storing
  · intro unambiguous events d sent cut id timeoutMs obs final qr reached member inside ran storing
    have emission := Device.emission_of_connection reached member
    obtain ⟨passes, rest, ends, accepted⟩ := stored_end emission inside ran storing
    exact unambiguous passes rest qr ends accepted

/-! ## A job that joins in -/

/-- No read straddles a delimiter: one can only be its last byte. -/
def Aligned (cut : List Chunk) : Prop := ∀ chunk ∈ cut, (0 : UInt8) ∉ chunk.bytes.dropLast

instance (cut : List Chunk) : Decidable (Aligned cut) :=
  inferInstanceAs (Decidable (∀ chunk ∈ cut, _))

/-- Up to the first delimiter of an aligned cut the call collects everything and loses
nothing. -/
theorem digest_aligned (acc : Bytes) {body rest : Bytes} {cut : List Chunk}
    (aligned : Aligned cut) (stream : streamOf cut = body ++ 0 :: rest)
    (clean : (0 : UInt8) ∉ body) (fits : acc.length + body.length ≤ maxFrame) :
    ∃ later, streamOf later = rest ∧ digest acc cut = Fed.verdict true (acc ++ body) later := by
  induction cut generalizing acc body with
  | nil => simp [streamOf] at stream
  | cons chunk more ih =>
    have shape : chunk.bytes ++ streamOf more = body ++ 0 :: rest := stream
    by_cases inside : (0 : UInt8) ∈ chunk.bytes
    · obtain ⟨taken, dropped, bytes, free⟩ := List.eq_append_cons_of_mem inside
      obtain rfl : dropped = [] := by
        have last := aligned chunk (by simp)
        rw [bytes] at last
        cases dropped with
        | nil => rfl
        | cons byte others => simp [List.dropLast_append_of_ne_nil] at last
      rw [bytes, List.append_assoc, List.cons_append, List.nil_append] at shape
      obtain ⟨rfl, rfl⟩ := Delimited.split_unique free clean shape
      refine ⟨more, rfl, ?_⟩
      rw [digest, bytes, scanChunk_delimiter acc taken [] clean fits]
      rfl
    · obtain ⟨body', rfl, stream'⟩ := Delimited.split_behind inside shape
      rw [List.mem_append, not_or] at clean
      rw [List.length_append] at fits
      have later : Aligned more := fun other member => aligned other (by simp [member])
      rw [digest, scanChunk_clean acc chunk.bytes clean.1 (by omega), ← List.append_assoc]
      exact ih (acc ++ chunk.bytes) later stream' clean.2 (by rw [List.length_append]; omega)

/-- Two delimiters of a part of a connection have a whole frame between them. -/
theorem Emission.frame_between (emission : Emission payload sent) {piece : Bytes}
    (inside : piece <:+: sent) (two : 2 ≤ piece.count 0) :
    Passes payload ∧ ∃ rest tail, rest <:+ wireFrame payload ∧
      piece = rest ++ 0 :: (wireFrame payload ++ 0 :: tail) := by
  obtain ⟨left, right, whole⟩ := inside
  have first : (0 : UInt8) ∈ piece := List.count_pos_iff.mp (by omega)
  obtain ⟨rest, behind, rfl, clean⟩ := List.eq_append_cons_of_mem first
  have second : (0 : UInt8) ∈ behind := by
    rw [List.count_append, List.count_cons_self, List.count_eq_zero_of_not_mem clean] at two
    exact List.count_pos_iff.mp (by omega)
  obtain ⟨body, tail, rfl, free⟩ := List.eq_append_cons_of_mem second
  have shape : sent = left ++ rest ++ 0 :: (body ++ 0 :: (tail ++ right)) := by simp [← whole]
  obtain ⟨passes, ends, j, front, more, begins⟩ := emission.split clean shape
  refine ⟨passes, rest, tail, ends, ?_⟩
  have cut : (0 : UInt8) ∉ front := fun zero => wireFrame_clean payload (begins.subset zero)
  cases j with
  | zero =>
    have zero : (0 : UInt8) ∈ front := by
      rw [show front = body ++ 0 :: (tail ++ right) from more.symm]
      simp
    exact absurd zero cut
  | succ j =>
    rw [Delimited.train, List.append_assoc, List.cons_append] at more
    rw [(Delimited.split_unique free (wireFrame_clean payload) more).1]

/-- A job that joins a connection anywhere has the payload from the second delimiter on. If its
reads do not straddle delimiters and cover two of them, every run of it without errors,
cancellation or a spent budget stores an unambiguous QR payload, and there is such a run. -/
theorem joining_job_gets_payload (payload : Bytes) (qr : startsWithQr payload = true)
    (unambiguous : Unambiguous payload) (events : List DeviceEvent) (d : Device) (sent : Bytes)
    (cut : List Chunk) (reached : Transition.run Device.step { payload } events = some d)
    (member : sent ∈ d.connections) (inside : streamOf cut <:+: sent) (aligned : Aligned cut)
    (two : 2 ≤ (streamOf cut).count 0) :
    (∀ (id : String) (timeoutMs : Int) (obs : List Obs) (final : Fed) (stored : Outcome),
      Transition.run Fed.step ⟨{ id, timeoutMs }, cut⟩ obs = some final →
      Transition.Along Fed.step (fun f obs => f.smooth obs = true) ⟨{ id, timeoutMs }, cut⟩ obs →
      final.job.pc = .storing stored → stored = .done payload) ∧
    ∀ id, ∃ timeoutMs, Fed.Reaches ⟨{ id, timeoutMs }, cut⟩ (.done payload) := by
  have emission := Device.emission_of_connection reached member
  obtain ⟨passes, rest, tail, ends, stream⟩ := emission.frame_between inside two
  have short : (wireFrame payload).length ≤ maxFrame := wireFrame_fits passes
  have clean : (0 : UInt8) ∉ rest := fun zero => wireFrame_clean payload (ends.subset zero)
  have fewer := ends.length_le
  have accepted : acceptFrame (wireFrame payload) = some payload :=
    Job.acceptFrame_some.mpr ⟨wireFrame_decodes payload, qr⟩
  -- the call that meets the first delimiter returns the end of a frame, the next one a whole one
  have value : digest [] cut = .done payload := by
    obtain ⟨later, behind, first⟩ := digest_aligned [] aligned stream clean (by simp; omega)
    rw [first, List.nil_append, Fed.verdict, if_pos rfl]
    cases found : acceptFrame rest with
    | some text => rw [unambiguous rest text ends found]
    | none =>
      obtain ⟨dropped, last, -, -, second⟩ := digest_delimited [] later behind
        (wireFrame_clean payload) (by simpa using short)
      rw [second, List.nil_append, Fed.verdict, if_pos rfl, accepted]
  constructor
  · intro id timeoutMs obs final stored ran smooth stands
    rw [Fed.stored_eq_digest ran smooth stands, value]
  · intro id
    have runs := Fed.reaches_of_cut cut id
    rwa [value] at runs

/-- The end of a frame and a whole one, each in a read of its own. -/
def joinedReads : List Chunk :=
  [⟨[0x35, 0x36, 0x00], by decide, by decide⟩,
    ⟨[0x0A, 0x51, 0x52, 0x3A, 0x31, 0x32, 0x33, 0x34, 0x35, 0x36, 0x00], by decide, by decide⟩]

/-- Two frames go out whole. -/
def twoFrames : List DeviceEvent :=
  oneFrame defaultPayload ++ [.wake, Device.clearRound, .send (.sent 11)]

/-- A job that joins a device without `PARCEL_PAYLOAD` in the middle of the first of two frames
gets its payload. -/
theorem joinedReads_payload : (∃ d,
      Transition.run Device.step (Device.start none) twoFrames = some d ∧
      streamOf joinedReads <:+: d.current) ∧
    ∃ timeoutMs, Fed.Reaches ⟨{ id := "a", timeoutMs }, joinedReads⟩ (.done defaultPayload) := by
  have sent : (Transition.run Device.step (Device.start none) twoFrames).map
      Device.current = some (Delimited.train 0 (wireFrame defaultPayload) 2) := by
    decide +kernel
  obtain ⟨d, reached, same⟩ := Option.map_eq_some_iff.mp sent
  have inside : streamOf joinedReads <:+: d.current := by
    rw [same]
    exact ⟨[0x0A, 0x51, 0x52, 0x3A, 0x31, 0x32, 0x33, 0x34], [], by decide⟩
  refine ⟨⟨d, reached, inside⟩, ?_⟩
  exact (joining_job_gets_payload (devicePayload none) (by decide)
    (unambiguous_of_large (by decide) (by decide +kernel)) twoFrames d d.current joinedReads reached
    (by simp [Device.connections]) inside (by decide) (by decide)).2 "a"

end QrEdgeGateway
