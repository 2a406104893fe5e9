import Mathlib.Data.Rat.Floor
import Mathlib.Tactic.Linarith
import QrEdgeGateway.Verif.SmoothRuns

/-!
# One call of the reader is a function of its bytes

However the bytes arrive and whatever interrupts the call, a call that meets no error and keeps
its budget returns what the concatenation of the bytes it has read determines: the bytes before
the first delimiter, if there are between one and `maxFrame` of them. The invariant is a relation
between the call and everything read so far, so it speaks of the call in the middle of a stream
and not of any chunk.

The number of iterations is bounded by the budget whatever happens, errors included.
-/

namespace QrEdgeGateway

/-- The bytes all reads of a run have delivered. -/
def bytesRead (obs : List Obs) : Bytes := streamOf (obs.flatMap Obs.reads)

/-- One more observation appends what it delivers. -/
theorem bytesRead_concat (past : List Obs) (obs : Obs) :
    bytesRead (past ++ [obs]) = bytesRead past ++ streamOf obs.reads := by
  simp [bytesRead, streamOf]

namespace Reader

variable {r next : Reader} {past : List Obs} {obs : Obs}

/-- The call has returned, and what it returned is determined by the bytes read. -/
inductive Decided (r : Reader) (t : Bytes) : Prop where
  /-- A frame of admissible length was delimited. -/
  | frame {dropped : Bytes} (here : r.pc = .returned true) (shape : t = r.frame ++ 0 :: dropped)
      (clean : (0 : UInt8) ∉ r.frame) (filled : 1 ≤ r.frame.length)
      (fits : r.frame.length ≤ maxFrame)
  /-- The first byte was a delimiter. -/
  | empty {dropped : Bytes} (here : r.pc = .returned false) (shape : t = 0 :: dropped)
      (empty : r.frame = [])
  /-- The frame outgrew the limit. -/
  | large {dropped : Bytes} (here : r.pc = .returned false) (shape : t = r.frame ++ dropped)
      (clean : (0 : UInt8) ∉ r.frame) (size : r.frame.length = maxFrame + 1)

/-- How a call without an error stands to the bytes it has read. -/
inductive Follows (t : Bytes) (r : Reader) : Prop where
  /-- The call goes on and holds all bytes read. -/
  | on (sound : r.Sound) (same : r.frame = t) (clean : (0 : UInt8) ∉ t)
      (fits : t.length ≤ maxFrame)
  /-- The call has run out of budget. -/
  | spent (spent : r.Spent)
  /-- The call has returned on a byte. -/
  | decided (decided : r.Decided t)

/-- A chunk carries the relation on. -/
theorem follows_onChunk {t : Bytes} (chunk : Chunk) (same : r.frame = t)
    (clean : (0 : UInt8) ∉ t) (fits : t.length ≤ maxFrame) :
    Follows (t ++ chunk.bytes) (r.onChunk chunk) := by
  have scanned := scanChunk_spec r.frame chunk.bytes (by rw [same]; exact fits)
  have zeroFree : ∀ taken : Bytes, (0 : UInt8) ∉ taken → (0 : UInt8) ∉ r.frame ++ taken := by
    intro taken pure
    rw [same]
    simp [clean, pure]
  unfold onChunk
  split at scanned
  · obtain ⟨taken, dropped, shape, rfl, pure, bound⟩ := scanned
    have stream : t ++ chunk.bytes = (r.frame ++ taken) ++ 0 :: dropped := by
      rw [shape, same]
      simp
    refine .decided ?_
    by_cases empty : r.frame ++ taken = []
    · rw [empty] at stream ⊢
      exact .empty rfl stream rfl
    · have filled : 1 ≤ (r.frame ++ taken).length := List.length_pos_iff.mpr empty
      exact .frame (by simp [ret, empty]) stream (zeroFree taken pure) filled bound
  · obtain ⟨taken, dropped, shape, rfl, pure, bound⟩ := scanned
    have stream : t ++ chunk.bytes = (r.frame ++ taken) ++ dropped := by
      rw [shape, same]
      simp
    exact .decided (.large rfl stream (zeroFree taken pure) bound)
  · obtain ⟨rfl, pure, bound⟩ := scanned
    rw [← same]
    rcases again_cases { { r with frame := r.frame ++ chunk.bytes } with
      remaining := r.remaining - r.waitMs } with sound | spent
    · exact .on sound (again_frame _) (zeroFree chunk.bytes pure) bound
    · exact .spent spent

/-- Every step without an error carries the relation on. -/
theorem follows_step (follows : Follows (bytesRead past) r) (benign : obs.benign = true)
    (moved : r.step obs = some next) : Follows (bytesRead (past ++ [obs])) next := by
  rw [bytesRead_concat]
  cases follows with
  | on sound same clean fits =>
    by_cases data : ∃ chunk, obs = .read (.data chunk)
    · obtain ⟨chunk, rfl⟩ := data
      cases step_move moved with
      | data _ here =>
        have carried := follows_onChunk chunk same clean fits
        simpa [Obs.reads, streamOf] using carried
    · have other : ∀ chunk, obs ≠ .read (.data chunk) := fun chunk same => data ⟨chunk, same⟩
      rw [Obs.reads_eq_nil other]
      simp only [streamOf, List.flatMap_nil, List.append_nil]
      obtain ⟨chunk, data, -⟩ | ⟨-, kept, -⟩ := step_cases moved
      · exact absurd data (other chunk)
      · rcases step_benign sound benign other moved with sound | spent
        · exact .on sound (kept.trans same) clean fits
        · exact .spent spent
  | spent spent =>
    rw [step_returned spent.1] at moved
    contradiction
  | decided decided =>
    have gone : ∃ got, r.pc = .returned got := by
      cases decided with
      | frame here shape clean filled fits => exact ⟨_, here⟩
      | empty here shape empty => exact ⟨_, here⟩
      | large here shape clean size => exact ⟨_, here⟩
    obtain ⟨got, here⟩ := gone
    rw [step_returned here] at moved
    contradiction

/-- A call begins with nothing read. -/
theorem follows_enter (timeoutMs : Int) : Follows (bytesRead []) (enter timeoutMs) := by
  rcases again_cases { remaining := timeoutMs } with sound | spent
  · exact .on sound (again_frame _) (by simp [bytesRead, streamOf]) (by simp [bytesRead, streamOf])
  · exact .spent spent

/-- A call without an error that returns with budget left has decided by its bytes. -/
theorem decided_of_run {timeoutMs : Int} {obs : List Obs} {got : Bool}
    (reached : Transition.run Reader.step (enter timeoutMs) obs = some r)
    (benign : ∀ o ∈ obs, o.benign = true) (returned : r.pc = .returned got)
    (left : 0 < r.remaining) : r.Decided (bytesRead obs) := by
  have follows : Follows (bytesRead obs) r :=
    Transition.run_traced (fun past r => Follows (bytesRead past) r)
      (fun follows good moved => follows_step follows good moved) (follows_enter timeoutMs)
      reached (Transition.along_of_forall benign)
  cases follows with
  | on sound same clean fits => exact absurd returned (sound.inside got)
  | spent spent =>
    have gone := spent.2
    omega
  | decided decided => exact decided

/-! ## Size of the frame -/

/-- A call under way keeps its frame within the limit; a returned one exceeds it by at most the
byte that made it return. -/
def Bounded (r : Reader) : Prop :=
  r.frame.length ≤ maxFrame + 1 ∧ ((∀ got, r.pc ≠ .returned got) → r.frame.length ≤ maxFrame)

/-- Every step keeps the frame bounded. -/
theorem bounded_step (bounded : r.Bounded) (moved : r.step obs = some next) : next.Bounded := by
  have inside : ∀ got, r.pc ≠ .returned got := by
    intro got here
    rw [step_returned here] at moved
    contradiction
  have small := bounded.2 inside
  obtain ⟨chunk, -, rfl⟩ | ⟨-, kept, -⟩ := step_cases moved
  · have scanned := scanChunk_spec r.frame chunk.bytes small
    unfold onChunk
    split at scanned
    · obtain ⟨taken, dropped, -, -, -, bound⟩ := scanned
      exact ⟨Nat.le_succ_of_le bound, fun _ => bound⟩
    · obtain ⟨taken, dropped, -, -, -, size⟩ := scanned
      exact ⟨Nat.le_of_eq size, fun under => absurd rfl (under false)⟩
    · obtain ⟨-, -, bound⟩ := scanned
      rw [Bounded, charge_frame]
      exact ⟨Nat.le_succ_of_le bound, fun _ => bound⟩
  · rw [Bounded, kept]
    exact ⟨bounded.1, fun _ => small⟩

/-- No run of a call holds more than one byte over the limit. -/
theorem frame_le {timeoutMs : Int} {obs : List Obs}
    (reached : Transition.run Reader.step (enter timeoutMs) obs = some r) :
    r.frame.length ≤ maxFrame + 1 := by
  refine (Transition.run_stable Bounded (fun held taken => bounded_step held taken) ?_ reached).1
  simp [Bounded, enter]

/-! ## Number of iterations -/

/-- The step ends an iteration of the loop, and not by `EINTR`. -/
def concludes (r : Reader) (obs : Obs) : Bool :=
  match r.pc, obs with
  | .polled .interrupted, .running flag => !flag
  | .polled .readable, .running flag => !flag
  | .polled _, .running _ => true
  | .reading, .read .interrupted => false
  | .reading, .read _ => true
  | _, _ => false

/-- The budget left for the iterations to come, or none of them. -/
def Budgeted (timeoutMs : Int) (r : Reader) (count : Nat) : Prop :=
  stepMs * count < timeoutMs + stepMs ∧
    ((∀ got, r.pc ≠ .returned got) →
      0 < r.remaining ∧ r.remaining + stepMs * count ≤ timeoutMs)

/-- A returned call has no iterations to come. -/
theorem budgeted_return {timeoutMs : Int} {count : Nat} {got : Bool}
    (spent : stepMs * count < timeoutMs + stepMs) (here : r.pc = .returned got) :
    Budgeted timeoutMs r count :=
  ⟨spent, fun under => absurd here (under got)⟩

/-- The loop condition asks for budget. -/
theorem budgeted_again {timeoutMs : Int} {count : Nat}
    (spent : stepMs * count < timeoutMs + stepMs)
    (left : 0 < r.remaining → r.remaining + stepMs * count ≤ timeoutMs) :
    Budgeted timeoutMs r.again count := by
  unfold again
  split
  · rename_i positive
    exact ⟨spent, fun _ => ⟨positive, left positive⟩⟩
  · exact budgeted_return spent rfl

/-- A charged iteration is paid for. -/
theorem budgeted_charge {timeoutMs : Int} {count : Nat} (left : 0 < r.remaining)
    (within : r.remaining + stepMs * count ≤ timeoutMs) :
    Budgeted timeoutMs r.charge (count + 1) := by
  have step : stepMs * (count + 1 : Nat) = stepMs * count + stepMs := by
    push_cast
    ring
  apply budgeted_again
  · rw [step]
    omega
  · intro positive
    rw [step]
    dsimp only at positive ⊢
    unfold waitMs at positive ⊢
    split at positive <;> rename_i short
    · omega
    · rw [if_neg short]
      omega

/-- An iteration that returns was begun with budget left. -/
theorem budgeted_last {timeoutMs : Int} {count : Nat} {got : Bool} (left : 0 < r.remaining)
    (within : r.remaining + stepMs * count ≤ timeoutMs) (here : next.pc = .returned got) :
    Budgeted timeoutMs next (count + 1) := by
  refine budgeted_return ?_ here
  push_cast
  unfold stepMs at within ⊢
  omega

/-- Every step keeps the iterations within the budget. -/
theorem budgeted_step {timeoutMs : Int} {count : Nat} (budgeted : Budgeted timeoutMs r count)
    (moved : r.step obs = some next) :
    Budgeted timeoutMs next (count + (r.concludes obs).toNat) := by
  have inside : ∀ got, r.pc ≠ .returned got := by
    intro got here
    rw [step_returned here] at moved
    contradiction
  obtain ⟨left, within⟩ := budgeted.2 inside
  have onward : ∀ pc, Budgeted timeoutMs { r with pc } count := fun pc =>
    ⟨budgeted.1, fun _ => ⟨left, within⟩⟩
  cases step_move moved with
  | quit here =>
    obtain here | ⟨result, here⟩ := here
    · simpa [concludes, here] using budgeted_return budgeted.1 rfl
    · cases result <;> simpa [concludes, here] using budgeted_last left within rfl
  | proceed here => simpa [concludes, here] using onward .polling
  | poll result here => simpa [concludes, here] using onward (.polled result)
  | ready here => simpa [concludes, here] using onward .reading
  | pollAgain here | readAgain here =>
    simpa [concludes, here] using budgeted_again budgeted.1 fun _ => within
  | pollIdle here =>
    obtain here | here := here <;> simpa [concludes, here] using budgeted_charge left within
  | pollFail here =>
    obtain here | here := here <;> simpa [concludes, here] using budgeted_last left within rfl
  | readIdle here => simpa [concludes, here] using budgeted_charge left within
  | readFail here | readEnd here =>
    simpa [concludes, here] using budgeted_last left within rfl
  | data chunk here =>
    have counted : r.concludes (.read (.data chunk)) = true := by simp [concludes, here]
    rw [counted]
    unfold onChunk
    split
    · exact budgeted_last left within rfl
    · exact budgeted_last left within rfl
    · exact budgeted_charge left within

/-- A call makes no more iterations than its budget has steps, those that `EINTR` ended not
counted. -/
theorem iterations_le {timeoutMs : Int} {obs : List Obs} (positive : 0 < timeoutMs)
    (reached : Transition.run Reader.step (enter timeoutMs) obs = some r) :
    (Transition.tally Reader.step concludes (enter timeoutMs) obs : Int) ≤
      ⌈(timeoutMs : ℚ) / 50⌉ := by
  have start : Budgeted timeoutMs (enter timeoutMs) 0 := by
    apply budgeted_again
    · unfold stepMs
      omega
    · simp
  have bound := (Transition.run_tally (Budgeted timeoutMs)
    (fun held _ moved => budgeted_step held moved) start reached Transition.along_true).1
  unfold stepMs at bound
  rw [Int.le_ceil_iff]
  have cast : (50 : ℚ) * (Transition.tally Reader.step concludes (enter timeoutMs) obs : Int) <
      timeoutMs + 50 := by
    exact_mod_cast bound
  linarith

/-! ## The call as a function -/

/-- A delimiter lies within any longer beginning. -/
theorem delimiter_mem_take (front rest : Bytes) {k : Nat} (after : front.length < k) :
    (0 : UInt8) ∈ (front ++ 0 :: rest).take k := by
  obtain ⟨more, rfl⟩ : ∃ more, k = front.length + (more + 1) :=
    ⟨k - front.length - 1, by omega⟩
  simp [List.take_append]

/-- The first zero stands behind the zero-free front. -/
theorem first_zero_iff (front rest : Bytes) (clean : (0 : UInt8) ∉ front) (k : Nat) :
    (front ++ 0 :: rest)[k]? = some 0 ∧ (0 : UInt8) ∉ (front ++ 0 :: rest).take k ↔
      k = front.length := by
  constructor
  · rintro ⟨zero, earliest⟩
    rcases Nat.lt_trichotomy k front.length with before | same | after
    · rw [List.getElem?_append_left before] at zero
      exact absurd (List.mem_of_getElem? zero) clean
    · exact same
    · exact absurd (delimiter_mem_take front rest after) earliest
  · rintro rfl
    simp [clean]

/-- What a decided call has returned is what the bytes determine. -/
theorem decided_iff {t : Bytes} {got : Bool} (decided : r.Decided t)
    (returned : r.pc = .returned got) :
    (got = true ↔ ∃ k, 1 ≤ k ∧ k ≤ maxFrame ∧ t[k]? = some 0 ∧ (0 : UInt8) ∉ t.take k) ∧
    (∀ k, got = true → t[k]? = some 0 → (0 : UInt8) ∉ t.take k → r.frame = t.take k) ∧
    (got = false ↔ t.head? = some 0 ∨
      (maxFrame + 1 ≤ t.length ∧ (0 : UInt8) ∉ t.take (maxFrame + 1))) := by
  cases decided with
  | @frame dropped here shape clean filled fits =>
    obtain rfl : got = true := by simpa [here] using returned.symm
    have first := first_zero_iff r.frame dropped clean
    have passed := delimiter_mem_take r.frame dropped (Nat.lt_succ_of_le fits)
    rw [← shape] at first passed
    have head : t.head? ≠ some 0 := by
      intro zero
      have place := (first 0).mp ⟨by rw [← zero, List.head?_eq_getElem?], by simp⟩
      omega
    refine ⟨?_, ?_, ?_⟩
    · simp only [true_iff]
      exact ⟨r.frame.length, filled, fits, (first _).mpr rfl⟩
    · intro k _ zero before
      rw [(first k).mp ⟨zero, before⟩, shape]
      simp
    · simp [passed, head]
  | @empty dropped here shape nothing =>
    obtain rfl : got = false := by simpa [here] using returned.symm
    have first := first_zero_iff [] dropped (by simp)
    rw [List.nil_append, ← shape] at first
    refine ⟨?_, by simp, by simp [shape]⟩
    simp only [Bool.false_eq_true, false_iff]
    rintro ⟨k, positive, -, zero⟩
    have start := (first k).mp zero
    rw [List.length_nil] at start
    omega
  | @large dropped here shape clean size =>
    obtain rfl : got = false := by simpa [here] using returned.symm
    refine ⟨?_, by simp, ?_⟩
    · simp only [Bool.false_eq_true, false_iff]
      rintro ⟨k, -, fits, zero, -⟩
      rw [shape, List.getElem?_append_left (by omega)] at zero
      exact clean (List.mem_of_getElem? zero)
    · simp only [true_iff]
      refine .inr ⟨?_, ?_⟩
      · rw [shape, List.length_append]
        omega
      · rw [shape, ← size, List.take_left]
        exact clean

end Reader

/-- One call of `read_cobs_frame`. Without an error, a cleared flag or a spent budget it returns
true exactly if the first delimiter of the bytes read follows one to 4096 bytes, which are then
the frame, and false exactly if the first byte is a delimiter or none of the first 4097 is. In
every run the frame has at most 4097 bytes, and at most one iteration for every 50 ms of the
budget does not end in `EINTR`. -/
theorem frame_is_function_of_bytes (timeoutMs : Int) (obs : List Obs) {r : Reader}
    (reached : Transition.run Reader.step (Reader.enter timeoutMs) obs = some r) :
    (∀ got, r.pc = .returned got → (∀ o ∈ obs, o.benign = true) → 0 < r.remaining →
      (got = true ↔ ∃ k, 1 ≤ k ∧ k ≤ 4096 ∧
        (bytesRead obs)[k]? = some 0 ∧ (0 : UInt8) ∉ (bytesRead obs).take k) ∧
      (∀ k, got = true → (bytesRead obs)[k]? = some 0 →
        (0 : UInt8) ∉ (bytesRead obs).take k → r.frame = (bytesRead obs).take k) ∧
      (got = false ↔ (bytesRead obs).head? = some 0 ∨
        (4097 ≤ (bytesRead obs).length ∧ (0 : UInt8) ∉ (bytesRead obs).take 4097))) ∧
    r.frame.length ≤ 4097 ∧
    (0 < timeoutMs → (Transition.tally Reader.step Reader.concludes (Reader.enter timeoutMs) obs :
      Int) ≤ ⌈(timeoutMs : ℚ) / 50⌉) := by
  refine ⟨?_, Reader.frame_le reached, fun positive => Reader.iterations_le positive reached⟩
  intro got returned benign left
  exact Reader.decided_iff (Reader.decided_of_run reached benign returned left) returned

/-- A frame split over two reads and an interruption is returned whole. -/
theorem frame_is_function_of_bytes_split :
    ∃ r, Transition.run Reader.step (Reader.enter 120)
        (Round.obs (.data (.single 0x41)) ++ Round.obs .readInterrupted ++
          Round.obs (.data qrChunk)) = some r ∧
      r.pc = .returned true ∧ r.frame = [0x41, 0x04, 0x51, 0x52, 0x3A] := by
  have reached : Transition.run Reader.step (Reader.enter 120)
      (Round.obs (.data (.single 0x41)) ++ Round.obs .readInterrupted ++
        Round.obs (.data qrChunk)) =
      some { remaining := 70, frame := [0x41, 0x04, 0x51, 0x52, 0x3A], pc := .returned true } := by
    decide
  have whole := (frame_is_function_of_bytes 120 _ reached).1 true rfl (by decide) (by decide)
  exact ⟨_, reached, rfl, whole.2.1 5 rfl (by decide) (by decide)⟩

end QrEdgeGateway
