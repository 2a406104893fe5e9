import Mathlib.Data.Real.Basic
import Mathlib.Tactic.NormNum
import Mathlib.Tactic.Ring
import QrEdgeGateway.Verif.Delivery

/-!
# Time and budget of one call

Every iteration of the reader's loop charges its whole `wait_ms`, also when `poll` returned at
once with data. The time that passes is at most what is charged, so the budget can be gone while
time is left: what counts is how many reads the bytes arrive in. The time of an iteration is a
real number the environment chooses; the call never looks at it.
-/

namespace QrEdgeGateway

/-- One iteration of the reader's loop and the time it takes. -/
structure Iteration where
  /-- What happens in it. -/
  round : Round
  /-- Its duration in milliseconds. -/
  spent : ℝ

/-- The iteration is charged to the budget: it does not end in `EINTR`. -/
def Round.charged : Round → Bool
  | .pollInterrupted => false
  | .readInterrupted => false
  | _ => true

namespace Reader

/-- What the call returns, given what it will observe; it looks at no more than it needs. -/
def result (r : Reader) : List Obs → Option (Bool × Bytes)
  | [] =>
    match r.pc with
    | .returned got => some (got, r.frame)
    | _ => none
  | obs :: rest =>
    match r.pc with
    | .returned got => some (got, r.frame)
    | _ => (r.step obs).bind fun next => next.result rest

/-- No iteration takes longer than the `wait_ms` it hands to `poll`. -/
def Paced (r : Reader) : List Iteration → Prop
  | [] => True
  | it :: rest =>
    (0 ≤ it.spent ∧ (r.pc = .head → it.spent ≤ r.waitMs)) ∧ (r.after it.round).Paced rest

end Reader

/-- A body and its delimiter arrive at a call, in any number of reads, while time is left. -/
structure Arrival (timeoutMs : Int) (body : Bytes) where
  /-- The iterations before the one that reads the delimiter. -/
  before : List Iteration
  /-- The read that delivers the delimiter. -/
  last : Chunk
  /-- How long the last iteration waits for it. -/
  wait : ℝ
  /-- The reads deliver the body and the delimiter. -/
  delivers : (Round.ending (before.map Iteration.round) last).flatMap Round.bytes = body ++ [0]
  /-- No iteration takes longer than its `wait_ms`. -/
  paced : (Reader.enter timeoutMs).Paced (before ++ [Iteration.mk (.data last) wait])
  /-- The delimiter becomes available within the timeout. -/
  punctual : (before.map Iteration.spent).sum + wait < timeoutMs

/-- All observations of an arrival. -/
def Arrival.obs {timeoutMs : Int} {body : Bytes} (arrival : Arrival timeoutMs body) : List Obs :=
  (Round.ending (arrival.before.map Iteration.round) arrival.last).flatMap Round.obs

namespace Reader

variable {r next : Reader}

/-- A returned call has its result. -/
theorem result_returned {got : Bool} (here : r.pc = .returned got) (obs : List Obs) :
    r.result obs = some (got, r.frame) := by
  cases obs <;> simp [result, here]

/-- Observations the call takes can be skipped. -/
theorem result_append {obs rest : List Obs}
    (reached : Transition.run Reader.step r obs = some next) :
    r.result (obs ++ rest) = next.result rest := by
  induction obs generalizing r with
  | nil =>
    obtain rfl := Option.some.inj reached
    rfl
  | cons first more ih =>
    obtain ⟨middle, moved, onward⟩ := Transition.run_cons.mp reached
    have inside : ∀ got, r.pc ≠ .returned got := by
      intro got here
      rw [step_returned here] at moved
      contradiction
    rw [List.cons_append, result, moved, Option.bind_some, ih onward]
    split
    · rename_i got here
      exact absurd here (inside got)
    · rfl

/-- A charged round with budget for another one goes on with the rest of the budget. -/
theorem charge_of_more (more : stepMs < r.remaining) :
    r.charge = { r with remaining := r.remaining - stepMs, pc := .head } := by
  have whole : r.waitMs = stepMs := by
    unfold waitMs
    exact if_neg (by omega)
  unfold charge
  rw [again_of_pos (by dsimp only; omega), whole]

/-- A charged round without budget for another one ends the call. -/
theorem charge_of_last (less : r.remaining ≤ stepMs) : r.charge.pc = .returned false := by
  have gone : r.remaining - r.waitMs ≤ 0 := by
    unfold waitMs
    split <;> omega
  unfold charge again
  rw [if_neg (by dsimp only; omega)]

/-- A charged round without a delimiter only appends its bytes before it is charged. -/
theorem after_charged (round : Round) (charged : round.charged = true)
    (clean : (0 : UInt8) ∉ round.bytes)
    (fits : r.frame.length + round.bytes.length ≤ maxFrame) :
    r.after round = { r with frame := r.frame ++ round.bytes }.charge := by
  cases round with
  | data chunk =>
    simp only [after, onChunk, scanChunk_clean r.frame chunk.bytes clean fits, Round.bytes]
  | pollInterrupted => contradiction
  | readInterrupted => contradiction
  | timeout => simp [after, Round.bytes]
  | idle => simp [after, Round.bytes]
  | again => simp [after, Round.bytes]

/-- An interrupted round changes nothing while budget is left. -/
theorem after_interrupted (round : Round) (free : round.charged = false) (head : r.pc = .head)
    (left : 0 < r.remaining) : r.after round = r ∧ round.bytes = [] := by
  have stay : r.again = r := by
    rw [again_of_pos left, ← head]
  cases round with
  | pollInterrupted => exact ⟨stay, rfl⟩
  | readInterrupted => exact ⟨stay, rfl⟩
  | _ => contradiction

/-- From a loop condition with budget left, the body is returned exactly if the budget outlasts
the charged rounds before the delimiter. -/
theorem result_iff (rounds : List Round) (last : Chunk) (r : Reader) {body : Bytes}
    (head : r.pc = .head) (left : 0 < r.remaining)
    (delivers : (Round.ending rounds last).flatMap Round.bytes = body ++ [0])
    (clean : (0 : UInt8) ∉ body) (filled : 1 ≤ (r.frame ++ body).length)
    (fits : (r.frame ++ body).length ≤ maxFrame) :
    r.result ((Round.ending rounds last).flatMap Round.obs) = some (true, r.frame ++ body) ↔
      stepMs * (rounds.countP Round.charged) < r.remaining := by
  induction rounds generalizing r body with
  | nil =>
    have shape : last.bytes = body ++ 0 :: [] := by
      simpa [Round.ending, Round.bytes] using delivers
    have one : (Round.ending [] last).flatMap Round.obs = (Round.data last).obs ++ [] := by
      simp [Round.ending]
    rw [List.length_append] at fits
    have nonempty : (!(r.frame ++ body).isEmpty) = true := by
      rw [Bool.not_eq_true', List.isEmpty_eq_false_iff, ← List.length_pos_iff]
      exact filled
    have received := onChunk_delimiter (r := r) shape clean fits
    rw [nonempty] at received
    rw [one, result_append (run_round r _ head), after, received, result_returned rfl]
    simpa using left
  | cons round rest ih =>
    have cons : Round.ending (round :: rest) last = round :: Round.ending rest last := rfl
    rw [cons, List.flatMap_cons] at delivers
    rw [cons, List.flatMap_cons, result_append (run_round r round head)]
    obtain ⟨later, rfl, onward⟩ := Round.split_front delivers
    rw [List.mem_append, not_or] at clean
    cases charged : round.charged with
    | false =>
      obtain ⟨same, empty⟩ := after_interrupted round charged head left
      rw [empty, List.nil_append] at filled fits ⊢
      rw [same, ih r head left onward clean.2 filled fits]
      simp [charged]
    | true =>
      have room : r.frame.length + round.bytes.length ≤ maxFrame := by
        simp only [List.length_append] at fits
        omega
      rw [← List.append_assoc] at filled fits ⊢
      rw [after_charged round charged clean.1 room]
      have count : stepMs * ((round :: rest).countP Round.charged : Nat) =
          stepMs * (rest.countP Round.charged : Nat) + stepMs := by
        rw [List.countP_cons_of_pos charged]
        push_cast
        ring
      rw [count]
      by_cases more : stepMs < r.remaining
      · rw [charge_of_more (r := { r with frame := r.frame ++ round.bytes }) more,
          ih _ rfl (by dsimp only; omega) onward clean.2 filled fits]
        dsimp only
        omega
      · have gone := charge_of_last (r := { r with frame := r.frame ++ round.bytes })
          (Int.not_lt.mp more)
        rw [result_returned gone]
        have counted : 0 ≤ stepMs * (rest.countP Round.charged : Nat) := by
          unfold stepMs
          omega
        simp only [Option.some.injEq, Prod.mk.injEq, Bool.false_eq_true, false_and, false_iff]
        omega

end Reader

/-- A frame that becomes complete within the timeout is returned exactly if `step_ms` for each
charged iteration before its delimiter is less than the timeout. -/
theorem frame_in_time_iff {timeoutMs : Int} {body : Bytes} (positive : 0 < timeoutMs)
    (clean : (0 : UInt8) ∉ body) (filled : 1 ≤ body.length) (fits : body.length ≤ 4096)
    (arrival : Arrival timeoutMs body) :
    (Reader.enter timeoutMs).result arrival.obs = some (true, body) ↔
      50 * ((arrival.before.map Iteration.round).countP Round.charged : Int) < timeoutMs := by
  have entered : Reader.enter timeoutMs = { remaining := timeoutMs } :=
    Reader.again_of_pos (r := { remaining := timeoutMs }) positive
  rw [entered]
  exact Reader.result_iff _ _ { remaining := timeoutMs } rfl positive arrival.delivers clean filled
    fits

/-- The frame of `QR:` in three reads, with an interrupted `poll` and a silent one between them. -/
def chunkedArrival : Arrival 200 [0x04, 0x51, 0x52, 0x3A] where
  before := [⟨.data (.single 0x04), 10⟩, ⟨.pollInterrupted, 5⟩, ⟨.timeout, 50⟩,
    ⟨.data ⟨[0x51, 0x52], by decide, by decide⟩, 0⟩]
  last := ⟨[0x3A, 0x00], by decide, by decide⟩
  wait := 20
  delivers := rfl
  paced := by
    refine ⟨⟨by norm_num, fun _ => ?_⟩, ⟨by norm_num, fun _ => ?_⟩, ⟨by norm_num, fun _ => ?_⟩,
      ⟨by norm_num, fun _ => ?_⟩, ⟨by norm_num, fun _ => ?_⟩, trivial⟩
    -- every iteration hands 50 ms to `poll`
    all_goals
      change _ ≤ ((50 : Int) : ℝ)
      norm_num
  punctual := by norm_num

/-- Three iterations are charged, and the frame is returned. -/
theorem chunkedArrival_returned :
    (Reader.enter 200).result chunkedArrival.obs = some (true, [0x04, 0x51, 0x52, 0x3A]) :=
  (frame_in_time_iff (by decide) (by decide) (by decide) (by decide) chunkedArrival).mpr
    (by decide)

/-- One byte and its delimiter in two reads that follow each other at once. -/
def splitArrival : Arrival 50 [0x41] where
  before := [Iteration.mk (.data (.single 0x41)) 0]
  last := .single 0x00
  wait := 0
  delivers := rfl
  paced := by
    refine ⟨⟨le_refl 0, fun _ => ?_⟩, ⟨le_refl 0, fun head => ?_⟩, trivial⟩
    · have wait : (Reader.enter 50).waitMs = 50 := by decide
      rw [wait]
      norm_num
    · contradiction
  punctual := by norm_num

/-- No time has passed, and the call returns without the frame. -/
theorem splitArrival_lost :
    (splitArrival.before.map Iteration.spent).sum + splitArrival.wait = 0 ∧
      (Reader.enter 50).result splitArrival.obs = some (false, [0x41]) := by
  constructor
  · simp [splitArrival]
  · decide

end QrEdgeGateway
