import QrEdgeGateway.Requests
import QrEdgeGateway.Verif.Answers

/-!
# The timeout a job runs with

The timeout of a `/start` passes from the body or from the configuration into the request and
from there into the worker. On both ways in it is cast to `int`: a timeout in the body before
its sign is checked, the default without any check. What the worker gets is what was asked for
exactly if the number asked for is a positive `int`.
-/

namespace QrEdgeGateway

/-- A cast timeout is positive and unchanged exactly for a positive `int`. -/
theorem staticCastInt_asked_iff (asked : Int) :
    (0 < staticCastInt asked ∧ staticCastInt asked = asked) ↔
      1 ≤ asked ∧ asked ≤ 2147483647 := by
  constructor
  · rintro ⟨positive, same⟩
    have range := (staticCastInt_eq_iff asked).mp same
    omega
  · rintro ⟨low, high⟩
    have same := (staticCastInt_eq_iff asked).mpr ⟨by omega, high⟩
    exact ⟨by omega, same⟩

namespace World

/-- A `/start` answered 202 has launched a worker, and the worker's timeout is positive and the
one asked for exactly if the one asked for is a positive `int`. -/
theorem accepted_timeout_iff (cfg : Config) (body : Option Json) {events : List Event}
    {w : World} {h : Nat} {reply : Reply}
    (reached : Transition.run World.step {} events = some w)
    (answered : w.handlers[h]? =
      some ⟨(Post.start body).request cfg, .answered reply⟩)
    (accepted : reply.status = 202) :
    Launched w.threads h ∧
    ∀ (k : Nat) (thread : Thread), w.threads[k]? = some thread → thread.owner = h →
      ((0 < thread.job.timeoutMs ∧ thread.job.timeoutMs = requestedTimeoutMs cfg body) ↔
        1 ≤ requestedTimeoutMs cfg body ∧ requestedTimeoutMs cfg body ≤ 2147483647) := by
  have replied := World.replied reached
  obtain malformed | started := startJobRequest_cases cfg body
  · -- a refused body is answered 400
    have refused : reply.status = 400 := replied.refusalRoute h _ answered malformed
    omega
  · have request : (Post.start body).request cfg =
        .start (staticCastInt (requestedTimeoutMs cfg body)) := started
    rw [request] at answered
    refine ⟨replied.timed.route h _ answered rfl accepted, ?_⟩
    intro k thread found own
    obtain ⟨hd, there, same⟩ := replied.timed.timeout k thread found
    rw [own, answered] at there
    obtain rfl := Option.some.inj there
    rw [same]
    exact staticCastInt_asked_iff _

/-- The service is initialised and then asked to start a job by this body. -/
def askedRun (cfg : Config) (body : Option Json) (rd : Fin 8 → UInt32) : List Event :=
  initCall 0 ++ [.request ((Post.start body).request cfg), .handler 1] ++ serve ++
    [.handler 1, .handler 1, .handler 1, .draw 1 rd, .handler 1, .handler 1, .handler 1]

/-- A body with this `timeout_ms`. -/
def timeoutBody (n : JsonNumber) : Option Json := some (.object [("timeout_ms", .number n)])

/-- The number `3000`. -/
def threeSeconds : JsonNumber := ⟨.finite 3000, 3000, by decide, 0⟩

/-- The number `4294967297`, one more than `2^32`. -/
def pastUint32 : JsonNumber := ⟨.finite 4294967297, 4294967297, by decide, 0⟩

/-- A timeout of three seconds is passed on. -/
theorem threeSeconds_passed : ∃ w reply,
    Transition.run World.step {} (askedRun {} (timeoutBody threeSeconds) fun _ => 0) = some w ∧
    w.handlers[1]? = some ⟨(Post.start (timeoutBody threeSeconds)).request {},
      .answered reply⟩ ∧ reply.status = 202 ∧
    ∃ thread, w.threads[0]? = some thread ∧ thread.owner = 1 ∧ 0 < thread.job.timeoutMs ∧
      thread.job.timeoutMs = 3000 := by
  obtain ⟨w, reached, reply, answered, accepted, thread, found, own⟩ : ∃ w,
      Transition.run World.step {} (askedRun {} (timeoutBody threeSeconds) fun _ => 0) = some w ∧
      ∃ reply, w.handlers[1]? = some ⟨(Post.start (timeoutBody threeSeconds)).request {},
        .answered reply⟩ ∧ reply.status = 202 ∧
      ∃ thread, w.threads[0]? = some thread ∧ thread.owner = 1 :=
    ⟨_, rfl, _, rfl, rfl, _, rfl, rfl⟩
  have passed := (accepted_timeout_iff {} (timeoutBody threeSeconds) reached answered
    accepted).2 0 thread found own
  exact ⟨w, reply, reached, answered, accepted, thread, found, own, passed.mpr (by decide)⟩

/-- A timeout beyond 32 bits is accepted, and the job runs with what is left of it. -/
theorem pastUint32_cut : ∃ w reply,
    Transition.run World.step {} (askedRun {} (timeoutBody pastUint32) fun _ => 0) = some w ∧
    w.handlers[1]? = some ⟨(Post.start (timeoutBody pastUint32)).request {},
      .answered reply⟩ ∧ reply.status = 202 ∧
    requestedTimeoutMs {} (timeoutBody pastUint32) = 4294967297 ∧
    ∃ thread, w.threads[0]? = some thread ∧ thread.owner = 1 ∧ thread.job.timeoutMs = 1 :=
  ⟨_, _, rfl, rfl, rfl, rfl, _, rfl, rfl, rfl⟩

end World

end QrEdgeGateway
