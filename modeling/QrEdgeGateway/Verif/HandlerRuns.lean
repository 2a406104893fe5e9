import Mathlib.Data.List.GetD
import QrEdgeGateway.Verif.CloudAnswers

/-!
# The polling call is the handler

`handle_start_and_poll` is described twice: as a function of all it will meet, which answers a
message, and as the call that moves beside the service, one request at a time. A run of the call
tells what it has met: how its first request came out, what the clock showed and how each poll came
out. A call that returns has published what the function publishes for that.
-/

namespace QrEdgeGateway

/-! ## What a call meets -/

/-- What a call has met so far. -/
structure Met where
  /-- The outcome of its first request. -/
  post : HttpOutcome := .raised
  /-- The clock when the deadline was set. -/
  dated : Int := 0
  /-- The clock at the head of the loop, round by round. -/
  clock : List Int := []
  /-- The outcomes of the polls. -/
  polls : List HttpOutcome := []

/-- The surroundings of the handler that has met this. -/
def Met.around (met : Met) : Surroundings where
  post := met.post
  dated := met.dated
  now k := met.clock.getD k 0
  polls k := met.polls.getD k .raised

namespace Bridge

variable (text : Bytes → String)

/-- The answer of a handler, as the gateway reads it. -/
def answer (b : Bridge) (readable : Bool) (h : Nat) : HttpOutcome :=
  match b.reply h with
  | some reply => .answered reply.status (some ((safeJson readable reply).members text))
  | none => .raised

/-- What a call has met behind one more event. -/
def meets (b : Bridge) (met : Met) (event : BridgeEvent) : Met :=
  match event, b.call.pc with
  | .lose, .posting => { met with post := .raised }
  | .lose, .starting _ => { met with post := .raised }
  | .lose, _ => { met with polls := met.polls ++ [.raised] }
  | .receive readable, .starting h => { met with post := b.answer text readable h }
  | .receive readable, .waiting _ _ h =>
    { met with polls := met.polls ++ [b.answer text readable h] }
  | .time now, .dating _ => { met with dated := now }
  | .time now, .head _ _ => { met with clock := met.clock ++ [now] }
  | _, _ => met

/-- What a call has met behind a run. -/
def metAlong (b : Bridge) (met : Met) : List BridgeEvent → Met
  | [] => met
  | event :: rest =>
    match b.step event with
    | some next => next.metAlong (b.meets text met event) rest
    | none => met

end Bridge

/-! ## Rounds of the loop -/

section

variable {cmdId : Text} {jobId : Value} {deadline : Int} {around : Surroundings} {rounds : Nat}

/-- So many rounds of the loop found time left and no end of the job. -/
def Rounds (cmdId : Text) (jobId : Value) (deadline : Int) (around : Surroundings)
    (rounds : Nat) : Prop :=
  ∀ k < rounds, around.now k < deadline ∧
    CloudEvent.jobResult cmdId jobId (around.polls k).result.1 (around.polls k).result.2 = none

/-- One more round that found time left and no end. -/
theorem Rounds.succ (before : Rounds cmdId jobId deadline around rounds)
    (early : around.now rounds < deadline)
    (unended : CloudEvent.jobResult cmdId jobId (around.polls rounds).result.1
      (around.polls rounds).result.2 = none) :
    Rounds cmdId jobId deadline around (rounds + 1) := by
  intro k inside
  obtain less | rfl := Nat.lt_succ_iff_lt_or_eq.mp inside
  · exact before k less
  · exact ⟨early, unended⟩

/-- The loop goes through them to the next one. -/
theorem pollLoop_rounds (before : Rounds cmdId jobId deadline around rounds) (fuel : Nat) :
    pollLoop cmdId jobId deadline around (rounds + fuel) 0 =
      pollLoop cmdId jobId deadline around fuel rounds := by
  induction rounds generalizing fuel with
  | zero => rw [Nat.zero_add]
  | succ rounds ih =>
    obtain ⟨early, unended⟩ := before rounds (Nat.lt_succ_self rounds)
    have first := ih (fun k inside => before k (Nat.lt_succ_of_lt inside)) (fuel + 1)
    rw [Nat.add_right_comm, Nat.add_assoc, first, pollLoop, if_pos early]
    simp only [unended]

end

namespace Met

variable {met : Met} {cmdId : Text} {jobId : Value} {deadline now : Int} {outcome : HttpOutcome}
  {rounds : Nat}

/-- Rounds stay what they were when the clock is read again. -/
theorem rounds_clock (before : Rounds cmdId jobId deadline met.around rounds)
    (read : rounds ≤ met.clock.length) :
    Rounds cmdId jobId deadline { met with clock := met.clock ++ [now] }.around rounds := by
  intro k inside
  obtain ⟨early, unended⟩ := before k inside
  refine ⟨?_, unended⟩
  show (met.clock ++ [now]).getD k 0 < deadline
  rw [List.getD_append _ _ _ _ (Nat.lt_of_lt_of_le inside read)]
  exact early

/-- So do they when another poll comes out. -/
theorem rounds_polls (before : Rounds cmdId jobId deadline met.around rounds)
    (polled : rounds ≤ met.polls.length) :
    Rounds cmdId jobId deadline { met with polls := met.polls ++ [outcome] }.around rounds := by
  intro k inside
  obtain ⟨early, unended⟩ := before k inside
  refine ⟨early, ?_⟩
  have same : (met.polls ++ [outcome]).getD k .raised = met.polls.getD k .raised :=
    List.getD_append _ _ _ _ (Nat.lt_of_lt_of_le inside polled)
  show CloudEvent.jobResult cmdId jobId ((met.polls ++ [outcome]).getD k .raised).result.1
    ((met.polls ++ [outcome]).getD k .raised).result.2 = none
  rw [same]
  exact unended

/-- The clock of the round is the one read last. -/
theorem now_last : ({ met with clock := met.clock ++ [now] } : Met).around.now met.clock.length =
    now := by
  show (met.clock ++ [now]).getD met.clock.length 0 = now
  simp

/-- The poll of the round is the one that came out last. -/
theorem polls_last :
    ({ met with polls := met.polls ++ [outcome] } : Met).around.polls met.polls.length =
      outcome := by
  show (met.polls ++ [outcome]).getD met.polls.length .raised = outcome
  simp

end Met

/-! ## The call follows the handler -/

namespace StartAndPoll

variable (text : Bytes → String)

/-- The job was accepted and announced, and the call has published no more. -/
structure Accepted (call : StartAndPoll) (met : Met) (jobId : String) : Prop where
  /-- The service answered 202. -/
  code : met.post.result.1 = 202
  /-- It named the job. -/
  named : met.post.result.2.get "jobId" (.str "") = .str jobId
  /-- The job is announced. -/
  events : call.cloudEvents text = [.jobAccepted call.id 202 met.post.result.2]

/-- The call is in its loop, with every poll so far behind a reading of the clock. -/
structure Looping (call : StartAndPoll) (met : Met) (jobId : String) (deadline : Int) : Prop where
  /-- Its job was accepted. -/
  accepted : call.Accepted text met jobId
  /-- Its deadline is set. -/
  due : deadline = met.dated + call.pollMax
  /-- Its polls found the job unfinished. -/
  rounds : Rounds call.id (.str jobId) deadline met.around met.polls.length

/-- The call leads to these events with what it has met. -/
def Ends (call : StartAndPoll) (met : Met) (events : List CloudEvent) : Prop :=
  (Reaction.dispatch (.startAndPoll call.id call.timeoutMs)).LeadsTo (fun _ => true) call.pollMax
    met.around events

/-- The call is where the handler is that has met the same. -/
def Follows (call : StartAndPoll) (met : Met) : Prop :=
  match call.pc with
  | .posting => call.published = [] ∧ met.clock = [] ∧ met.polls = []
  | .starting _ => call.published = [] ∧ met.clock = [] ∧ met.polls = []
  | .dating jobId => call.Accepted text met jobId ∧ met.clock = [] ∧ met.polls = []
  | .head jobId deadline =>
    call.Looping text met jobId deadline ∧ met.clock.length = met.polls.length
  | .getting jobId deadline =>
    call.Looping text met jobId deadline ∧ met.clock.length = met.polls.length + 1 ∧
      met.around.now met.polls.length < deadline
  | .waiting jobId deadline _ =>
    call.Looping text met jobId deadline ∧ met.clock.length = met.polls.length + 1 ∧
      met.around.now met.polls.length < deadline
  | .returned => call.Ends met (call.cloudEvents text)

variable {text} {call : StartAndPoll} {met : Met} {jobId : String} {deadline : Int}

/-- A job stays accepted wherever the call is and whatever it meets later. -/
theorem Accepted.go (accepted : call.Accepted text met jobId) (pc : PollPc) {later : Met}
    (same : later.post = met.post) : { call with pc }.Accepted text later jobId := by
  obtain ⟨code, named, events⟩ := accepted
  rw [← same] at code named events
  exact ⟨code, named, events⟩

/-- A call in its loop is in it wherever it is. -/
theorem Looping.go (looping : call.Looping text met jobId deadline) (pc : PollPc) :
    { call with pc }.Looping text met jobId deadline :=
  ⟨looping.accepted.go pc rfl, looping.due, looping.rounds⟩

/-- A loop that ends in some round ends the call with its event. -/
theorem Accepted.ends {event : CloudEvent} {rounds : Nat}
    (accepted : call.Accepted text met jobId) (due : deadline = met.dated + call.pollMax)
    (before : Rounds call.id (.str jobId) deadline met.around rounds)
    (last : ∀ fuel, pollLoop call.id (.str jobId) deadline met.around (fuel + 1) rounds =
      some event) : call.Ends met (call.cloudEvents text ++ [event]) := by
  obtain ⟨code, named, events⟩ := accepted
  refine ⟨rounds + 1, fun fuel enough => ?_⟩
  obtain ⟨more, rfl⟩ := Nat.exists_eq_add_of_le enough
  have loop : pollLoop call.id (.str jobId) deadline met.around (rounds + 1 + more) 0 =
      some event := by
    rw [Nat.add_assoc, pollLoop_rounds before, Nat.add_comm 1 more]
    exact last more
  have post : met.around.post = met.post := rfl
  have dated : met.around.dated + call.pollMax = deadline := due.symm
  simp only [Reaction.publishes, CloudHandler.publishes, post, code, named, dated, loop, ne_eq,
    not_true_eq_false, if_false, if_true, Option.map_some, events]
  rfl

/-- `http_post` has returned: the call ends with a rejection or has its job accepted. -/
theorem Follows.onStart {outcome : HttpOutcome} {sc : Nat} {j : Body} (silent : call.published = [])
    (fresh : met.clock = [] ∧ met.polls = []) (code : outcome.result.1 = sc)
    (rejects : CloudEvent.jobRejected call.id sc outcome.result.2 =
      .jobRejected call.id sc (j.members text))
    (accepts : sc = 202 → outcome.result.2 = j.members text) :
    (call.onStart sc j).Follows text { met with post := outcome } := by
  have events := call.cloudEvents_onStart text sc j
  rw [show call.cloudEvents text = [] by simp [cloudEvents, silent], List.nil_append] at events
  have id := (call.args_onStart sc j).1
  by_cases accepted : sc = 202
  · have same := accepts accepted
    have onward : (call.onStart sc j).pc = .dating (j.jobId.getD "") := by
      simp [StartAndPoll.onStart, accepted, publish]
    rw [Follows, onward]
    refine ⟨⟨code.trans accepted, ?_, ?_⟩, fresh⟩
    · show outcome.result.2.get "jobId" (.str "") = .str (j.jobId.getD "")
      rw [same, Members.get, (j.lookup_members text).2.1]
      cases j.jobId <;> rfl
    · rw [events, id, if_neg (by simpa using accepted), accepted, ← same]
  · have ends : (call.onStart sc j).pc = .returned := by
      simp [StartAndPoll.onStart, accepted, publish]
    rw [Follows, ends]
    refine ⟨0, fun fuel _ => ?_⟩
    have post : ({ met with post := outcome } : Met).around.post = outcome := rfl
    simp only [Reaction.publishes, CloudHandler.publishes, post, code, events, id]
    rw [if_pos accepted, if_pos accepted, rejects]
    rfl

/-- `http_get` has returned: the call ends with a result or goes round its loop. -/
theorem Follows.onPoll {outcome : HttpOutcome} {gsc : Nat} {gj : Body}
    (looping : call.Looping text met jobId deadline)
    (read : met.clock.length = met.polls.length + 1)
    (early : met.around.now met.polls.length < deadline)
    (heard : CloudEvent.jobResult call.id (.str jobId) outcome.result.1 outcome.result.2 =
      CloudEvent.jobResult call.id (.str jobId) gsc (gj.members text)) :
    (call.onPoll jobId deadline gsc gj).Follows text
      { met with polls := met.polls ++ [outcome] } := by
  have events := call.cloudEvents_onPoll text jobId deadline gsc gj
  obtain ⟨accepted, due, rounds⟩ := looping
  have before : Rounds call.id (.str jobId) deadline
      { met with polls := met.polls ++ [outcome] }.around met.polls.length :=
    Met.rounds_polls rounds (Nat.le_refl _)
  have last := @Met.polls_last met outcome
  obtain same | ⟨status, -, -, -, same⟩ := call.onPoll_cases jobId deadline gsc gj
  · rw [same] at events ⊢
    have unended : CloudEvent.jobResult call.id (.str jobId) gsc (gj.members text) = none := by
      have nothing :
          (CloudEvent.jobResult call.id (.str jobId) gsc (gj.members text)).toList = [] :=
        List.append_right_eq_self.mp events.symm
      simpa using nothing
    refine ⟨⟨accepted.go _ rfl, due, ?_⟩, by simpa using read⟩
    rw [show ({ met with polls := met.polls ++ [outcome] } : Met).polls.length =
      met.polls.length + 1 by simp]
    exact before.succ early (by rw [last, heard, unended])
  · rw [same, cloudEvents_publish] at events
    obtain ⟨event, told⟩ : ∃ event,
        CloudEvent.jobResult call.id (.str jobId) gsc (gj.members text) = some event := by
      cases result : CloudEvent.jobResult call.id (.str jobId) gsc (gj.members text) with
      | none => simp [result] at events
      | some event => exact ⟨event, rfl⟩
    have ended : call.Ends { met with polls := met.polls ++ [outcome] }
        (call.cloudEvents text ++ [event]) := by
      refine Accepted.ends (accepted.go call.pc rfl) due before fun fuel => ?_
      have now : ({ met with polls := met.polls ++ [outcome] } : Met).around.now
        met.polls.length < deadline := early
      simp only [pollLoop, now, if_true, last, heard, told]
    rw [told, Option.toList_some] at events
    rw [same]
    show call.Ends _ ((call.publish _ .returned).cloudEvents text)
    rw [cloudEvents_publish, events]
    exact ended

/-- At the loop condition the call goes on to a poll or ends with its own timeout. -/
theorem Follows.onTime {now : Int} (looping : call.Looping text met jobId deadline)
    (read : met.clock.length = met.polls.length) :
    (call.onTime jobId deadline now).Follows text { met with clock := met.clock ++ [now] } := by
  have events := call.cloudEvents_onTime text jobId deadline now
  obtain ⟨accepted, due, rounds⟩ := looping
  have before : Rounds call.id (.str jobId) deadline
      { met with clock := met.clock ++ [now] }.around met.polls.length :=
    Met.rounds_clock rounds (Nat.le_of_eq read.symm)
  have last : ({ met with clock := met.clock ++ [now] } : Met).around.now met.polls.length =
      now := by
    rw [← read]
    exact Met.now_last
  by_cases early : now < deadline
  · rw [StartAndPoll.onTime, if_pos early]
    refine ⟨⟨accepted.go _ rfl, due, before⟩, ?_, ?_⟩
    · simp [read]
    · rw [last]
      exact early
  · rw [if_neg early] at events
    have ended : call.Ends { met with clock := met.clock ++ [now] }
        (call.cloudEvents text ++ [.pollTimeout call.id (.str jobId)]) := by
      refine Accepted.ends (accepted.go call.pc rfl) due before fun fuel => ?_
      rw [pollLoop, last, if_neg early]
    rw [← events] at ended
    rw [StartAndPoll.onTime, if_neg early] at ended ⊢
    exact ended

end StartAndPoll

/-! ## Runs -/

namespace Bridge

variable {text : Bytes → String} {b next : Bridge} {met : Met} {event : BridgeEvent}
  {events : List BridgeEvent}

/-- The answer of a handler that has answered. -/
theorem answer_found {h : Nat} {request : Request} {reply : Reply} (readable : Bool)
    (found : b.world.handlers[h]? = some ⟨request, .answered reply⟩) :
    b.answer text readable h =
      .answered reply.status (some ((safeJson readable reply).members text)) := by
  simp [answer, Bridge.reply, found]

/-- Every step leads the call to where the handler is. -/
theorem follows_step (follows : b.call.Follows text met) (taken : b.step event = some next) :
    next.call.Follows text (b.meets text met event) := by
  unfold StartAndPoll.Follows at follows
  cases step_move taken with
  | service moved => exact follows
  | post here moved =>
    rw [here] at follows
    exact follows
  | get here moved =>
    rw [here] at follows
    exact ⟨follows.1.go _, follows.2⟩
  | loseStart here =>
    obtain ⟨silent, fresh⟩ : b.call.published = [] ∧ met.clock = [] ∧ met.polls = [] := by
      obtain here | ⟨h, here⟩ := here <;> rwa [here] at follows
    have lost : b.meets text met .lose = { met with post := .raised } := by
      obtain here | ⟨h, here⟩ := here <;> simp only [meets, here]
    rw [lost]
    exact @StartAndPoll.Follows.onStart text b.call met .raised httpFailure.1 httpFailure.2 silent
      fresh rfl rfl fun impossible => absurd impossible (by decide)
  | answerStart readable here found =>
    rw [here] at follows
    obtain ⟨silent, fresh⟩ := follows
    simp only [meets, here, answer_found readable found]
    exact StartAndPoll.Follows.onStart silent fresh rfl rfl fun _ => rfl
  | @losePoll jobId deadline here =>
    obtain ⟨looping, read, early⟩ : b.call.Looping text met jobId deadline ∧
        met.clock.length = met.polls.length + 1 ∧
        met.around.now met.polls.length < deadline := by
      obtain here | ⟨h, here⟩ := here <;> rwa [here] at follows
    have lost : b.meets text met .lose = { met with polls := met.polls ++ [.raised] } := by
      obtain here | ⟨h, here⟩ := here <;> simp only [meets, here]
    rw [lost]
    exact @StartAndPoll.Follows.onPoll text b.call met jobId deadline .raised httpFailure.1
      httpFailure.2 looping read early rfl
  | answerPoll readable here found =>
    rw [here] at follows
    obtain ⟨looping, read, early⟩ := follows
    simp only [meets, here, answer_found readable found]
    exact StartAndPoll.Follows.onPoll looping read early rfl
  | date now here =>
    rw [here] at follows
    obtain ⟨accepted, clock, polls⟩ := follows
    simp only [meets, here]
    refine ⟨⟨accepted.go _ rfl, rfl, ?_⟩, by simp [clock, polls]⟩
    intro k inside
    simp [polls] at inside
  | check now here =>
    rw [here] at follows
    obtain ⟨looping, read⟩ := follows
    simp only [meets, here]
    exact StartAndPoll.Follows.onTime looping read

/-- So does every run. -/
theorem follows_run (follows : b.call.Follows text met)
    (reached : Transition.run Bridge.step b events = some next) :
    next.call.Follows text (b.metAlong text met events) := by
  induction events generalizing b met with
  | nil =>
    obtain rfl := Option.some.inj reached
    exact follows
  | cons event rest ih =>
    obtain ⟨middle, taken, onward⟩ := Transition.run_cons.mp reached
    simp only [metAlong, taken]
    exact ih (follows_step follows taken) onward

/-- Every run keeps the arguments of the call. -/
theorem args_run (reached : Transition.run Bridge.step b events = some next) :
    next.call.id = b.call.id ∧ next.call.timeoutMs = b.call.timeoutMs ∧
      next.call.pollMax = b.call.pollMax := by
  refine Transition.run_stable (fun later : Bridge => later.call.id = b.call.id ∧
    later.call.timeoutMs = b.call.timeoutMs ∧ later.call.pollMax = b.call.pollMax) ?_
    ⟨rfl, rfl, rfl⟩ reached
  intro state event next held taken
  obtain ⟨id, timeoutMs, pollMax⟩ := args_step taken
  exact ⟨id.trans held.1, timeoutMs.trans held.2.1, pollMax.trans held.2.2⟩

/-- What a call of `handle_start_and_poll` has published when it returns, in any run beside the
service, is what the handler publishes that meets the same answers and the same clock. -/
theorem returned_publishes (text : Bytes → String) {id : Text} {timeoutMs pollMax : Int}
    (reached : Transition.run Bridge.step (start id timeoutMs pollMax) events = some b)
    (returned : b.call.pc = .returned) :
    (Reaction.dispatch (.startAndPoll id timeoutMs)).LeadsTo (fun _ => true) pollMax
      ((start id timeoutMs pollMax).metAlong text {} events).around (b.call.cloudEvents text) := by
  have begins : (start id timeoutMs pollMax).call.Follows text {} := ⟨rfl, rfl, rfl⟩
  have ends := follows_run begins reached
  have args := args_run reached
  rw [StartAndPoll.Follows, returned] at ends
  simp only [StartAndPoll.Ends, args] at ends
  exact ends

end Bridge

end QrEdgeGateway
