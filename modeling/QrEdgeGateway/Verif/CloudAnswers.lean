import QrEdgeGateway.Messages

/-!
# Every cloud message is answered

A message is either refused at once or handed to a thread, and each of them publishes one final
event with the id of the message; a start that the service accepts is announced first. There are
three ways around the id. `json.loads` may raise on a text that goes beyond the interpreter's
limits, and the `int()` of a start message's `timeout_ms` may raise: the clause that catches them
publishes an error without an id. And `publish_event` may raise, on a text without UTF-8 in the id
or in an answer of the service, or on an event that is too long: that ends the thread, or leads to
the same clause.
-/

namespace QrEdgeGateway

namespace CloudEvent

/-- The event carries an id. -/
def Carries (cmdId : Text) (event : CloudEvent) : Prop := event.lookup "id" = some (.str cmdId)

/-- The event has a type. -/
def Typed (type : String) (event : CloudEvent) : Prop := event.lookup "type" = some (.str type)

/-- The types of the events that end the answer to a message. -/
def finalTypes : List String := ["command_ack", "stop_ack", "job_rejected", "job_result", "error"]

/-- The event ends the answer to a message. -/
def Final (event : CloudEvent) : Prop := ∃ type ∈ finalTypes, Typed type event

variable {cmdId : Text} {event : CloudEvent}

/-- The result of a poll is a `job_result` for the message. -/
theorem jobResult_spec {jobId : Value} {gsc : Nat} {gj : Members}
    (found : jobResult cmdId jobId gsc gj = some event) :
    Carries cmdId event ∧ Typed "job_result" event := by
  unfold jobResult at found
  split at found
  · split at found
    · split at found
      · obtain rfl := Option.some.inj found
        exact ⟨rfl, rfl⟩
      · contradiction
    · contradiction
  · contradiction

end CloudEvent

open CloudEvent

/-- The events answer a message: each carries its id, the last one and no other is final, and a
job is announced before it exactly if one was accepted. -/
def Answers (cmdId : Text) (accepted : Prop) (events : List CloudEvent) : Prop :=
  (∀ event ∈ events, Carries cmdId event) ∧
    ((¬ accepted ∧ ∃ final, Final final ∧ events = [final]) ∨
      (accepted ∧ ∃ announced final, Typed "job_accepted" announced ∧ Final final ∧
        events = [announced, final]))

/-- One final event with the id is an answer when no job was accepted. -/
theorem answers_single {cmdId : Text} {accepted : Prop} {event : CloudEvent}
    (carries : Carries cmdId event) (final : Final event) (refused : ¬ accepted) :
    Answers cmdId accepted [event] :=
  ⟨by simpa using carries, .inl ⟨refused, event, final, rfl⟩⟩

/-- A message leads to these events, if `can` tells the events that can be published: there is
enough fuel for it. -/
def Reaction.LeadsTo (can : CloudEvent → Bool) (pollMax : Int) (around : Surroundings)
    (reaction : Reaction) (events : List CloudEvent) : Prop :=
  ∃ enough, ∀ fuel, enough ≤ fuel → reaction.publishes can pollMax around fuel = some events

section

variable {pollMax : Int} {around : Surroundings} {can : CloudEvent → Bool} {fuel : Nat}
  {made : List CloudEvent}

/-- A message leads to one list of events. -/
theorem Reaction.LeadsTo.unique {reaction : Reaction} {events : List CloudEvent}
    (first : reaction.LeadsTo can pollMax around made)
    (second : reaction.LeadsTo can pollMax around events) : events = made := by
  obtain ⟨few, made⟩ := first
  obtain ⟨many, published⟩ := second
  have same := (made (few + many) (by omega)).symm.trans (published (few + many) (by omega))
  exact (Option.some.inj same).symm

end

/-! ## Messages -/

section

variable (py : Builtins) (startTimeoutMs clockMs : Int) (data : Members)

/-- The message asks for a job, by its type or by its command, and reaches the start. -/
def StartMessage : Prop :=
  messageType py data = "start" ∨
    messageType py data = "command" ∧ messageCommand py data = "START" ∧
      ∃ params, messageParams data = some params ∧ validateParams params = none

/-- What a message comes to: a start goes its way, and every other message is refused with its id
or handed to a thread with its id. -/
theorem onObject_cases :
    (StartMessage py data ∧ onObject py startTimeoutMs clockMs data =
      onStartMessage py startTimeoutMs (makeCmdId py clockMs data) data) ∨
    (¬ StartMessage py data ∧
      ((∃ message, onObject py startTimeoutMs clockMs data =
        .publish (.error (makeCmdId py clockMs data) message)) ∨
      onObject py startTimeoutMs clockMs data =
        .dispatch (.stop (makeCmdId py clockMs data)) ∨
      ∃ cmd params, onObject py startTimeoutMs clockMs data =
        .dispatch (.commandSync (makeCmdId py clockMs data) cmd params))) := by
  unfold onObject StartMessage
  dsimp only
  generalize makeCmdId py clockMs data = cmdId
  by_cases command : messageType py data = "command"
  · have other : ¬ messageType py data = "start" := by
      rw [command]
      decide
    simp only [command, if_true, true_and]
    rw [command] at other
    simp only [other, false_or]
    unfold onCommand
    dsimp only
    split
    · rename_i empty
      exact .inr ⟨by simp [empty], .inl ⟨_, rfl⟩⟩
    · split
      · rename_i bad
        exact .inr ⟨by simp [bad], .inl ⟨_, rfl⟩⟩
      · rename_i params found
        cases checked : validateParams params with
        | some err => exact .inr ⟨by simp [found, checked], .inl ⟨err, rfl⟩⟩
        | none =>
          by_cases start : messageCommand py data = "START"
          · exact .inl ⟨⟨start, params, found, checked⟩, if_pos start⟩
          · simp only [start, if_false, false_and, not_false_eq_true, true_and]
            refine .inr ?_
            split
            · exact .inr (.inl rfl)
            · exact .inr (.inr ⟨_, _, rfl⟩)
  · by_cases start : messageType py data = "start"
    · exact .inl ⟨.inl start, by simp [start]⟩
    · refine .inr ⟨by simp [command, start], ?_⟩
      simp only [command, start, if_false]
      split
      · exact .inr (.inl rfl)
      · exact .inl ⟨_, rfl⟩

/-- The `int()` of a start message raises exactly on a `timeout_ms` that it does not convert. -/
theorem timeout_raises_iff :
    py.int (data.get "timeout_ms" (.int startTimeoutMs)) = none ↔
      ∃ value, data.lookup "timeout_ms" = some value ∧ py.int value = none := by
  unfold Members.get
  cases data.lookup "timeout_ms" with
  | none => simp [Builtins.int]
  | some value => simp

variable (pollMax : Int) (around : Surroundings)

end

/-- Python on plain lower-case ASCII messages: nothing to strip, and no text is a number. -/
def plainPython : Builtins where
  render _ := ""
  strip := id
  lower := id
  upper
    | .unicode s => Core.upper s
    | text => text
  intOfStr _ := none
  loads _ := true
  takes _ := true
  takesInternal := rfl

/-- The message of a start with an id and a `timeout_ms`. -/
def startMessage (timeoutMs : Value) : Members :=
  [("type", .str "start"), ("id", .str "demo-2"), ("timeout_ms", timeoutMs)]

/-- The message of a stop with an id. -/
def stopMessage (id : Text) : Members := [("type", .str "stop"), ("id", .str id)]

end QrEdgeGateway
