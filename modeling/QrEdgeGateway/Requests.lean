import QrEdgeGateway.Service

/-!
# Request bodies

The handlers of `POST /command` and `POST /start` validate a JSON body before they touch
anything shared. A body that fails a check becomes the malformed request of the service, which
is answered 400; any other becomes the request it stands for. `main` reads the default timeout
from an option or the environment, as an unsigned 32-bit number, and hands it on as an `int`.

A number is what Crow's accessors return for it. Converting a double outside the range of
`long long` is undefined in C++: the model lets the environment choose the result. An object is
its members in the order in which a lookup meets them.
-/

namespace QrEdgeGateway

/-- A `double`; every finite one is a rational number. -/
inductive Double where
  /-- Not a number. -/
  | nan
  /-- An infinity. -/
  | infinite
  /-- A number. -/
  | finite (value : Rat)
  deriving DecidableEq, Repr

/-- A JSON number. -/
structure JsonNumber where
  /-- `rvalue::d()`. -/
  d : Double
  /-- `rvalue::i()`. -/
  i : Int
  /-- `rvalue::i()` returns an `int64_t`. -/
  inRange : -9223372036854775808 ≤ i ∧ i ≤ 9223372036854775807
  /-- What a conversion of `d` out of the range of `long long` yields. -/
  wild : Int
  deriving DecidableEq, Repr

/-- A JSON value, as far as the handlers look into it. -/
inductive Json where
  /-- `null`, `true`, `false` or an array. -/
  | other
  /-- A number. -/
  | number (n : JsonNumber)
  /-- A string. -/
  | string (s : String)
  /-- An object. -/
  | object (members : List (String × Json))

/-- `body.has(key)` and `body[key]`. -/
def Json.member (key : String) : Json → Option Json
  | .object members => members.lookup key
  | _ => none

/-- `body.t() != crow::json::type::Object` fails. -/
def Json.isObject : Json → Bool
  | .object _ => true
  | _ => false

/-- `static_cast<int>` of an integer: the value modulo `2^32` between `-2^31` and `2^31 - 1`. -/
def staticCastInt (v : Int) : Int := v.bmod 4294967296

/-- `static_cast<long long>(d)` of a number whose `d` is an integer. -/
def JsonNumber.castLongLong (n : JsonNumber) (value : Rat) : Int :=
  if -9223372036854775808 ≤ value.floor ∧ value.floor ≤ 9223372036854775807 then value.floor
  else n.wild

/-- The checks that make a number a strict integer within bounds. -/
def JsonNumber.strictInt (n : JsonNumber) (minv maxv : Int) : Option Int :=
  match n.d with
  | .finite value =>
    if (value.floor : Rat) ≠ value then none
    else
      let v := n.castLongLong value
      if v < minv ∨ v > maxv then none else some v
  | _ => none

/-- `parse_int_field`: the outer `none` is a failed check, the inner one an absent member. -/
def parseIntField (obj : Json) (key : String) (minv maxv : Int) : Option (Option Int) :=
  match obj.member key with
  | none => some none
  | some (.number n) => (n.strictInt minv maxv).map some
  | some _ => none

/-- Largest baudrate taken. -/
def maxBaudrate : Int := 2000000

/-- Largest `params.timeout_ms` taken. -/
def maxTimeoutMs : Int := 3600000

/-- The checks of `params`: the baudrate in it, if any. Its timeout is checked and not used. -/
def parseParams (body : Json) : Option (Option Int) :=
  match body.member "params" with
  | none => some none
  | some p =>
    if p.isObject then do
      let baud ← parseIntField p "baudrate" 1 maxBaudrate
      let _ ← parseIntField p "timeout_ms" 1 maxTimeoutMs
      some baud
    else none

/-- `POST /command`, up to its first shared access. Only `INIT` looks at a baudrate, and one at
the top level comes before one in `params`. -/
def commandRequest (body : Option Json) : Request :=
  match body with
  | none => .malformed
  | some body =>
    if !body.isObject then .malformed
    else match body.member "command" with
      | some (.string cmd) =>
        if cmd = "" then .malformed
        else match parseParams body with
          | none => .malformed
          | some baudFromParams =>
            if toUpperAscii cmd = "INIT" then
              match parseIntField body "baudrate" 1 maxBaudrate with
              | none => .malformed
              | some baud => .command cmd (baud.or baudFromParams)
            else .command cmd none
      | _ => .malformed

/-- `POST /start`, up to its first shared access. -/
def startJobRequest (defaultTimeoutMs : Int) (body : Option Json) : Request :=
  match body with
  | none => .malformed
  | some body =>
    if !body.isObject then .malformed
    else match body.member "timeout_ms" with
      | none => .start defaultTimeoutMs
      | some (.number n) =>
        let timeoutMs := staticCastInt n.i
        if timeoutMs ≤ 0 then .malformed else .start timeoutMs
      | some _ => .malformed

/-- The option of `main` that reaches the handlers. -/
structure Config where
  /-- `timeout_ms`; `CLI::NonNegativeNumber` admits every value of its type. -/
  timeoutMs : UInt32 := 3000
  deriving DecidableEq, Repr

/-- `static_cast<int>(cfg.timeout_ms)`, the `default_timeout_ms_` of the REST adapter. -/
def Config.defaultTimeoutMs (cfg : Config) : Int := staticCastInt cfg.timeoutMs.toNat

/-- A request with a body. -/
inductive Post where
  /-- `POST /command`; `none` is a text that is not JSON. -/
  | command (body : Option Json)
  /-- `POST /start`. -/
  | start (body : Option Json)

/-- The request a body stands for. -/
def Post.request (cfg : Config) : Post → Request
  | .command body => commandRequest body
  | .start body => startJobRequest cfg.defaultTimeoutMs body

/-- A number within its bounds is within its bounds. -/
theorem JsonNumber.strictInt_range {n : JsonNumber} {minv maxv v : Int}
    (parsed : n.strictInt minv maxv = some v) : minv ≤ v ∧ v ≤ maxv := by
  unfold strictInt at parsed
  split at parsed
  · split at parsed
    · contradiction
    · dsimp only at parsed
      split at parsed
      · contradiction
      · obtain rfl := Option.some.inj parsed
        omega
  · contradiction

/-- So is a parsed field. -/
theorem parseIntField_range {obj : Json} {key : String} {minv maxv v : Int}
    (parsed : parseIntField obj key minv maxv = some (some v)) : minv ≤ v ∧ v ≤ maxv := by
  unfold parseIntField at parsed
  split at parsed
  · simp at parsed
  · obtain ⟨found, strict, same⟩ := Option.map_eq_some_iff.mp parsed
    obtain rfl := Option.some.inj same
    exact JsonNumber.strictInt_range strict
  · contradiction

/-- The baudrate of `params` is within its bounds. -/
theorem parseParams_range {body : Json} {baud : Int}
    (parsed : parseParams body = some (some baud)) : 1 ≤ baud ∧ baud ≤ maxBaudrate := by
  unfold parseParams at parsed
  split at parsed
  · simp at parsed
  · split at parsed
    · obtain ⟨first, field, rest⟩ := Option.bind_eq_some_iff.mp parsed
      obtain ⟨_, _, same⟩ := Option.bind_eq_some_iff.mp rest
      obtain rfl := Option.some.inj same
      exact parseIntField_range field
    · contradiction

/-- A baudrate gets through only with `INIT` and within its bounds. -/
theorem commandRequest_baud {body : Option Json} {cmd : String} {baud : Int}
    (parsed : commandRequest body = .command cmd (some baud)) :
    toUpperAscii cmd = "INIT" ∧ 1 ≤ baud ∧ baud ≤ maxBaudrate := by
  unfold commandRequest at parsed
  split at parsed
  · contradiction
  · split at parsed
    · contradiction
    · split at parsed
      · split at parsed
        · contradiction
        · split at parsed
          · contradiction
          · rename_i fromParams params
            split at parsed
            · rename_i init
              split at parsed
              · contradiction
              · rename_i top field
                simp only [Request.command.injEq] at parsed
                obtain ⟨rfl, same⟩ := parsed
                refine ⟨init, ?_⟩
                cases top with
                | none =>
                  obtain rfl : fromParams = some baud := by simpa using same
                  exact parseParams_range params
                | some value =>
                  obtain rfl : value = baud := by simpa using same
                  exact parseIntField_range field
            · simp at parsed
      · contradiction

/-- The timeout a body asks for: its own, or the one configured when it has none. -/
def requestedTimeoutMs (cfg : Config) (body : Option Json) : Int :=
  match body.bind (Json.member "timeout_ms") with
  | some (.number n) => n.i
  | _ => cfg.timeoutMs.toNat

/-- A body that is not refused becomes a start with the cast of what it asks for. -/
theorem startJobRequest_cases (cfg : Config) (body : Option Json) :
    startJobRequest cfg.defaultTimeoutMs body = .malformed ∨
      startJobRequest cfg.defaultTimeoutMs body =
        .start (staticCastInt (requestedTimeoutMs cfg body)) := by
  unfold startJobRequest
  split
  · exact .inl rfl
  · rename_i body
    split
    · exact .inl rfl
    · split
      · rename_i absent
        refine .inr ?_
        simp [requestedTimeoutMs, absent, Config.defaultTimeoutMs]
      · rename_i n present
        dsimp only
        split
        · exact .inl rfl
        · refine .inr ?_
          simp [requestedTimeoutMs, present]
      · exact .inl rfl

/-- A cast changes nothing exactly inside the range of `int`. -/
theorem staticCastInt_eq_iff (v : Int) :
    staticCastInt v = v ↔ -2147483648 ≤ v ∧ v ≤ 2147483647 := by
  unfold staticCastInt
  constructor
  · intro same
    have low := Int.le_bmod (x := v) (m := 4294967296) (by decide)
    have high := Int.bmod_lt (x := v) (m := 4294967296) (by decide)
    omega
  · intro range
    apply Int.bmod_eq_of_le <;> omega

end QrEdgeGateway
