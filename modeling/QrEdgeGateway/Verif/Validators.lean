import QrEdgeGateway.Messages

/-!
# Two validators of `params`

The gateway checks the `params` of a command before it forwards them, by a comment aligned with
the service, and the service checks them again. Python and C++ do not agree on what an integer
is: `True` is one in Python, `9600.0` is one in C++; and the service has an upper bound of its
own for the timeout. This module says for which objects the two come to the same verdict, whatever
C++ makes of a number that no `long long` holds.
-/

namespace QrEdgeGateway

/-- The range of `long long`. -/
def LongLong (n : Int) : Prop := -9223372036854775808 ≤ n ∧ n ≤ 9223372036854775807

instance (n : Int) : Decidable (LongLong n) :=
  inferInstanceAs (Decidable (-9223372036854775808 ≤ n ∧ n ≤ 9223372036854775807))

/-- A member that both sides take: it is absent, or an integer within the service's bounds. -/
def PlainField (maxv : Int) : Option Value → Prop
  | none => True
  | some (.int n) => 1 ≤ n ∧ n ≤ maxv
  | some _ => False

/-- A member that the gateway refuses: an integer not taken, `False`, or a value that is not an
integer in Python. -/
def GatewayRefuses (taken : Int → Prop) : Option Value → Prop
  | none => False
  | some (.int n) => ¬ taken n
  | some (.bool b) => b = false
  | some _ => True

/-- A member that the service refuses: a value that is no number, a number with a fraction, or an
integer out of bounds that a `long long` holds. -/
def ServiceRefuses (maxv : Int) : Option Value → Prop
  | none => False
  | some (.int n) => LongLong n ∧ ¬ (1 ≤ n ∧ n ≤ maxv)
  | some (.float (.finite value)) => (value.floor : Rat) ≠ value ∨
      LongLong value.floor ∧ ¬ (1 ≤ value.floor ∧ value.floor ≤ maxv)
  | some _ => True

/-- The gateway's check of one member. -/
theorem validateField_eq_none {params : Members} {key : Text} {outside : Int → Bool}
    {taken : Int → Prop} (bounds : ∀ n, outside n = true ↔ ¬ taken n) (one : taken 1)
    (zero : ¬ taken 0) :
    validateField params key outside = none ↔ ¬ GatewayRefuses taken (params.lookup key) := by
  unfold validateField
  cases params.lookup key with
  | none => simp [GatewayRefuses]
  | some value =>
    cases value with
    | int n => simp [GatewayRefuses, Value.asInt, bounds]
    | bool b =>
      cases b
      · simp [GatewayRefuses, Value.asInt, bounds, zero]
      · simp [GatewayRefuses, Value.asInt, bounds, one]
    | _ => simp [GatewayRefuses, Value.asInt]

/-- The gateway's verdict on an object. -/
theorem validateParams_eq_none (params : Members) :
    validateParams (some params) = none ↔
      ¬ GatewayRefuses (fun n => 1 ≤ n ∧ n ≤ maxBaudrate) (params.lookup "baudrate") ∧
      ¬ GatewayRefuses (fun n => 1 ≤ n) (params.lookup "timeout_ms") := by
  have baud := @validateField_eq_none params "baudrate"
    (fun br => br < baudMin ∨ br > baudMax) (fun n => 1 ≤ n ∧ n ≤ maxBaudrate)
    (by intro n; simp [baudMin, baudMax, maxBaudrate]; omega) (by decide) (by decide)
  have timeout := @validateField_eq_none params "timeout_ms" (fun tmo => tmo ≤ 0)
    (fun n => 1 ≤ n) (by intro n; simp; omega) (by decide) (by decide)
  rw [validateParams, Option.or_eq_none_iff, baud, timeout]

/-- The service's check of a number: a fraction fails it, and so does an integer out of bounds,
which is the number itself only in the range of `long long`. -/
theorem strictInt_eq_none (crow : CrowReading) (value : Rat) (maxv : Int) :
    (crow.read (.finite value)).strictInt 1 maxv = none ↔
      (value.floor : Rat) ≠ value ∨
      ¬ (1 ≤ (if LongLong value.floor then value.floor else crow.wild (.finite value)) ∧
        (if LongLong value.floor then value.floor else crow.wild (.finite value)) ≤ maxv) := by
  have checks : (crow.read (.finite value)).strictInt 1 maxv =
      if (value.floor : Rat) ≠ value then none
      else if (if LongLong value.floor then value.floor else crow.wild (.finite value)) < 1 ∨
          (if LongLong value.floor then value.floor else crow.wild (.finite value)) > maxv then none
      else some (if LongLong value.floor then value.floor else crow.wild (.finite value)) := rfl
  rw [checks]
  generalize (if LongLong value.floor then value.floor else crow.wild (.finite value)) = v
  by_cases fraction : (value.floor : Rat) ≠ value
  · simp [fraction]
  · rw [if_neg fraction]
    by_cases outside : v < 1 ∨ v > maxv
    · simp only [outside, if_true, true_iff]
      omega
    · simp only [outside, if_false, reduceCtorEq, false_iff, fraction, false_or, not_not]
      omega

/-- The check of an integer. -/
theorem strictInt_int (crow : CrowReading) (n maxv : Int) :
    (crow.read (.finite n)).strictInt 1 maxv = none ↔
      ¬ (1 ≤ (if LongLong n then n else crow.wild (.finite n)) ∧
        (if LongLong n then n else crow.wild (.finite n)) ≤ maxv) := by
  have checked := strictInt_eq_none crow n maxv
  simpa only [Rat.floor_intCast, ne_eq, not_true_eq_false, false_or] using checked

/-- The service's check of one member of the forwarded object. -/
def serviceField (crow : CrowReading) (maxv : Int) (member : Option Value) : Option (Option Int) :=
  match member with
  | none => some none
  | some value =>
    match value.toJson crow with
    | .number n => (n.strictInt 1 maxv).map some
    | _ => none

/-- It is what `parse_int_field` returns. -/
theorem parseIntField_toJson (crow : CrowReading) (params : Members) {key : String}
    (plain : Text.ascii key = true) (maxv : Int) :
    parseIntField ((Value.dict params).toJson crow) key 1 maxv =
      serviceField crow maxv (params.lookup key) := by
  have found : ((Value.dict params).toJson crow).member key =
      (params.lookup key).map fun value => value.toJson crow := by
    rw [Value.toJson, Json.member, lookup_membersToJson crow params plain]
  unfold parseIntField serviceField
  rw [found]
  cases params.lookup key with
  | none => rfl
  | some value =>
    cases parsed : value.toJson crow <;> simp [parsed]

/-- The service's verdict on an object that the gateway forwards. -/
theorem commandRequest_forwarded (crow : CrowReading) (cmdId : Text) {cmd : Text}
    (named : cmd ≠ "") (params : Members) :
    commandRequest (some ((CloudHandler.commandSync cmdId cmd (some params)).forwarded crow)) ≠
        .malformed ↔
      serviceField crow maxBaudrate (params.lookup "baudrate") ≠ none ∧
      serviceField crow maxTimeoutMs (params.lookup "timeout_ms") ≠ none := by
  have members : (CloudHandler.commandSync cmdId cmd (some params)).forwarded crow =
      .object [("command", .string (crow.spell cmd)),
        ("params", (Value.dict params).toJson crow)] := by
    have command : crow.spell "command" = "command" := crow.plain _ (by decide)
    have inner : crow.spell "params" = "params" := crow.plain _ (by decide)
    simp [CloudHandler.forwarded, CloudHandler.request, commandBody, Members.optional,
      Value.toJson, membersToJson, command, inner]
  have text : crow.spell cmd ≠ "" := mt (crow.spell_eq_iff cmd (by decide)).mp named
  have object : ((Value.dict params).toJson crow).isObject = true := by
    rw [Value.toJson, Json.isObject]
  rw [members, ← parseIntField_toJson crow params (by decide),
    ← parseIntField_toJson crow params (by decide)]
  generalize (Value.dict params).toJson crow = p at object ⊢
  generalize crow.spell cmd = spelt at text ⊢
  have command : (Json.object [("command", .string spelt), ("params", p)]).member "command" =
      some (.string spelt) := by simp [Json.member]
  have inner : (Json.object [("command", .string spelt), ("params", p)]).member "params" =
      some p := by simp [Json.member, List.lookup_cons]
  have top : parseIntField (Json.object [("command", .string spelt), ("params", p)]) "baudrate" 1
      maxBaudrate = some none := by simp [parseIntField, Json.member, List.lookup_cons]
  have outer : (Json.object [("command", .string spelt), ("params", p)]).isObject = true := rfl
  unfold commandRequest parseParams
  simp only [outer, command, inner, top, object, text, Bool.not_true, Bool.false_eq_true,
    if_false, if_true]
  cases parseIntField p "baudrate" 1 maxBaudrate with
  | none => simp
  | some baud =>
    cases parseIntField p "timeout_ms" 1 maxTimeoutMs with
    | none => simp
    | some _ =>
      simp only [Option.bind_eq_bind, Option.bind_some]
      split <;> simp

variable {maxv : Int} {member : Option Value}

/-- The service takes a plain member. -/
theorem serviceField_plain (crow : CrowReading) (small : maxv ≤ 3600000)
    (plain : PlainField maxv member) : serviceField crow maxv member ≠ none := by
  match member, plain with
  | none, _ => simp [serviceField]
  | some (.int n), within =>
    unfold PlainField at within
    have held : LongLong n := by
      unfold LongLong
      omega
    simp [serviceField, Value.toJson, strictInt_int, held, within]

/-- The service refuses what it is said to refuse, whatever an undefined conversion yields. -/
theorem serviceField_refused (crow : CrowReading) (refused : ServiceRefuses maxv member) :
    serviceField crow maxv member = none := by
  match member, refused with
  | some (.int n), ⟨held, out⟩ =>
    simp only [serviceField, Value.toJson, Option.map_eq_none_iff, strictInt_int, held, if_true]
    exact out
  | some (.float (.finite value)), refused =>
    simp only [serviceField, Value.toJson, Option.map_eq_none_iff, strictInt_eq_none]
    rcases refused with fraction | ⟨held, out⟩
    · exact .inl fraction
    · simp only [held, if_true]
      exact .inr out
  | some (.float .nan), _ => rfl
  | some (.float .infinite), _ => rfl
  | some .none, _ => rfl
  | some (.bool _), _ => rfl
  | some (.str _), _ => rfl
  | some (.list _), _ => rfl
  | some (.dict _), _ => rfl

/-- And nothing else, if an undefined conversion yields a value within bounds. -/
theorem refused_of_serviceField {crow : CrowReading} (room : 1 ≤ maxv)
    (lucky : ∀ d, crow.wild d = 1) (fails : serviceField crow maxv member = none) :
    ServiceRefuses maxv member := by
  match member, fails with
  | some (.int n), fails =>
    simp only [serviceField, Value.toJson, Option.map_eq_none_iff, strictInt_int, lucky] at fails
    by_cases held : LongLong n
    · simp only [held, if_true] at fails
      exact ⟨held, fails⟩
    · simp only [held, if_false, le_refl, room, and_self, not_true_eq_false] at fails
  | some (.float (.finite value)), fails =>
    simp only [serviceField, Value.toJson, Option.map_eq_none_iff, strictInt_eq_none,
      lucky] at fails
    by_cases held : LongLong value.floor
    · simp only [held, if_true] at fails
      exact fails.imp_right fun out => ⟨held, out⟩
    · simp only [held, if_false, le_refl, room, and_self, not_true_eq_false, or_false] at fails
      exact .inl fails
  | some (.float .nan), _ => trivial
  | some (.float .infinite), _ => trivial
  | some .none, _ => trivial
  | some (.bool _), _ => trivial
  | some (.str _), _ => trivial
  | some (.list _), _ => trivial
  | some (.dict _), _ => trivial

/-- What the gateway takes and the service takes, if an undefined conversion yields a value out
of bounds, is plain. -/
theorem plain_of_taken {crow : CrowReading} {taken : Int → Prop} (unlucky : ∀ d, crow.wild d = 0)
    (accepted : ¬ GatewayRefuses taken member) (takes : serviceField crow maxv member ≠ none) :
    PlainField maxv member := by
  match member, accepted, takes with
  | none, _, _ => trivial
  | some (.int n), _, takes =>
    simp only [serviceField, Value.toJson, ne_eq, Option.map_eq_none_iff, strictInt_int, unlucky,
      not_not] at takes
    by_cases held : LongLong n
    · simp only [held, if_true] at takes
      exact takes
    · simp [held] at takes
  | some (.bool _), _, takes => exact absurd rfl takes
  | some (.float _), accepted, _ => exact absurd trivial accepted
  | some .none, accepted, _ => exact absurd trivial accepted
  | some (.str _), accepted, _ => exact absurd trivial accepted
  | some (.list _), accepted, _ => exact absurd trivial accepted
  | some (.dict _), accepted, _ => exact absurd trivial accepted

/-- The gateway takes a plain member. -/
theorem not_gatewayRefuses_of_plain {taken : Int → Prop}
    (wider : ∀ n, 1 ≤ n ∧ n ≤ maxv → taken n) (plain : PlainField maxv member) :
    ¬ GatewayRefuses taken member := by
  match member, plain with
  | none, _ => exact id
  | some (.int n), within => exact not_not.mpr (wider n within)

/-- Crow with a given result of every undefined conversion, and with strings as they are. -/
def CrowReading.yielding (wild : Int) : CrowReading where
  i _ := 0
  inRange _ := ⟨by decide, by decide⟩
  wild _ := wild
  spell
    | .unicode s => s
    | .lone _ => "\uFFFD"
  plain _ _ := rfl
  foreign text other := by
    cases text with
    | unicode s => exact other
    | lone text =>
      show Text.ascii ("\uFFFD" : String) = false
      decide

/-- The gateway's verdict on `params` and the service's on the same object are the same, whatever
an undefined conversion yields, exactly if both members are plain, or each side has a member it
refuses. -/
theorem validators_agree_iff (params : Members) (cmdId cmd : Text) (named : cmd ≠ "") :
    (∀ crow : CrowReading, validateParams (some params) = none ↔
      commandRequest (some ((CloudHandler.commandSync cmdId cmd (some params)).forwarded crow)) ≠
        .malformed) ↔
    (PlainField maxBaudrate (params.lookup "baudrate") ∧
      PlainField maxTimeoutMs (params.lookup "timeout_ms")) ∨
    ((GatewayRefuses (fun n => 1 ≤ n ∧ n ≤ maxBaudrate) (params.lookup "baudrate") ∨
      GatewayRefuses (fun n => 1 ≤ n) (params.lookup "timeout_ms")) ∧
      (ServiceRefuses maxBaudrate (params.lookup "baudrate") ∨
        ServiceRefuses maxTimeoutMs (params.lookup "timeout_ms"))) := by
  simp only [commandRequest_forwarded _ _ named, validateParams_eq_none]
  constructor
  · intro agree
    by_cases accepted :
        ¬ GatewayRefuses (fun n => 1 ≤ n ∧ n ≤ maxBaudrate) (params.lookup "baudrate") ∧
        ¬ GatewayRefuses (fun n => 1 ≤ n) (params.lookup "timeout_ms")
    · have takes := (agree (.yielding 0)).mp accepted
      exact .inl ⟨plain_of_taken (fun _ => rfl) accepted.1 takes.1,
        plain_of_taken (fun _ => rfl) accepted.2 takes.2⟩
    · have fails := mt (agree (.yielding 1)).mpr accepted
      rw [not_and_or, not_not, not_not] at accepted fails
      refine .inr ⟨accepted, fails.imp ?_ ?_⟩
      · exact refused_of_serviceField (by decide) fun _ => rfl
      · exact refused_of_serviceField (by decide) fun _ => rfl
  · rintro (⟨baud, timeout⟩ | ⟨gateway, service⟩) crow
    · refine iff_of_true ⟨?_, ?_⟩ ⟨?_, ?_⟩
      · exact not_gatewayRefuses_of_plain (fun _ within => within) baud
      · exact not_gatewayRefuses_of_plain (fun _ within => within.1) timeout
      · exact serviceField_plain crow (by decide) baud
      · exact serviceField_plain crow (by decide) timeout
    · refine iff_of_false (fun accepted => ?_) fun takes => ?_
      · exact gateway.elim accepted.1 accepted.2
      · rcases service with refused | refused
        · exact takes.1 (serviceField_refused crow refused)
        · exact takes.2 (serviceField_refused crow refused)

/-- The service's answer to a `PING` with the given `params`. -/
def pingWith (params : Members) : Request :=
  commandRequest (some ((CloudHandler.commandSync "demo" "PING" (some params)).forwarded
    (.yielding 0)))

/-- Both sides take a usual baudrate. -/
theorem validators_agree_usual : validateParams (some [("baudrate", .int 9600)]) = none ↔
    pingWith [("baudrate", .int 9600)] ≠ .malformed :=
  (validators_agree_iff [("baudrate", .int 9600)] "demo" "PING" (by decide)).mpr
    (.inl ⟨by simp [PlainField, maxBaudrate], trivial⟩) _

/-- The gateway takes a timeout above an hour, and `True` for a baudrate; the service refuses
both. The service takes `9600.0` for a baudrate, and the gateway refuses it. -/
theorem validators_disagree :
    (validateParams (some [("timeout_ms", .int 3600001)]) = none ∧
      pingWith [("timeout_ms", .int 3600001)] = .malformed) ∧
    (validateParams (some [("baudrate", .bool true)]) = none ∧
      pingWith [("baudrate", .bool true)] = .malformed) ∧
    validateParams (some [("baudrate", .float (.finite 9600))]) = some "ERR:BAD_REQUEST" ∧
      pingWith [("baudrate", .float (.finite 9600))] = .command "PING" none := by
  refine ⟨⟨?_, ?_⟩, ⟨?_, ?_⟩, ?_, ?_⟩
  all_goals decide

end QrEdgeGateway
