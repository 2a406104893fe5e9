import QrEdgeGateway.Verif.DeviceToCloud

/-!
# One frame, one result

A call of `read_cobs_frame` that returns a frame has read its delimiter, and what one worker has
read no other worker reads again. So each text that is stored has used up a delimiter of its own,
and over every run of the deployment there are no more results than frames that the device has
sent in full.
-/

namespace QrEdgeGateway

/-! ## Delimiters read -/

/-- The frames a worker has received and not stored yet. -/
def JobPc.holds : JobPc → Nat
  | .closed true _ => 1
  | .decoding true _ => 1
  | .storing (.done _) => 1
  | _ => 0

/-- The next step of the worker stores a text. -/
def JobPc.storesText : JobPc → Bool
  | .storing (.done _) => true
  | _ => false

/-- A chunk that completes a frame has a delimiter. -/
theorem zero_mem_of_delimiter {frame bytes out : Bytes}
    (scanned : scanChunk frame bytes = .delimiter out) : (0 : UInt8) ∈ bytes := by
  induction bytes generalizing frame with
  | nil => simp [scanChunk] at scanned
  | cons byte rest ih =>
    unfold scanChunk at scanned
    split at scanned
    · rename_i zero
      simp [zero]
    · dsimp only at scanned
      split at scanned
      · contradiction
      · exact List.mem_cons_of_mem _ (ih scanned)

/-- Only a chunk with a delimiter makes the call return a frame. -/
theorem Reader.zero_mem_of_onChunk {r : Reader} {chunk : Chunk}
    (returned : (r.onChunk chunk).pc = .returned true) : (0 : UInt8) ∈ chunk.bytes := by
  unfold onChunk at returned
  split at returned
  · rename_i scanned
    exact zero_mem_of_delimiter scanned
  · simp [ret] at returned
  · exact absurd returned (again_pc _)

/-- Behind the call a worker holds a frame if one was returned. -/
theorem JobPc.holds_ofReader (r : Reader) :
    (JobPc.ofReader r).holds = if r.pc = .returned true then 1 else 0 := by
  unfold JobPc.ofReader
  split
  · rename_i got here
    cases got <;> simp [here, holds]
  · rename_i inside
    rw [if_neg (inside true)]
    rfl

/-- A worker stores or holds no more frames than it held or has just read delimiters. -/
theorem Job.holds_next {j k : Job} {obs : Obs} (moved : j.next obs = some k) :
    k.pc.holds + j.pc.storesText.toNat ≤ j.pc.holds + (streamOf obs.reads).count 0 := by
  obtain ⟨effect, move⟩ := Job.next_move moved
  cases move with
  | @enter remainingMs here =>
    have inside : (Reader.enter remainingMs).pc ≠ .returned true := Reader.again_pc _
    simp [here, JobPc.holds_ofReader, inside, JobPc.storesText]
  | @read obs reader next here stepped =>
    have idle : j.pc.storesText.toNat = 0 := by rw [here]; rfl
    have returns : next.pc = .returned true → 1 ≤ (streamOf obs.reads).count 0 := by
      intro returned
      obtain ⟨chunk, rfl, rfl⟩ | ⟨-, -, other, -⟩ := Reader.step_cases stepped
      · have zero : 0 < chunk.bytes.count 0 :=
          List.count_pos_iff.mpr (Reader.zero_mem_of_onChunk returned)
        simpa [streamOf, Obs.reads] using zero
      · exact absurd returned other
    rw [idle, JobPc.holds_ofReader]
    split
    · rename_i returned
      have read := returns returned
      omega
    · omega
  | @close got enc here => cases got <;> simp [here, JobPc.holds, JobPc.storesText]
  | @test got enc here =>
    have idle : j.pc.storesText.toNat = 0 := by rw [here]; rfl
    rw [idle, here]
    cases got with
    | false => simp [judge, JobPc.holds]
    | true => obtain same | ⟨payload, -, same⟩ := judge_cases true enc <;> simp [same, JobPc.holds]
  | @store outcome here => cases outcome <;> simp [here, JobPc.holds, JobPc.storesText]
  | date now here | expire now here late | budget now here early =>
    simp [here, JobPc.holds, JobPc.storesText]
  | _ here => simp [here, JobPc.holds, JobPc.storesText]

/-! ## The account -/

namespace Deployment

variable {site : Site} {d next : Deployment} {event : DeploymentEvent}

/-- This step stores a text. -/
def stores (d : Deployment) : DeploymentEvent → Bool
  | .edge (.service (.job k _)) =>
    match d.edge.world.threads[k]? with
    | some thread => thread.job.pc.storesText
    | none => false
  | _ => false

/-- Only a worker stores a text. -/
theorem stores_eq_false {event : EdgeEvent} (other : ∀ k obs, event ≠ .service (.job k obs)) :
    d.stores (.edge event) = false := by
  unfold stores
  split
  · rename_i same
    cases same
    exact absurd rfl (other _ _)
  · rfl

/-- The texts stored so far and the frames the workers hold have used up delimiters of their
own. -/
structure Used (d : Deployment) (stored : Nat) : Prop where
  /-- Only what was sent can leave the line. -/
  within : d.gone ≤ d.sent.length
  /-- There are as many delimiters among what has left the line. -/
  enough : stored + Table.total (fun thread : Thread => thread.job.pc.holds)
    d.edge.world.threads ≤ d.left.count 0

/-- Every step keeps the account. -/
theorem Used.step {stored : Nat} (used : d.Used stored) (taken : d.step site event = some next) :
    next.Used (stored + (d.stores event).toNat) := by
  obtain ⟨within, -, leaves⟩ := left_step used.within taken
  have enough := used.enough
  refine ⟨within, ?_⟩
  rw [leaves, List.count_append]
  cases step_move taken with
  | device moved =>
    simp only [stores, Bool.toNat_false]
    omega
  | flush unused there =>
    simp only [stores, Bool.toNat_false]
    omega
  | @edge event edge there moved =>
    obtain ⟨other, same⟩ | ⟨other, h, id, timeoutMs, spawned⟩ |
      ⟨k, obs, thread, job, rfl, found, works, moves⟩ := Edge.threads_step moved
    · rw [stores_eq_false other, same]
      simp only [Bool.toNat_false]
      omega
    · have idle : (⟨h, { id, timeoutMs }⟩ : Thread).job.pc.holds = 0 := rfl
      rw [stores_eq_false other, spawned, Table.total_spawn, idle]
      simp only [Bool.toNat_false]
      omega
    · have own : d.stores (.edge (.service (.job k obs))) = thread.job.pc.storesText := by
        simp [stores, found]
      have total := Table.total_set (fun thread : Thread => thread.job.pc.holds)
        { thread with job } found
      have read := Job.holds_next works
      rw [own, moves]
      dsimp only [leaving, EdgeEvent.reads, Event.reads] at total ⊢
      omega

/-- No frame serves two jobs. In every run of the deployment, whatever jobs and clients there are
and however the frames are sent, lost and read, no more texts are stored than the device has sent
whole frames to the bridge. -/
theorem each_text_has_a_frame (site : Site) (payload : Bytes) (client : Nat)
    (events : List DeploymentEvent) (d : Deployment)
    (reached : Transition.run (step site) { device := { payload }, client } events = some d) :
    ∃ frames front, d.sent = Delimited.train 0 (wireFrame payload) frames ++ front ∧
      front <+: wireFrame payload ∧
      Transition.tally (step site) stores { device := { payload }, client } events ≤ frames := by
  obtain ⟨own, device⟩ := device_run reached
  obtain ⟨frames, front, sent, begins, -⟩ := emission_sent device
  refine ⟨frames, front, sent, begins, ?_⟩
  have used : d.Used (Transition.tally (step site) stores { device := { payload }, client }
      events) := by
    refine Transition.run_tally Used ?_ ⟨Nat.zero_le _, Nat.zero_le _⟩ reached
      Transition.along_true
    intro state event after stored held admitted taken
    exact held.step taken
  have enough := used.enough
  have taken : d.left.count 0 ≤ d.sent.count 0 :=
    (List.take_sublist _ _).count_le 0
  have clean : (0 : UInt8) ∉ front := fun zero => wireFrame_clean payload (begins.subset zero)
  have whole : d.sent.count 0 = frames := by
    rw [sent, List.count_append, Delimited.count_train (wireFrame_clean payload),
      List.count_eq_zero_of_not_mem clean]
    rfl
  omega

/-- The device sends a frame with the text `QR:`; a start from the cloud is told it. -/
def deliveredToCloud : List DeploymentEvent :=
  (oneFrame qrPrefix).map .device ++ Edge.startFromCloud.map .edge

/-- One frame is sent and one text is stored. -/
theorem deliveredToCloud_used : ∃ d frames front,
    Transition.run (step Edge.plainSite) { device := { payload := qrPrefix }, client := 0 }
      deliveredToCloud = some d ∧
    d.sent = Delimited.train 0 (wireFrame qrPrefix) frames ++ front ∧ front <+: wireFrame qrPrefix ∧
    Transition.tally (step Edge.plainSite) stores { device := { payload := qrPrefix }, client := 0 }
      deliveredToCloud = 1 ∧ 1 ≤ frames := by
  have ends : (Transition.run (step Edge.plainSite)
      { device := { payload := qrPrefix }, client := 0 } deliveredToCloud).isSome = true := by
    decide +kernel
  have one : Transition.tally (step Edge.plainSite) stores
      { device := { payload := qrPrefix }, client := 0 } deliveredToCloud = 1 := by decide +kernel
  obtain ⟨d, reached⟩ := Option.isSome_iff_exists.mp ends
  obtain ⟨frames, front, sent, begins, enough⟩ := each_text_has_a_frame Edge.plainSite qrPrefix 0
    deliveredToCloud d reached
  exact ⟨d, frames, front, reached, sent, begins, one, one ▸ enough⟩

end Deployment

end QrEdgeGateway
