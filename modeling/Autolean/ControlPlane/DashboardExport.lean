import Autolean.ControlPlane.FeedbackReports

/-! The runs, the artifacts and the events of `snapshot`, and the document that is exported. -/
namespace Autolean.ControlPlane.Projection
open Contracts Machine Raising

structure RunView where
  id : String
  taskId : String
  provider : String
  model : String
  status : String
  verification : String
  durationMs : Option Nat
  inputTokens : Nat
  outputTokens : Nat
  costUsd : PyFloat

structure ArtifactView where
  digest : String
  mediaType : String
  size : Json
  kind : String

structure PublicEvent where
  sequence : Nat
  eventType : String
  entityId : String
  taskId : Option String
  occurredAt : Instant
  summary : String

/-- `_optional_float`. -/
def optionalFloat (payload : JsonObject) (key : String) : Option PyFloat :=
  match payload.get key with
  | some (.int n) => if n < 0 then none else some (.finite n)
  | some (.float (.finite q)) => if q < 0 then none else some (.finite q)
  | some (.float .inf) => some .inf
  | some (.float .nan) => some .nan
  | _ => none

/-- `_run_from_submission`. -/
def runFromSubmission (payload : JsonObject) (proofId : String) : Raises RunView := do
  let costUsd := (optionalFloat payload "cost_usd").getD (.finite 0)
  ensure (Json.encodable (.float costUsd) = true) (.valueError "Out of range float values are not JSON compliant")
  pure ⟨proofId, (payload.text "bundle_id").getD "unknown", (payload.text "provider").getD "unattributed",
    (payload.text "model").getD "unattributed", "candidate", "pending", optionalInt payload "duration_ms",
    (optionalInt payload "input_tokens").getD 0, (optionalInt payload "output_tokens").getD 0, costUsd⟩

/-- What `_capture_artifact` takes from a payload. -/
def capturedArtifact (payload : JsonObject) (key : String) : Option ArtifactView := do
  let artifact ← payload.obj key
  let digest ← artifact.text "digest"
  some ⟨digest, (artifact.text "media_type").getD "application/octet-stream", (artifact.get "size").getD (.int 0),
    (artifact.text "kind").getD "artifact"⟩

/-- `_event_view`. -/
def eventView (e : StoredEvent) : PublicEvent :=
  ⟨e.globalPosition, e.eventType, (eventTaskId e).getD e.entityId, eventTaskId e, e.recordedAt,
    String.ofList (e.eventType.toList.map fun c => if c = '.' then ' ' else c)⟩

/-- `entries[key] = entry`. -/
def putEntry {α : Type} (key : α → String) (entries : List α) (entry : α) : List α :=
  if key entry ∈ entries.map key then entries.map fun old => if key old = key entry then entry else old
  else entries ++ [entry]

structure Views where
  runs : List RunView
  artifacts : List ArtifactView
  events : List PublicEvent

namespace Views

def empty : Views := ⟨[], [], []⟩

/-- `_capture_artifact`. -/
def capture (v : Views) (payload : JsonObject) (key : String) : Views :=
  { v with artifacts := (capturedArtifact payload key).elim v.artifacts (putEntry (·.digest) v.artifacts) }

/-- A verdict on the run of a proof. -/
def judge (v : Views) (proofId : Option String) (accepted : Bool) : Views :=
  { v with runs := v.runs.map fun run => if some run.id = proofId then
      { run with status := if accepted then "succeeded" else "failed"
                 verification := if accepted then "accepted" else "rejected" } else run }

/-- What the loop of `snapshot` does with an event, but for the nodes and the counters. -/
def take (v : Views) (e : StoredEvent) : Raises Views :=
  if e.eventType = "task.registered" then pure (v.capture e.payload "bundle_artifact")
  else if e.eventType = "proof.submitted" then do
    let run ← runFromSubmission e.payload (proofIdOf e)
    pure ({ v with runs := putEntry (·.id) v.runs run }.capture e.payload "proof_artifact")
  else if e.eventType = "gap.reported" ∧ (eventTaskId e).isSome then pure (v.capture e.payload "gap_artifact")
  else if e.eventType = "contract_change.requested" ∧ (eventTaskId e).isSome then
    pure (v.capture e.payload "request_artifact")
  else if IsVerification e then do
    let accepted ← verificationAccepted e
    pure ((v.judge (e.payload.text "proof_id") accepted).capture e.payload "verification_artifact")
  else pure v

def step (v : Views) (e : StoredEvent) : Raises Views := do
  let taken ← v.take e
  pure { taken with events := taken.events ++ [eventView e] }

end Views

/-- The document that `snapshot` returns. -/
structure Document where
  activeRuns : Nat
  blockedNodes : Nat
  nodes : List PublicNode
  runs : List RunView
  artifacts : List ArtifactView
  events : List PublicEvent
  phaseFeedback : List PhaseFeedback

/-- `DashboardProjection.snapshot`. -/
def document (order : SetOrder) (events : List StoredEvent) : Raises Document := do
  let (s, feedback) ← dashboard order events
  let v ← (inOrder events).foldlM Views.step .empty
  pure ⟨s.activeRuns, s.blockedNodes, s.nodes, v.runs, v.artifacts, v.events, feedback⟩

/-- What a document shows of nodes and counters is what the loop over the events leaves. -/
theorem document_snapshot {order : SetOrder} {events : List StoredEvent} {d : Document} (h : document order events = .ok d) :
    ∃ s, snapshot events = .ok s ∧ d.nodes = s.nodes ∧ d.activeRuns = s.activeRuns ∧ d.blockedNodes = s.blockedNodes := by
  obtain ⟨⟨s, feedback⟩, hdashboard, h⟩ := bind_eq_ok.mp h
  obtain ⟨v, -, h⟩ := bind_eq_ok.mp h
  cases h
  obtain ⟨s', hs, hdashboard⟩ := bind_eq_ok.mp hdashboard
  obtain ⟨_, -, hdashboard⟩ := bind_eq_ok.mp hdashboard
  cases hdashboard
  exact ⟨s, hs, rfl, rfl, rfl⟩

/-- The loop over the events of a reachable log returns, and whatever document is returned shows one
status for the nodes of a bundle. Where every registered bundle has nodes its count of active runs is
that of the bundles with running nodes, and its count of blocked nodes is that of the bundles with
blocked nodes exactly when no claim and no accepted verdict has the last word on a bundle once
blocked. -/
theorem counters_agree_iff {θ : Type} [DecidableEq θ] (svc : Service) (commands : θ → Command) (labels : List (θ × ServiceInput))
    (order : SetOrder) :
    let events := (run (CommandPool.step svc) (CommandPool.start svc commands) labels).state.database.events
    (∃ s, snapshot events = .ok s) ∧ ∀ d, document order events = .ok d →
      (∀ node ∈ d.nodes, ∀ node' ∈ d.nodes, node.bundleId = node'.bundleId → node.status = node'.status) ∧
      ((∀ e ∈ events, e.eventType = "task.registered" → registeredNodes e ≠ []) →
        d.activeRuns = (bundlesWith d.nodes "running").card ∧ (bundlesWith d.nodes "blocked").card ≤ d.blockedNodes ∧
        (d.blockedNodes = (bundlesWith d.nodes "blocked").card ↔ StaysBlocked events)) := by
  intro events
  obtain ⟨s, hs, hagree⟩ := lawful_counters (run_sound_any svc commands labels).inv
  refine ⟨⟨s, hs⟩, fun d hd => ?_⟩
  obtain ⟨s', hs', hnodes, hactive, hblocked⟩ := document_snapshot hd
  have hsame : s = s' := Except.ok.inj (hs.symm.trans hs')
  rw [hnodes, hactive, hblocked, ← hsame]
  exact hagree

def reclaimingCommands : Fin 4 → Command
  | 0 => .registerBundle chainBundle "register"
  | 1 => .claimLease sampleId.value "worker" 60
  | 2 => .reportGap sampleId.value sampleLeaseOf sampleGapReport "report"
  | 3 => .claim sampleId.value "worker" (.finite 60) "claim"

/-- How many steps each command takes, and when. -/
def reclaimingTurns : List (Nat × Instant × Char) := [(4, 0, 'a'), (1, 0, 'b'), (5, 0, 'c'), (5, 100000000, 'd')]

/-- A gap is reported, and when the lease has expired the bundle is claimed again. -/
def reclaimingRun : List (Fin 4 × ServiceInput) :=
  ((List.finRange 4).zip reclaimingTurns).flatMap fun (i, steps, now, token) => List.replicate steps (stepOf i now token)

/-- The bundle claimed again is counted as running, and as blocked still. -/
theorem counters_agree_iff_reclaimed :
    let events := (run (CommandPool.step sampleService) (CommandPool.start sampleService reclaimingCommands)
      reclaimingRun).state.database.events
    ∃ d, document .ascending events = .ok d ∧ d.activeRuns = (bundlesWith d.nodes "running").card ∧ d.activeRuns = 1 ∧
      d.blockedNodes ≠ (bundlesWith d.nodes "blocked").card := by
  intro events
  have hcount : (document .ascending events).toOption.map (·.activeRuns) = some 1 := by decide +kernel
  obtain ⟨d, hd, hactive⟩ : ∃ d, document .ascending events = .ok d ∧ d.activeRuns = 1 := by
    cases hdocument : document .ascending events with
    | error e =>
      rw [hdocument] at hcount
      cases hcount
    | ok d =>
      rw [hdocument] at hcount
      exact ⟨d, rfl, Option.some.inj hcount⟩
  have hnodes : ∀ e ∈ events, e.eventType = "task.registered" → registeredNodes e ≠ [] := by decide +kernel
  obtain ⟨hruns, -, hstays⟩ :=
    ((counters_agree_iff sampleService reclaimingCommands reclaimingRun .ascending).2 d hd).2 hnodes
  refine ⟨d, hd, hruns, hactive, fun hblocked => ?_⟩
  have hlast := (staysBlocked_iff events).mp (hstays.mp hblocked) sampleId.value (by decide +kernel)
  exact absurd hlast (by decide +kernel)

end Autolean.ControlPlane.Projection
