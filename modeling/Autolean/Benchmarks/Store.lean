import Autolean.Benchmarks.Matrix
import Autolean.Machine.Traces
import Mathlib.Data.List.AList

/-! The benchmark store: its tables, its transactions and the methods that issue them. A
transaction that raises is rolled back; a crash leaves a method unfinished. -/
namespace Autolean.Benchmarks
open Contracts Machine Machine.Raising

/-- The primary key of a trial and of its claim. -/
structure Coordinates where
  runId : String
  cellId : String
  caseId : String
  repetition : Int
  deriving DecidableEq

def RoleBenchmarkTrialResult.coordinates (r : RoleBenchmarkTrialResult) : Coordinates :=
  ⟨r.runId.value, r.cellId.value, r.caseId.value, r.repetition⟩

/-- A row of `role_benchmark_trial_claims`, apart from its key. -/
structure ClaimRow where
  ownerId : String
  fencingToken : Int
  leaseExpiresNs : Int
  executionStarted : Bool
  executionStartedNs : Option Int
  deriving DecidableEq

/-- The `CHECK` constraints of the table; a comparison with `NULL` fails none. -/
def ClaimRow.Checked (row : ClaimRow) : Prop :=
  1 ≤ row.fencingToken ∧ 1 ≤ row.leaseExpiresNs ∧
    ((row.executionStarted = false ∧ row.executionStartedNs = none) ∨
      (row.executionStarted = true ∧ ∀ ns ∈ row.executionStartedNs, 1 ≤ ns))

instance (row : ClaimRow) : Decidable row.Checked := inferInstanceAs (Decidable (_ ∧ _))

/-- The row once execution has started. -/
def ClaimRow.start (row : ClaimRow) (startedNs : Int) : ClaimRow :=
  { row with executionStarted := true, executionStartedNs := some startedNs }

/-- The four tables that runs write to. A stored JSON text is represented by its value. -/
structure Tables where
  runs : AList fun _ : String => RoleBenchmarkRun
  trials : AList fun _ : Coordinates => RoleBenchmarkTrialResult
  artifacts : AList fun _ : String => String
  claims : AList fun _ : Coordinates => ClaimRow

def Tables.empty : Tables := ⟨∅, ∅, ∅, ∅⟩

/-- One lease-fenced right to execute a trial that is not terminal. -/
structure RoleBenchmarkTrialReservation where
  coordinates : Coordinates
  ownerId : String
  fencingToken : Int
  leaseExpiresNs : Int
  executionStarted : Bool
  executionStartedNs : Option Int
  deriving DecidableEq

/-- What `claim_trial` returns. -/
inductive Claimed where
  | terminal (result : RoleBenchmarkTrialResult)
  | reserved (reservation : RoleBenchmarkTrialReservation)
  deriving DecidableEq

/-- An integer SQLite can bind. -/
def FitsInteger (n : Int) : Prop := -9223372036854775808 ≤ n ∧ n ≤ 9223372036854775807

instance (n : Int) : Decidable (FitsInteger n) := inferInstanceAs (Decidable (_ ∧ _))

/-- The first trial of the run at the given place. -/
def RoleBenchmarkRun.findTrial (run : RoleBenchmarkRun) (cellId caseId : String) (repetition : Int) :
    Option (RoleBenchmarkRunCell × RoleBenchmarkCaseBinding × RoleBenchmarkTrialBinding) :=
  run.cells.findSome? fun cell =>
    if cell.cellId.value = cellId then
      cell.selectedCases.findSome? fun case =>
        if case.caseId.value = caseId then
          (case.trials.find? fun trial => trial.repetition = repetition).map fun trial => (cell, case, trial)
        else none
    else none

/-- `_trial_binding`. -/
def trialBinding (run : RoleBenchmarkRun) (cellId caseId : String) (repetition : Int) :
    Outcome (RoleBenchmarkRunCell × RoleBenchmarkCaseBinding × RoleBenchmarkTrialBinding) :=
  match run.findTrial cellId caseId repetition with
  | some binding => .ok binding
  | none => .error (.roleBenchmarkStoreError "trial coordinate is outside the frozen run manifest")

/-- The claim of a trial, or the error its absence raises. -/
def currentClaim (t : Tables) (k : Coordinates) (e : BenchmarkError) : Outcome ClaimRow :=
  match t.claims.lookup k with
  | some row => .ok row
  | none => .error e

/-- The results of one run, `ORDER BY cell_id, case_id, repetition`. -/
def Tables.resultsOf (t : Tables) (runId : String) : List RoleBenchmarkTrialResult :=
  canonicalOrder ((t.trials.entries.filter fun row => row.1.runId = runId).map fun row => row.2)

namespace Runtime
variable (rt : Runtime)

/-- `_parse_canonical_model(RoleBenchmarkRunV1, ...)`. -/
def parseRun (run : RoleBenchmarkRun) : Outcome RoleBenchmarkRun := do
  ensure (rt.RunValid run) (.roleBenchmarkStoreError "stored benchmark JSON failed schema validation")
  pure run

/-- `_parse_canonical_model(RoleBenchmarkTrialResultV1, ...)`. -/
def parseResult (result : RoleBenchmarkTrialResult) : Outcome RoleBenchmarkTrialResult := do
  ensure (rt.ResultValid result) (.roleBenchmarkStoreError "stored benchmark JSON failed schema validation")
  pure result

/-- `_validate_result_binding`. -/
def validateResultBinding (run : RoleBenchmarkRun) (result : RoleBenchmarkTrialResult) : Outcome Unit := do
  let binding ← trialBinding run result.cellId.value result.caseId.value result.repetition
  ensure (rt.Binds run binding.1 binding.2.1 binding.2.2 result)
    (.roleBenchmarkStoreError "stored trial result does not bind its run manifest")

/-- The rows `load_run` selects, of which the key leaves at most one. -/
def selectRun (t : Tables) (runId : String) : Outcome RoleBenchmarkRun :=
  match t.runs.lookup runId with
  | none => .error (.roleBenchmarkStoreError ("unknown or duplicate benchmark run: " ++ runId))
  | some run => rt.parseRun run

/-- A stored run by its identifier, for the rows that refer to it. -/
def storedRun (t : Tables) (runId : String) (e : BenchmarkError) : Outcome RoleBenchmarkRun :=
  match t.runs.lookup runId with
  | none => .error e
  | some run => .ok run

/-! `_validate_existing_rows` -/

def validateRunRow (row : Sigma fun _ : String => RoleBenchmarkRun) : Outcome Unit := do
  let run ← rt.parseRun row.2
  ensure (row.1 = run.runId.value) (.roleBenchmarkStoreError "stored run column does not match its V3 payload")

def validateTrialRow (t : Tables) (row : Sigma fun _ : Coordinates => RoleBenchmarkTrialResult) : Outcome Unit := do
  let result ← rt.parseResult row.2
  ensure (row.1 = result.coordinates) (.roleBenchmarkStoreError "stored trial columns do not match their V3 payload")
  let run ← storedRun t result.runId.value (.roleBenchmarkStoreError "stored trial references an unknown run")
  rt.validateResultBinding run result

def validateArtifactRow (t : Tables) (row : Sigma fun _ : String => String) : Outcome Unit := do
  let run ← storedRun t row.1 (.roleBenchmarkStoreError "stored raw artifact binding is invalid")
  ensure (IsSha256 row.2) (.roleBenchmarkStoreError "stored raw artifact binding is invalid")
  let _ ← rt.validatedReportMetrics run (t.resultsOf row.1)
  pure ()

/-- The owner of a claim is a text of 1 to 128 characters. -/
def OwnerShaped (ownerId : String) : Prop := ownerId ≠ "" ∧ ownerId.toList.length ≤ 128

instance (ownerId : String) : Decidable (OwnerShaped ownerId) := inferInstanceAs (Decidable (_ ∧ _))

/-- A row the validator takes: a started one carries its positive start. -/
def ClaimShaped (row : ClaimRow) : Prop :=
  OwnerShaped row.ownerId ∧ 1 ≤ row.fencingToken ∧ 1 ≤ row.leaseExpiresNs ∧
    (row.executionStarted = false → row.executionStartedNs = none) ∧
    (row.executionStarted = true → ∃ ns ∈ row.executionStartedNs, 1 ≤ ns)

instance (row : ClaimRow) : Decidable (ClaimShaped row) := by
  unfold ClaimShaped
  infer_instance

def validateClaimRow (t : Tables) (row : Sigma fun _ : Coordinates => ClaimRow) : Outcome Unit := do
  let run ← storedRun t row.1.runId (.roleBenchmarkStoreError "stored trial claim is invalid")
  ensure (ClaimShaped row.2) (.roleBenchmarkStoreError "stored trial claim is invalid")
  let _ ← trialBinding run row.1.cellId row.1.caseId row.1.repetition
  pure ()

/-- What opening a store checks of the rows already there. -/
def validateExistingRows (t : Tables) : Outcome Unit := do
  t.runs.entries.forM rt.validateRunRow
  t.trials.entries.forM (rt.validateTrialRow t)
  t.artifacts.entries.forM (rt.validateArtifactRow t)
  t.claims.entries.forM (validateClaimRow t)
  ensure (∀ row ∈ t.claims.entries, row.1 ∉ t.trials)
    (.roleBenchmarkStoreError "terminal trials cannot retain active claims")

/-! Transactions -/

/-- The transaction of `create_run`. -/
def createRunTransaction (run : RoleBenchmarkRun) (t : Tables) : Outcome (Unit × Tables) :=
  match t.runs.lookup run.runId.value with
  | none => .ok ((), { t with runs := t.runs.insert run.runId.value run })
  | some stored => do
    ensure (stored = run) (.roleBenchmarkStoreError "run_id conflicts with another manifest")
    pure ((), t)

/-- Write a claim that has not started under the next token. -/
def grant (k : Coordinates) (ownerId : String) (token expiresNs : Int) (t : Tables) : Outcome (Claimed × Tables) := do
  ensure (FitsInteger token ∧ FitsInteger expiresNs) .overflowError
  ensure (k.runId ∈ t.runs ∧ ClaimRow.Checked ⟨ownerId, token, expiresNs, false, none⟩) .integrityError
  pure (.reserved ⟨k, ownerId, token, expiresNs, false, none⟩,
    { t with claims := t.claims.insert k ⟨ownerId, token, expiresNs, false, none⟩ })

/-- The part of `claim_trial` that finds no terminal result. -/
def claimOpenTrial (k : Coordinates) (ownerId : String) (nowNs expiresNs : Int) (t : Tables) : Outcome (Claimed × Tables) :=
  match t.claims.lookup k with
  | none => grant k ownerId 1 expiresNs t
  | some current => do
    ensure (current.leaseExpiresNs ≤ nowNs) (.roleBenchmarkTrialBusy "trial coordinate is actively claimed")
    ensure (current.executionStarted = false) (.roleBenchmarkTrialIndeterminate
      "expired trial may already have called its executor; automatic retry is forbidden")
    grant k ownerId (current.fencingToken + 1) expiresNs t

/-- The transaction of `claim_trial`, at the time it read. -/
def claimTrialTransaction (run : RoleBenchmarkRun) (k : Coordinates) (ownerId : String) (ttlMs nowNs : Int) (t : Tables) :
    Outcome (Claimed × Tables) :=
  match t.trials.lookup k with
  | some stored => do
    let result ← rt.parseResult stored
    rt.validateResultBinding run result
    pure (.terminal result, t)
  | none => claimOpenTrial k ownerId nowNs (nowNs + ttlMs * 1000000) t

/-- The reservation names the holder of the row. -/
def Holds (row : ClaimRow) (reservation : RoleBenchmarkTrialReservation) : Prop :=
  row.ownerId = reservation.ownerId ∧ row.fencingToken = reservation.fencingToken

instance (row : ClaimRow) (reservation : RoleBenchmarkTrialReservation) : Decidable (Holds row reservation) :=
  inferInstanceAs (Decidable (_ ∧ _))

/-- The transaction of `mark_trial_execution_started`. -/
def markTransaction (reservation : RoleBenchmarkTrialReservation) (startedNs : Int) (t : Tables) :
    Outcome (RoleBenchmarkTrialReservation × Tables) := do
  ensure (FitsInteger reservation.coordinates.repetition) .overflowError
  let claim ← currentClaim t reservation.coordinates
    (.roleBenchmarkStoreError "trial reservation is stale, expired, or started")
  ensure (Holds claim reservation ∧ startedNs ≤ claim.leaseExpiresNs ∧ claim.executionStarted = false)
    (.roleBenchmarkStoreError "trial reservation is stale, expired, or started")
  ensure (FitsInteger startedNs) .overflowError
  ensure (claim.start startedNs).Checked .integrityError
  pure ({ reservation with executionStarted := true, executionStartedNs := some startedNs },
    { t with claims := t.claims.insert reservation.coordinates (claim.start startedNs) })

/-- The transaction of `abandon_trial`. -/
def abandonTransaction (reservation : RoleBenchmarkTrialReservation) (t : Tables) : Outcome (Unit × Tables) := do
  ensure (FitsInteger reservation.coordinates.repetition ∧ FitsInteger reservation.fencingToken) .overflowError
  let claim ← currentClaim t reservation.coordinates
    (.roleBenchmarkStoreError "trial reservation cannot be safely abandoned")
  ensure (Holds claim reservation ∧ claim.executionStarted = false)
    (.roleBenchmarkStoreError "trial reservation cannot be safely abandoned")
  pure ((), { t with claims := t.claims.erase reservation.coordinates })

/-- The trials once the result is stored, or the conflict with a different one. -/
def storeResult (k : Coordinates) (result : RoleBenchmarkTrialResult) (t : Tables) : Outcome Tables :=
  match t.trials.lookup k with
  | none => do
    ensure (k.runId ∈ t.runs) .integrityError
    pure { t with trials := t.trials.insert k result }
  | some existing => do
    ensure (existing = result)
      (.roleBenchmarkStoreError "trial coordinate conflicts with another terminal result")
    pure t

/-- The transaction of `record_claimed_trial`. -/
def recordTransaction (reservation : RoleBenchmarkTrialReservation) (result : RoleBenchmarkTrialResult) (nowNs : Int)
    (t : Tables) : Outcome (Unit × Tables) := do
  ensure (FitsInteger reservation.coordinates.repetition) .overflowError
  let claim ← currentClaim t reservation.coordinates (.roleBenchmarkStoreError "trial reservation is stale or expired")
  ensure (Holds claim reservation ∧ nowNs ≤ claim.leaseExpiresNs ∧ claim.executionStarted = true ∧
      claim.executionStartedNs = reservation.executionStartedNs)
    (.roleBenchmarkStoreError "trial reservation is stale or expired")
  let stored ← storeResult result.coordinates result t
  pure ((), { stored with claims := stored.claims.erase reservation.coordinates })

/-- The transaction of `bind_raw_artifact_manifest`. -/
def bindTransaction (runId manifestHash : String) (t : Tables) : Outcome (Unit × Tables) :=
  match t.artifacts.lookup runId with
  | none => do
    ensure (runId ∈ t.runs) .integrityError
    pure ((), { t with artifacts := t.artifacts.insert runId manifestHash })
  | some bound => do
    ensure (bound = manifestHash) (.roleBenchmarkStoreError "run conflicts with another raw artifact manifest")
    pure ((), t)

end Runtime

/-! The shared resource: the database, the private raw outputs and the executor -/

inductive BenchmarkOp where
  | selectRun (runId : String)
  | selectResults (runId : String)
  | selectArtifact (runId : String)
  | createRun (run : RoleBenchmarkRun)
  | claimTrial (run : RoleBenchmarkRun) (k : Coordinates) (ownerId : String) (ttlMs : Int)
  | markTrialExecutionStarted (reservation : RoleBenchmarkTrialReservation)
  | abandonTrial (reservation : RoleBenchmarkTrialReservation)
  | recordClaimedTrial (reservation : RoleBenchmarkTrialReservation) (result : RoleBenchmarkTrialResult)
  | bindRawArtifactManifest (runId manifestHash : String)
  /-- `executor.execute` for one trial. -/
  | execute (k : Coordinates) (workItem : RoleBenchmarkWorkItem)
  /-- `ArtifactStore.put_bytes` of a canonical text. -/
  | putBytes (payload : String)
  /-- `ArtifactStore.get_bytes`. -/
  | getBytes (digest : Digest)

abbrev BenchmarkOp.Res : BenchmarkOp → Type
  | selectRun _ => RoleBenchmarkRun
  | selectResults _ => List RoleBenchmarkTrialResult
  | selectArtifact _ => Option String
  | claimTrial .. => Claimed
  | markTrialExecutionStarted _ => RoleBenchmarkTrialReservation
  | execute .. => RoleExecutionOutcome
  | putBytes _ => Digest
  | getBytes _ => String
  | createRun _ | abandonTrial _ | recordClaimedTrial .. | bindRawArtifactManifest .. => Unit

abbrev benchmarkInterface : Interface := ⟨BenchmarkOp, BenchmarkOp.Res⟩

abbrev Method (α : Type) := Prog benchmarkInterface BenchmarkError α

def issue (op : BenchmarkOp) : Method op.Res := Prog.perform (I := benchmarkInterface) op

/-- What one operation reads from outside: the clock, what the executor answers, and what
the directory of raw outputs holds. -/
structure Reading where
  timeNs : Int
  outcome : Outcome RoleExecutionOutcome
  artifact : Outcome String

/-- A transaction commits its tables or leaves them alone. -/
def commit {α : Type} (result : Outcome (α × Tables)) (t : Tables) : Outcome α × Tables :=
  match result with
  | .ok (a, t') => (.ok a, t')
  | .error e => (.error e, t)

namespace Runtime
variable (rt : Runtime)

/-- `put_bytes` names the bytes by their digest and reads back what the file holds. -/
def putBytes (payload : String) (file : Outcome String) : Outcome Digest := do
  let data ← file
  ensure (rt.sha256Text data = rt.sha256Text payload ∧ data.toList.length = payload.toList.length) .artifactCorruption
  pure (rt.sha256Text payload)

/-- `get_bytes` returns bytes only under their own digest. -/
def getBytes (digest : Digest) (file : Outcome String) : Outcome String := do
  let data ← file
  ensure (rt.sha256Text data = digest) .artifactCorruption
  pure data

def exec : Semantics benchmarkInterface BenchmarkError Reading Tables
  | .selectRun runId, _, t => (rt.selectRun t runId, t)
  | .selectResults runId, _, t => (.ok (t.resultsOf runId), t)
  | .selectArtifact runId, _, t => (.ok (t.artifacts.lookup runId), t)
  | .createRun run, _, t => commit (createRunTransaction run t) t
  | .claimTrial run k ownerId ttlMs, i, t => commit (rt.claimTrialTransaction run k ownerId ttlMs i.timeNs t) t
  | .markTrialExecutionStarted reservation, i, t => commit (markTransaction reservation i.timeNs t) t
  | .abandonTrial reservation, _, t => commit (abandonTransaction reservation t) t
  | .recordClaimedTrial reservation result, i, t => commit (recordTransaction reservation result i.timeNs t) t
  | .bindRawArtifactManifest runId manifestHash, _, t => commit (bindTransaction runId manifestHash t) t
  | .execute _ _, i, t => (i.outcome, t)
  | .putBytes payload, i, t => (rt.putBytes payload i.artifact, t)
  | .getBytes digest, i, t => (rt.getBytes digest i.artifact, t)

/-! The methods of the store -/

def loadRun (runId : String) : Method RoleBenchmarkRun := issue (.selectRun runId)

def createRun (run : RoleBenchmarkRun) : Method Unit := do
  Prog.ofExcept (ensure (rt.RunValid run) (.roleBenchmarkStoreError "run is not a valid canonical V3 manifest"))
  issue (.createRun run)

def claimTrial (run : RoleBenchmarkRun) (cellId caseId : String) (repetition : Int) (ownerId : String) (ttlMs : Int) :
    Method Claimed := do
  Prog.ofExcept (ensure (1 ≤ ttlMs) (.roleBenchmarkStoreError "trial claim TTL must be positive"))
  Prog.ofExcept (ensure (OwnerShaped ownerId) (.roleBenchmarkStoreError "trial claim owner_id is invalid"))
  let _ ← Prog.ofExcept (trialBinding run cellId caseId repetition)
  let stored ← loadRun run.runId.value
  Prog.ofExcept (ensure (stored = run) (.roleBenchmarkStoreError "trial claim run does not match stored manifest"))
  issue (.claimTrial run ⟨run.runId.value, cellId, caseId, repetition⟩ ownerId ttlMs)

def markTrialExecutionStarted (reservation : RoleBenchmarkTrialReservation) : Method RoleBenchmarkTrialReservation := do
  Prog.ofExcept (ensure (reservation.executionStarted = false)
    (.roleBenchmarkStoreError "trial reservation is already marked started"))
  issue (.markTrialExecutionStarted reservation)

def abandonTrial (reservation : RoleBenchmarkTrialReservation) : Method Unit := do
  Prog.ofExcept (ensure (reservation.executionStarted = false) (.roleBenchmarkTrialIndeterminate
    "a started executor call cannot be abandoned or made retryable"))
  issue (.abandonTrial reservation)

def recordClaimedTrial (reservation : RoleBenchmarkTrialReservation) (result : RoleBenchmarkTrialResult) : Method Unit := do
  Prog.ofExcept (ensure (reservation.executionStarted = true ∧ reservation.executionStartedNs ≠ none)
    (.roleBenchmarkStoreError "trial result requires a started reservation"))
  Prog.ofExcept (ensure (rt.ResultValid result) (.roleBenchmarkStoreError "trial result is not a valid canonical V3 value"))
  Prog.ofExcept (ensure (reservation.coordinates = result.coordinates)
    (.roleBenchmarkStoreError "trial reservation does not match result coordinates"))
  let run ← loadRun result.runId.value
  Prog.ofExcept (rt.validateResultBinding run result)
  issue (.recordClaimedTrial reservation result)

/-- The checks `load_results` makes of each row. -/
def checkedResult (runId : String) (run : RoleBenchmarkRun) (stored : RoleBenchmarkTrialResult) :
    Outcome RoleBenchmarkTrialResult := do
  let result ← rt.parseResult stored
  ensure (result.runId.value = runId) (.roleBenchmarkStoreError "stored trial columns do not match their payload")
  rt.validateResultBinding run result
  pure result

def loadResults (runId : String) : Method (List RoleBenchmarkTrialResult) := do
  let run ← loadRun runId
  let rows ← issue (.selectResults runId)
  Prog.ofExcept (rows.mapM (rt.checkedResult runId run))

def bindRawArtifactManifest (runId manifestHash : String) : Method Unit := do
  Prog.ofExcept (ensure (IsSha256 manifestHash) (.roleBenchmarkStoreError "raw artifact manifest hash must be SHA-256"))
  let run ← loadRun runId
  let results ← rt.loadResults runId
  let _ ← Prog.ofExcept (rt.validatedReportMetrics run results)
  issue (.bindRawArtifactManifest runId manifestHash)

/-- `build_report` under the hash bound to the run. -/
def reportOf (run : RoleBenchmarkRun) (results : List RoleBenchmarkTrialResult) (bound : Option String) :
    Outcome RoleBenchmarkReport :=
  match bound with
  | none => .error (.roleBenchmarkStoreError "benchmark run has no unique raw artifact manifest binding")
  | some manifestHash =>
    if h : IsSha256 manifestHash then rt.buildReport run results ⟨manifestHash, h⟩
    else .error (.validationError "raw_artifact_manifest_hash")

def report (runId : String) : Method RoleBenchmarkReport := do
  let run ← loadRun runId
  let results ← rt.loadResults runId
  let _ ← Prog.ofExcept (rt.validatedReportMetrics run results)
  let bound ← issue (.selectArtifact runId)
  Prog.ofExcept (rt.reportOf run results bound)

end Runtime
end Autolean.Benchmarks
