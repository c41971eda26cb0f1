import Autolean.ControlPlane.LeaseHistory

/-! Claims under concurrency: when a receipt's lease is the one its event records, and the
race of two callers across a lease expiry in which it is not. -/
namespace Autolean.ControlPlane
open Contracts Machine Raising

section
variable {θ : Type} [DecidableEq θ] {svc : Service} {commands : θ → Command}

/-- What the claim receipts of a pool owe each other and the log: each carries the holder and
the token its event records, and two of one key and one request are alike. -/
def ReceiptsAgree (commands : θ → Command) (c : CommandPool θ) : Prop :=
  (∀ i r, c.threads i = .done (.ok (.receipt r)) → r.Matches) ∧
  ∀ i j bundleId workerId ttlSeconds key r r', commands i = .claim bundleId workerId ttlSeconds key →
    commands j = .claim bundleId workerId ttlSeconds key → c.threads i = .done (.ok (.receipt r)) →
    c.threads j = .done (.ok (.receipt r')) →
    r.lease.holderId = r'.lease.holderId ∧ r.lease.fencingToken = r'.lease.fencingToken ∧ r.event = r'.event

/-- Two receipts that match one event name one holder and one token. -/
theorem Service.ClaimReceipt.Matches.same {r r' : Service.ClaimReceipt} (h : r.Matches) (h' : r'.Matches)
    (he : r.event = r'.event) : r.lease.holderId = r'.lease.holderId ∧ r.lease.fencingToken = r'.lease.fencingToken := by
  have hh := h'.holder
  have ht := h'.token
  rw [← he, h.holder] at hh
  rw [← he, h.token] at ht
  simp only [Option.some.injEq, Text.JsonTree.str.injEq, Text.JsonTree.int.injEq] at hh ht
  exact ⟨hh, by exact_mod_cast ht⟩

/-- A claim's append that finds its key recorded for its request finds it recorded by a call
that was given the same lease row. -/
def ReplaysOwnRow (w : WatchedPool θ) (l : θ × ServiceInput) : Prop :=
  match w.pool.threads l.1 with
  | .call (.store (.write call)) _ => ∀ v ∈ call.batch.idempotency, v.scope = "claim" →
    ∀ row ∈ w.pool.state.database.idempotencyRecords v.primaryKey, row.requestHash = v.requestHash →
      w.leases.recordedBy v.primaryKey = w.leases.served l.1
  | _ => True

instance (w : WatchedPool θ) (l : θ × ServiceInput) : Decidable (ReplaysOwnRow w l) := by
  unfold ReplaysOwnRow
  split <;> infer_instance

/-- Only claims append without a lease of their own. -/
theorem Service.Commits.append_scope {log : List StoredEvent} {blobs : String → Option Artifact} {command : Command}
    {batch : Batch} {expected : Int} (h : svc.Commits log blobs command (.append batch expected)) {v : Idempotency}
    (hv : batch.idempotency = some v) : v.scope = "claim" := by
  generalize hcall : AppendCall.append batch expected = call at h
  cases h with
  | claimed keyed =>
    cases hcall
    cases hv
    exact (Service.idempotency_ok keyed).1
  | _ => cases hcall

omit [DecidableEq θ] in
/-- The event that answers such an append records the lease the call was given. -/
theorem ReplaysOwnRow.admits {w : WatchedPool θ} {l : θ × ServiceInput} (hw : w.Sound svc commands)
    (hok : ReplaysOwnRow w l) : Pool.Admits ReplaysOwnLease w.pool l := by
  unfold Pool.Admits
  cases hl : w.pool.threads l.1 with
  | done r => trivial
  | call op k =>
    rintro bundleId payload v expected e rfl hb
    obtain ⟨given, name, ha⟩ := hw.accounts
    obtain ⟨i, hc⟩ := hw.sound.allowed hl
    have hclaim : v.scope = "claim" := hc.append_scope rfl
    have hfollows := ha.follows l.1
    rw [hl] at hfollows
    obtain ⟨_, ⟨hwrites, -⟩, -⟩ := hfollows (.ok [])
    obtain hother | ⟨lease, payload', v', expected', hgiven, hnamed, heq⟩ := hwrites
    · exact absurd hclaim (hother v rfl)
    cases heq
    obtain ⟨row, hrow, hhash, hby⟩ := id hb
    obtain ⟨n, -, hserved, hn⟩ := ha.held l.1 lease hgiven
    obtain ⟨m, -, hrecorded, e', hb', -, -, -, hnamed'⟩ := ha.recorded v.primaryKey row hclaim hrow
    unfold ReplaysOwnRow at hok
    simp only [hl] at hok
    have hsame := hok v rfl hclaim row hrow hhash
    rw [hrecorded, hserved, Option.some.injEq] at hsame
    subst hsame
    have hevent : [e'] = [e] := (hb'.unique hb).2
    simp only [List.cons.injEq, and_true] at hevent
    subst hevent
    rw [hn] at hnamed'
    exact ⟨hnamed'.holder.trans hnamed.holder.symm, hnamed'.token.trans hnamed.token.symm⟩

/-- In every interleaving of commands in which no claim replays the event of another lease row,
the claim receipts returned agree with the log and with each other. -/
theorem claim_receipts_agree (svc : Service) (commands : θ → Command) (labels : List (θ × ServiceInput))
    (h : StepsMeet (WatchedPool.step svc) ReplaysOwnRow (WatchedPool.start svc commands) labels) :
    ReceiptsAgree commands (run (CommandPool.step svc) (CommandPool.start svc commands) labels) := by
  have hadmits : StepsMeet (WatchedPool.step svc) (fun w l => Pool.Admits ReplaysOwnLease w.pool l)
      (WatchedPool.start svc commands) labels := by
    refine StepsMeet.of_invariant (WatchedPool.Sound svc commands) (fun hw hok => ?_) (WatchedPool.start_sound svc commands) h
    exact ⟨hw.step _, hok.admits hw⟩
  have hsound := run_sound (WatchedPool.stepsMeet_pool hadmits)
  have holds {i : θ} {r : Service.ClaimReceipt}
      (hr : (run (CommandPool.step svc) (CommandPool.start svc commands) labels).threads i = .done (.ok (.receipt r))) :
      ∃ bundleId workerId ttlSeconds key v, commands i = .claim bundleId workerId ttlSeconds key ∧
        svc.idempotency "claim" key (.claim bundleId workerId ttlSeconds) = .ok v ∧
        (run (CommandPool.step svc) (CommandPool.start svc commands) labels).state.database.BoundTo v.primaryKey
          v.requestHash [r.event] ∧ r.Matches := by
    obtain ⟨bundleId, workerId, ttlSeconds, key, v, hcmd, hv, hb, hm⟩ := hsound.result hr _ rfl
    exact ⟨bundleId, workerId, ttlSeconds, key, v, hcmd, hv, hb, hm fun _ _ _ hmay => hmay⟩
  refine ⟨fun i r hr => ?_, ?_⟩
  · obtain ⟨_, _, _, _, _, -, -, -, hm⟩ := holds hr
    exact hm
  · intro i j bundleId workerId ttlSeconds key r r' hi hj hr hr'
    obtain ⟨_, _, _, _, v, hcmd, hv, hb, hm⟩ := holds hr
    obtain ⟨_, _, _, _, v', hcmd', hv', hb', hm'⟩ := holds hr'
    rw [hi, Command.claim.injEq] at hcmd
    rw [hj, Command.claim.injEq] at hcmd'
    obtain ⟨rfl, rfl, rfl, rfl⟩ := hcmd
    obtain ⟨rfl, rfl, rfl, rfl⟩ := hcmd'
    rw [hv, Except.ok.injEq] at hv'
    subst hv'
    have hevent : [r.event] = [r'.event] := (hb.unique hb').2
    simp only [List.cons.injEq, and_true] at hevent
    obtain ⟨hholder, htoken⟩ := hm.same hm' hevent
    exact ⟨hholder, htoken, hevent⟩

end

/-! One bundle, its service and two callers -/

def sampleId : StableIdentifier := ⟨"urn:autolean:v1:sample:00000000-0000-0000-0000-000000000001", by decide +kernel⟩

def sampleImage : ImageDigest := ⟨"sha256:" ++ sampleHash, by decide +kernel⟩

def sampleAttestation (purpose : AttestationPurpose) (nonce : String) (h : IsAttestationNonce nonce) : Attestation where
  purpose := purpose
  keyId := "key"
  issuedAt := ⟨0, 0⟩
  expiresAt := ⟨60000000, 0⟩
  nonce := nonce
  evidenceIdentity := ⟨sampleId.value, by decide⟩
  payloadHash := sampleDigest
  signature := sampleDigest
  keyId_safe := by decide
  nonce_safe := h
  expires_after_issue := by decide

def sampleVersion : Text := ⟨"4.33", by decide⟩

def sampleRevision : Text := ⟨"main", by decide⟩

def sampleGraph : Graph := ⟨[], [], by decide, by simp⟩

/-- A handoff whose contract allows the given axioms. -/
def sampleHandoff (axioms : List String) : Handoff where
  bundleId := sampleId
  contract :=
    { contractId := sampleId
      revision := 1
      formal := ⟨⟨sampleVersion, sampleRevision, ⟨.v1, sampleImage⟩, none, sampleDigest⟩, axioms⟩
      axiomProfile := .mathlib
      fidelityEvidenceHash := none
      remaining := []
      revision_pos := sampleBinding.revision_pos
      freeze := some ⟨some (sampleId, sampleDigest), []⟩ }
  graphs := ⟨sampleGraph, sampleGraph, sampleGraph⟩
  proofBoundary := ⟨sampleDigest, ⟨"theorem t : True", by decide⟩, sampleDigest, sampleDigest, ⟨"t", by decide⟩, sampleDigest⟩
  fidelityEvidence := none
  remaining := []
  fidelity_bound := rfl

def sampleBundle (axioms : List String) : FormalizationTaskBundle where
  toHandoff := sampleHandoff axioms
  builderAttestation := some (sampleAttestation .builderFreeze "nonce-0123456789" sampleNonce.nonce_safe)
  attestation_purpose := by rintro _ ⟨rfl⟩; rfl

def sampleProofDigest : Digest := .repeated 11

def sampleEvidenceDigest : Digest := .repeated 12

/-- Contents of different models have different digests. -/
def sampleArtifactDigest : Artifact → Digest
  | .bundle _ => sampleDigest
  | .proofSubmission _ => sampleProofDigest
  | .verificationEvidence _ => sampleEvidenceDigest
  | .verificationReport _ => .repeated 13
  | _ => .repeated 14

/-- A service whose verifier accepts every attestation. Each request has the digest of its scope. -/
def sampleService : Service where
  hashing :=
    { handoffHash := fun _ => sampleDigest
      semanticHash := fun _ => sampleDigest
      freezeEvidenceHash := fun _ => sampleDigest
      commandPolicyHash := fun _ => sampleDigest
      proofDependencyManifestHash := fun _ _ => sampleDigest
      reportHash := fun _ => sampleDigest
      evidenceHash := fun _ => sampleDigest
      attestationPayloadHash := fun _ _ => sampleDigest
      artifactDigest := sampleArtifactDigest
      artifactSize := fun _ => 1
      sha256Text := fun _ => sampleDigest }
  requestHash := fun _ => sampleDigest
  isoformat d := if d.instant = 60000000 then "1970-01-01T00:01:00+00:00" else "1970-01-01T00:02:40+00:00"
  fromIsoformat s := if s = "1970-01-01T00:01:00+00:00" then some ⟨60000000, 0⟩ else some ⟨160000000, 0⟩
  jsonText d := if d.instant = 60000000 then "1970-01-01T00:01:00Z" else "1970-01-01T00:02:40Z"
  isWordChar := Char.isAlphanum
  verifies _ _ _ _ := true
  reviewFidelityArtifact _ _ := .ok .scriptedFake
  allowTestOnlyDirectVerifierAttestations := true
  allowTestOnlyUnreviewedBundles := true

/-- A step of thread `i` at the given clock reading, drawing its own identifiers. -/
def stepOf {θ : Type} (i : θ) (now : Instant) (c : Char) : θ × ServiceInput := (i, ⟨.sample now c, true⟩)

def sampleClaims : Fin 3 → Command
  | 0 => .registerBundle (sampleBundle []) "register"
  | _ => .claim sampleId.value "worker" (.finite 60) "claim"

/-- Both callers look their key up; one claims and appends, its lease expires, and the other
claims the next token and replays the first one's event. -/
def racingClaims : List (Fin 3 × ServiceInput) :=
  [stepOf 0 0 'a', stepOf 0 0 'b', stepOf 0 0 'c', stepOf 0 0 'd', stepOf 1 0 'e', stepOf 2 0 'f',
    stepOf 1 0 'g', stepOf 1 0 'h', stepOf 1 0 'i',
    stepOf 1 0 'j', stepOf 2 100000000 'k', stepOf 2 100000000 'l', stepOf 2 100000000 'm', stepOf 2 100000000 'n']

/-- The same race before the lease expires: the second caller is given the first one's row. -/
def liveClaims : List (Fin 3 × ServiceInput) :=
  [stepOf 0 0 'a', stepOf 0 0 'b', stepOf 0 0 'c', stepOf 0 0 'd', stepOf 1 0 'e', stepOf 2 0 'f',
    stepOf 1 0 'g', stepOf 1 0 'h', stepOf 1 0 'i',
    stepOf 1 0 'j', stepOf 2 10000000 'k', stepOf 2 10000000 'l', stepOf 2 10000000 'm', stepOf 2 10000000 'n']

/-- The receipt a thread has returned. -/
def CommandPool.receipt {θ : Type} (c : CommandPool θ) (i : θ) : Option Service.ClaimReceipt :=
  match c.threads i with
  | .done (.ok (.receipt r)) => some r
  | _ => none

theorem CommandPool.receipt_eq_some {θ : Type} {c : CommandPool θ} {i : θ} {r : Service.ClaimReceipt}
    (h : c.receipt i = some r) : c.threads i = .done (.ok (.receipt r)) := by
  unfold CommandPool.receipt at h
  split at h
  · rename_i r' hr
    cases h
    exact hr
  · cases h

theorem liveClaims_meet :
    let c := run (CommandPool.step sampleService) (CommandPool.start sampleService sampleClaims) liveClaims
    StepsMeet (WatchedPool.step sampleService) ReplaysOwnRow (WatchedPool.start sampleService sampleClaims) liveClaims ∧
      (c.receipt 1).map (·.lease.fencingToken) = some 1 ∧ (c.receipt 2).map (·.lease.fencingToken) = some 1 := by
  decide +kernel

theorem racingClaims_tokens :
    let c := run (CommandPool.step sampleService) (CommandPool.start sampleService sampleClaims) racingClaims
    (c.receipt 1).map (·.lease.fencingToken) = some 1 ∧ (c.receipt 2).map (·.lease.fencingToken) = some 2 := by
  decide +kernel

theorem claim_receipts_agree_live :
    let c := run (CommandPool.step sampleService) (CommandPool.start sampleService sampleClaims) liveClaims
    ReceiptsAgree sampleClaims c ∧ (c.receipt 1).map (·.lease.fencingToken) = some 1 ∧
      (c.receipt 2).map (·.lease.fencingToken) = some 1 := by
  obtain ⟨hmeet, hreturned⟩ := liveClaims_meet
  exact ⟨claim_receipts_agree sampleService sampleClaims liveClaims hmeet, hreturned⟩

example : ¬ StepsMeet (WatchedPool.step sampleService) ReplaysOwnRow (WatchedPool.start sampleService sampleClaims)
    racingClaims := by decide +kernel

theorem racing_claims_disagree :
    ¬ ∀ (svc : Service) (commands : Fin 3 → Command) (labels : List (Fin 3 × ServiceInput)),
      ReceiptsAgree commands (run (CommandPool.step svc) (CommandPool.start svc commands) labels) := by
  intro h
  obtain ⟨hleft, hright⟩ := racingClaims_tokens
  obtain ⟨r, hr, hone⟩ := Option.map_eq_some_iff.mp hleft
  obtain ⟨r', hr', htwo⟩ := Option.map_eq_some_iff.mp hright
  have hagree := (h sampleService sampleClaims racingClaims).2 1 2 sampleId.value "worker" (.finite 60) "claim" r r' rfl rfl
    (CommandPool.receipt_eq_some hr) (CommandPool.receipt_eq_some hr')
  omega

end Autolean.ControlPlane
