import Autolean.ControlPlane.SigningGateway
import Autolean.Machine.Discipline

/-! The protocol a call of `issue` follows. One automaton for each request ID: reserve, sign
once, verify, find the lease unchanged, record; a reservation that goes no further fails. -/
namespace Autolean.ControlPlane
open Contracts Machine Raising

/-- How far a reservation got. -/
inductive SigningProgress where
  | reserved
  | signed (answer : GatewayRaises Attestation)
  | verified (attestation : Attestation)
  | confirmed (attestation : Attestation)
  | issued (attestation : Attestation)
  | failed

/-- Nothing is written for the reservation yet. -/
def SigningProgress.Open : SigningProgress → Prop
  | reserved | signed _ | verified _ | confirmed _ => True
  | issued _ | failed => False

/-- Where a call stands at one request ID. -/
inductive SigningPhase (gw : VerifierSigningGateway) where
  | idle
  | replaying (request : gw.Request) (attestation : Attestation)
  | held (request : gw.Request) (progress : SigningProgress)

/-- The request an operation on the ledger or the signer is about. -/
def GatewayOp.ledgerRequest {gw : VerifierSigningGateway} : GatewayOp gw → Option gw.Request
  | .loadIssuedReplay request | .reserveRequest request _ _ | .sign request _ | .recordIssued request _
  | .markFailed request _ => some request
  | .service _ | .now | .verifyExecution .. | .authenticate _ | .verifySignature .. => none

def GatewayOp.requestId {gw : VerifierSigningGateway} (op : GatewayOp gw) : Option String :=
  op.ledgerRequest.map fun request => request.requestId.value

/-- The steps permitted at a request ID. -/
inductive SigningStep (gw : VerifierSigningGateway) (x : String) :
    SigningPhase gw → (op : GatewayOp gw) → Except GatewayError op.Res → SigningPhase gw → Prop where
  | other {q : SigningPhase gw} {op : GatewayOp gw} {r : Except GatewayError op.Res} (h : op.requestId ≠ some x) :
    SigningStep gw x q op r q
  | absent {request : gw.Request} {r : GatewayRaises (Option IssuedRequestReplay)} (h : request.requestId.value = x)
      (hr : ∀ replay, r ≠ .ok (some replay)) : SigningStep gw x .idle (.loadIssuedReplay request) r .idle
  | loaded {request : gw.Request} {replay : IssuedRequestReplay} (h : request.requestId.value = x) :
    SigningStep gw x .idle (.loadIssuedReplay request) (.ok (some replay)) (.replaying request replay.attestation)
  | refused {request : gw.Request} {receipt : IndependentExecutionReceipt} {now : Instant} {e : GatewayError}
      (h : request.requestId.value = x) : SigningStep gw x .idle (.reserveRequest request receipt now) (.error e) .idle
  | found {request : gw.Request} {receipt : IndependentExecutionReceipt} {now : Instant} {replay : IssuedRequestReplay}
      (h : request.requestId.value = x) : SigningStep gw x .idle (.reserveRequest request receipt now)
        (.ok (some replay))
        (.replaying request replay.attestation)
  | reserved {request : gw.Request} {receipt : IndependentExecutionReceipt} {now : Instant}
      (h : request.requestId.value = x) : SigningStep gw x .idle (.reserveRequest request receipt now) (.ok none)
        (.held request .reserved)
  | signed {request : gw.Request} {ttlSeconds : ℚ} {answer : GatewayRaises Attestation}
      (h : request.requestId.value = x) :
    SigningStep gw x (.held request .reserved) (.sign request ttlSeconds) answer (.held request (.signed answer))
  | verified {request : gw.Request} {attestation : Attestation} :
    SigningStep gw x (.held request (.signed (.ok attestation))) (.verifySignature request attestation) (.ok ())
      (.held request (.verified attestation))
  | confirmed {request : gw.Request} {attestation : Attestation} {current : Lease}
      (hlease : gw.NamesLease request current)
      (hlive : request.expiresAt.instant ≤ current.expiresAt.instant) :
    SigningStep gw x (.held request (.verified attestation))
      (.service (.store (.currentLease request.context.bundleId.value))) (.ok (some current))
      (.held request (.confirmed attestation))
  | recorded {request : gw.Request} {attestation : Attestation} (h : request.requestId.value = x)
      (hvalid : gw.validateIssuedAttestation request attestation = .ok ()) :
    SigningStep gw x (.held request (.confirmed attestation)) (.recordIssued request attestation) (.ok ())
      (.held request (.issued attestation))
  | unrecorded {request : gw.Request} {attestation : Attestation} {e : GatewayError} (h : request.requestId.value = x) :
    SigningStep gw x (.held request (.confirmed attestation)) (.recordIssued request attestation) (.error e)
      (.held request (.confirmed attestation))
  | marked {request : gw.Request} {progress : SigningProgress} {reason : String} (h : request.requestId.value = x)
      (hopen : progress.Open) :
    SigningStep gw x (.held request progress) (.markFailed request reason) (.ok ()) (.held request .failed)
  | unmarked {request : gw.Request} {progress : SigningProgress} {reason : String} {e : GatewayError}
      (h : request.requestId.value = x) (hopen : progress.Open) :
    SigningStep gw x (.held request progress) (.markFailed request reason) (.error e) (.held request progress)

abbrev signingDiscipline (gw : VerifierSigningGateway) (x : String) :
    Discipline (gatewayInterface gw) GatewayError (SigningPhase gw) := SigningStep gw x

/-! Parts that touch neither the ledger nor the signer -/

namespace VerifierSigningGateway
variable {gw : VerifierSigningGateway} {request : gw.Request}

/-- An operation that is about no request. -/
def Silent (op : GatewayOp gw) : Prop := op.ledgerRequest = none

theorem passes_of_silent {x : String} {q : SigningPhase gw} {op : GatewayOp gw} (h : Silent op) :
    (signingDiscipline gw x).Passes q op :=
  fun _ => .other (by rw [GatewayOp.requestId, h]; simp)

theorem passing_of_silent {α : Type} {p : GatewayCall gw α} (x : String) (q : SigningPhase gw)
    (h : p.Issues Silent) : p.Issues ((signingDiscipline gw x).Passes q) :=
  h.imp fun _ => passes_of_silent

theorem silent_perform {op : GatewayOp gw} (h : Silent op) : (perform op).Issues Silent :=
  Prog.Issues.perform (I := gatewayInterface gw) h

theorem silent_now : (perform .now : GatewayCall gw Instant).Issues Silent := silent_perform rfl

theorem silent_assertStoredBinding : (gw.assertStoredBinding request).Issues Silent := by
  refine .bind (silent_perform rfl) fun _ => .bind (.ofExcept _) fun _ => .bind (.ofExcept _) fun _ => ?_
  refine .bind (silent_perform rfl) fun _ => .bind (.ofExcept _) fun _ => .bind (.ofExcept _) fun _ => ?_
  refine .bind (.handle (silent_perform rfl) fun e => ?_) fun _ => ?_
  · unfold unavailableEvidence
    split <;> exact .throw _
  · exact .bind (.ofExcept _) fun _ => .bind (.ofExcept _) fun _ => .pure _

theorem silent_assertAuthoritativeBinding : (gw.assertAuthoritativeBinding request).Issues Silent := by
  refine .bind (.ofExcept _) fun _ => .bind (silent_perform rfl) fun _ => .bind (.ofExcept _) fun _ => ?_
  exact silent_assertStoredBinding

theorem silent_validateExecutionReceipt (artifact : VerificationEvidenceArtifact)
    (receipt : IndependentExecutionReceipt) :
    (gw.validateExecutionReceipt request artifact receipt).Issues Silent := by
  refine .bind (.ofExcept _) fun _ => .bind (.handle (silent_perform rfl) fun e => ?_) fun _ => ?_
  · unfold refuseReceipt
    split <;> exact .throw _
  · cases receipt.checkedAt with
    | none => exact .throw _
    | some checkedAt => exact .bind (silent_perform rfl) fun _ => .bind (.ofExcept _) fun _ => .ofExcept _

theorem silent_independentlyVerifyExecution (artifact : VerificationEvidenceArtifact) :
    (gw.independentlyVerifyExecution request artifact).Issues Silent := by
  refine .bind (.handle (silent_perform rfl) fun e => ?_) fun reply => ?_
  · unfold executionUnavailable
    split
    · exact .throw _
    · split <;> exact .throw _
  · cases reply with
    | none => exact .throw _
    | some receipt => exact .bind (silent_validateExecutionReceipt artifact receipt) fun _ => .pure _

theorem silent_verifyReplay (attestation : Attestation) :
    (tryCatch (perform (.verifySignature request attestation)) gw.staleReplay : GatewayCall gw Unit).Issues Silent := by
  refine .handle (silent_perform rfl) fun e => ?_
  unfold staleReplay
  split <;> exact .throw _

theorem silent_validateIssuedReplay (artifact : VerificationEvidenceArtifact) (replay : IssuedRequestReplay) :
    (gw.validateIssuedReplay request artifact replay).Issues Silent :=
  .bind (silent_verifyReplay replay.attestation) fun _ => .bind (.ofExcept _) fun _ =>
    silent_validateExecutionReceipt artifact replay.receipt

theorem silent_replayed (artifact : VerificationEvidenceArtifact) (replay : IssuedRequestReplay) :
    (gw.replayed request artifact replay).Issues Silent :=
  .bind (silent_validateIssuedReplay artifact replay) fun _ => .pure _

/-! The whole call, at another request ID -/

/-- An operation about no request but the one of the call. -/
def About (request : gw.Request) (op : GatewayOp gw) : Prop :=
  op.ledgerRequest = none ∨ op.ledgerRequest = some request

theorem about_of_silent {α : Type} {p : GatewayCall gw α} (h : p.Issues Silent) : p.Issues (About request) :=
  h.imp fun _ => .inl

theorem about_perform {op : GatewayOp gw} (h : op.ledgerRequest = some request) :
    (perform op).Issues (About request) := Prog.Issues.perform (I := gatewayInterface gw) (.inr h)

theorem about_signReserved : (gw.signReserved request).Issues (About request) := by
  refine .bind (about_of_silent (silent_perform rfl)) fun _ => .bind (.handle (.ofExcept _) fun e => ?_) fun _ => ?_
  · unfold expiredBeforeSigning
    split
    · exact .bind (about_perform rfl) fun _ => .throw _
    · exact .throw _
  · dsimp only
    split
    · exact .bind (about_perform rfl) fun _ => .throw _
    · refine .bind (.handle ?_ fun e => ?_) fun _ => .bind (about_perform rfl) fun _ => .pure _
      · refine .bind (about_of_silent silent_assertAuthoritativeBinding) fun _ => .bind (about_perform rfl) fun _ => ?_
        refine .bind (about_of_silent (silent_perform rfl)) fun _ => .bind (.ofExcept _) fun _ => ?_
        exact .bind (about_of_silent silent_assertAuthoritativeBinding) fun _ => .pure _
      · unfold signingFailed
        split
        · exact .bind (about_perform rfl) fun _ => .throw _
        · split
          · exact .bind (about_perform rfl) fun _ => .throw _
          · exact .throw _

theorem about_issue : (gw.issue request).Issues (About request) := by
  refine .bind (.ofExcept _) fun _ => .bind (about_of_silent (silent_perform rfl)) fun now => ?_
  refine .bind (.ofExcept _) fun _ => .bind (about_of_silent silent_assertAuthoritativeBinding) fun artifact => ?_
  refine .bind (about_perform rfl) fun found => ?_
  cases found with
  | some replay => exact about_of_silent (silent_replayed artifact replay)
  | none =>
    refine .bind (about_of_silent (silent_independentlyVerifyExecution artifact)) fun receipt => ?_
    refine .bind (about_of_silent silent_assertAuthoritativeBinding) fun artifact => ?_
    refine .bind (about_of_silent (silent_validateExecutionReceipt artifact receipt)) fun _ => ?_
    refine .bind (about_perform rfl) fun found => ?_
    cases found with
    | some replay => exact about_of_silent (silent_replayed artifact replay)
    | none => exact about_signReserved

/-- At another request ID the call stays idle. -/
theorem follows_elsewhere {x : String} (h : request.requestId.value ≠ x) :
    (gw.issue request).Follows (signingDiscipline gw x) .idle fun _ q => q = .idle := by
  apply Prog.Follows.passing
  refine about_issue.imp ?_
  rintro op (hop | hop) r
  · exact passes_of_silent hop r
  · exact .other (by rw [GatewayOp.requestId, hop]; simpa using h)

/-! The call at its own request ID -/

/-- What a call that ended has done at its request ID: what it returns is valid for the
request, and was recorded or found recorded. -/
def Ended (request : gw.Request) (r : Except GatewayError Attestation) (q : SigningPhase gw) : Prop :=
  ∀ attestation, r = .ok attestation → gw.validateIssuedAttestation request attestation = .ok () ∧
    (q = .held request (.issued attestation) ∨ q = .replaying request attestation)

theorem ended_error {e : GatewayError} {q : SigningPhase gw} : Ended request (.error e) q := by
  intro attestation h
  cases h

/-- A reservation nothing is written for yet. -/
def Opened (request : gw.Request) (q : SigningPhase gw) : Prop :=
  ∃ progress : SigningProgress, q = .held request progress ∧ progress.Open

theorem validateLease_ok {current : Option Lease} (h : gw.validateLease request current = .ok ()) :
    ∃ lease, current = some lease ∧ gw.NamesLease request lease ∧
      request.expiresAt.instant ≤ lease.expiresAt.instant := by
  cases current with
  | none => cases h
  | some lease =>
    refine ⟨lease, rfl, ?_⟩
    simp only [validateLease, demand] at h
    by_cases hlease : gw.NamesLease request lease
    · by_cases hlive : request.expiresAt.instant ≤ lease.expiresAt.instant
      · exact ⟨hlease, hlive⟩
      · simp only [if_pos hlease, if_neg hlive] at h
        cases h
    · simp only [if_neg hlease] at h
      cases h

variable {x : String}

/-- Reading the lease confirms a verified signature when it finds the lease unchanged. -/
theorem follows_currentLease (attestation : Attestation) :
    (perform (.service (.store (.currentLease request.context.bundleId.value))) : GatewayCall gw _).Follows
      (signingDiscipline gw x) (.held request (.verified attestation)) fun r q => Opened request q ∧
        ∀ current, r = .ok current → gw.validateLease request current = .ok () →
          q = .held request (.confirmed attestation) := by
  intro r
  by_cases hr : ∃ current, r = .ok current ∧ gw.validateLease request current = .ok ()
  · obtain ⟨current, rfl, hvalid⟩ := hr
    obtain ⟨lease, rfl, hlease, hlive⟩ := validateLease_ok hvalid
    exact ⟨_, .confirmed hlease hlive, ⟨_, rfl, trivial⟩, fun _ _ _ => rfl⟩
  · refine ⟨_, .other (by simp [GatewayOp.requestId, GatewayOp.ledgerRequest]), ⟨_, rfl, trivial⟩, ?_⟩
    intro current hcurrent hvalid
    exact absurd ⟨current, hcurrent, hvalid⟩ hr

/-- The check of a verified signature's binding confirms it. -/
theorem follows_confirm (attestation : Attestation) :
    (gw.assertAuthoritativeBinding request).Follows (signingDiscipline gw x) (.held request (.verified attestation))
      fun r q => Opened request q ∧ ∀ artifact, r = .ok artifact → q = .held request (.confirmed attestation) := by
  apply Prog.Follows.ofExcept_bind
  · rintro - -
    apply Prog.Follows.bind _ (follows_currentLease attestation)
    · rintro current q ⟨hq, hvalid⟩
      apply Prog.Follows.ofExcept_bind
      · intro u hu
        rw [hvalid current rfl hu]
        apply (Prog.Follows.passing (passing_of_silent _ _ silent_assertStoredBinding)).mono
        rintro r q rfl
        exact ⟨⟨_, rfl, trivial⟩, fun _ _ => rfl⟩
      · rintro e -
        exact ⟨hq, fun _ h => by cases h⟩
    · rintro e q ⟨hq, -⟩
      exact ⟨hq, fun _ h => by cases h⟩
  · rintro e -
    exact ⟨⟨_, rfl, trivial⟩, fun _ h => by cases h⟩

/-- The signing step: what it returns was signed, verified, valid and confirmed. -/
theorem follows_signAndCheck (h : request.requestId.value = x) (ttlSeconds : ℚ) :
    (gw.signAndCheck request ttlSeconds).Follows (signingDiscipline gw x) (.held request .reserved) fun r q =>
      Opened request q ∧ ∀ attestation, r = .ok attestation → q = .held request (.confirmed attestation) ∧
        gw.validateIssuedAttestation request attestation = .ok () := by
  apply Prog.Follows.pass (passing_of_silent _ _ silent_assertAuthoritativeBinding)
  · intro artifact
    apply Prog.Follows.bind (fun answer q => q = .held request (.signed answer))
    · exact fun answer => ⟨_, .signed h, rfl⟩
    · rintro attestation q rfl
      apply Prog.Follows.bind (fun r q => Opened request q ∧ (r = .ok () → q = .held request (.verified attestation)))
      · rintro (e | _)
        · exact ⟨_, .other (by simp [GatewayOp.requestId, GatewayOp.ledgerRequest]), ⟨_, rfl, trivial⟩,
            fun hok => by cases hok⟩
        · exact ⟨_, .verified, ⟨_, rfl, trivial⟩, fun _ => rfl⟩
      · rintro u q ⟨-, hq⟩
        rw [hq rfl]
        apply Prog.Follows.ofExcept_bind
        · intro u hvalid
          apply Prog.Follows.bind _ (follows_confirm attestation)
          · rintro artifact q ⟨hopen, hq⟩
            refine ⟨hopen, ?_⟩
            rintro _ ⟨rfl⟩
            exact ⟨hq artifact rfl, hvalid⟩
          · rintro e q ⟨hopen, -⟩
            exact ⟨hopen, fun _ herr => by cases herr⟩
        · rintro e -
          exact ⟨⟨_, rfl, trivial⟩, fun _ herr => by cases herr⟩
      · rintro e q ⟨hopen, -⟩
        exact ⟨hopen, fun _ herr => by cases herr⟩
    · rintro e q rfl
      exact ⟨⟨_, rfl, trivial⟩, fun _ herr => by cases herr⟩
  · intro e
    exact ⟨⟨_, rfl, trivial⟩, fun _ herr => by cases herr⟩

/-- Failing the reservation and raising. -/
theorem follows_fail {α : Type} (h : request.requestId.value = x) {q : SigningPhase gw} (hq : Opened request q)
    {reason : String} {e : GatewayError} :
    (perform (.markFailed request reason) >>= fun _ => (throw e : GatewayCall gw α)).Follows (signingDiscipline gw x) q
      fun r _ => ∀ a, r ≠ .ok a := by
  obtain ⟨progress, rfl, hopen⟩ := hq
  rintro (e' | _)
  · exact ⟨_, .unmarked h hopen, fun _ herr => by cases herr⟩
  · exact ⟨_, .marked h hopen, fun _ herr => by cases herr⟩

theorem follows_signingFailed (h : request.requestId.value = x) {q : SigningPhase gw} (hq : Opened request q)
    (e : GatewayError) : (gw.signingFailed request e).Follows (signingDiscipline gw x) q fun r _ => ∀ a, r ≠ .ok a := by
  unfold signingFailed
  split
  · exact follows_fail h hq
  · split
    · exact follows_fail h hq
    · exact fun _ herr => by cases herr

theorem follows_expiredBeforeSigning (h : request.requestId.value = x) {q : SigningPhase gw} (hq : Opened request q)
    (e : GatewayError) :
    (gw.expiredBeforeSigning request e).Follows (signingDiscipline gw x) q fun r _ => ∀ a, r ≠ .ok a := by
  unfold expiredBeforeSigning
  split
  · exact follows_fail h hq
  · exact fun _ herr => by cases herr

theorem ended_of_ne {r : Except GatewayError Attestation} {q : SigningPhase gw}
    (h : ∀ a, r ≠ .ok a) : Ended request r q :=
  fun a ha => absurd ha (h a)

/-- The signing step and the record of what it returned. -/
theorem follows_signAndRecord (h : request.requestId.value = x) (ttlSeconds : ℚ) :
    (tryCatch (gw.signAndCheck request ttlSeconds) (gw.signingFailed request) >>= fun attestation =>
      perform (.recordIssued request attestation) >>= fun _ => (pure attestation : GatewayCall gw Attestation)).Follows
      (signingDiscipline gw x) (.held request .reserved) (Ended request) := by
  apply Prog.Follows.bind (fun r q => ∀ attestation, r = .ok attestation →
    q = .held request (.confirmed attestation) ∧ gw.validateIssuedAttestation request attestation = .ok ())
  · apply Prog.Follows.handle _ (follows_signAndCheck h ttlSeconds)
    · rintro attestation q ⟨-, hq⟩
      exact hq
    · rintro e q ⟨hopen, -⟩
      apply (follows_signingFailed h hopen e).mono
      intro r q hr a ha
      exact absurd ha (hr a)
  · intro attestation q hq
    obtain ⟨rfl, hvalid⟩ := hq attestation rfl
    rintro (e | _)
    · exact ⟨_, .unrecorded h, ended_error⟩
    · refine ⟨_, .recorded h hvalid, ?_⟩
      rintro _ ⟨rfl⟩
      exact ⟨hvalid, .inl rfl⟩
  · exact fun _ _ _ => ended_error

theorem follows_signReserved (h : request.requestId.value = x) :
    (gw.signReserved request).Follows (signingDiscipline gw x) (.held request .reserved) (Ended request) := by
  have hopen : Opened request (.held request .reserved) := ⟨.reserved, rfl, trivial⟩
  apply Prog.Follows.pass (passing_of_silent _ _ silent_now)
  · intro signingNow
    apply Prog.Follows.bind (fun r q => ∀ u, r = .ok u → q = .held request .reserved)
    · apply Prog.Follows.handle (fun _ q => q = .held request .reserved) (Prog.Follows.ofExcept rfl)
      · exact fun _ _ hq _ _ => hq
      · rintro e q rfl
        apply (follows_expiredBeforeSigning h hopen e).mono
        intro r q hr a ha
        exact absurd ha (hr a)
    · intro u q hq
      rw [hq u rfl]
      dsimp only
      split
      · exact (follows_fail h hopen).mono fun _ _ => ended_of_ne
      · exact follows_signAndRecord h _
    · exact fun _ _ _ => ended_error
  · exact fun _ => ended_error

/-- A replay ends where it found the stored answer. -/
theorem follows_replayed (artifact : VerificationEvidenceArtifact) (replay : IssuedRequestReplay) :
    (gw.replayed request artifact replay).Follows (signingDiscipline gw x) (.replaying request replay.attestation)
      (Ended request) := by
  apply Prog.Follows.bind (fun r q => q = .replaying request replay.attestation ∧
    (r = .ok () → gw.validateIssuedAttestation request replay.attestation = .ok ()))
  · apply Prog.Follows.pass (passing_of_silent _ _ (silent_verifyReplay replay.attestation))
    · intro u
      apply Prog.Follows.ofExcept_bind
      · intro u hvalid
        apply (Prog.Follows.passing (passing_of_silent _ _
          (silent_validateExecutionReceipt artifact replay.receipt))).mono
        exact fun r q hq => ⟨hq, fun _ => hvalid⟩
      · rintro e -
        exact ⟨rfl, fun herr => by cases herr⟩
    · exact fun e => ⟨rfl, fun herr => by cases herr⟩
  · rintro u q ⟨rfl, hvalid⟩ _ ⟨rfl⟩
    exact ⟨hvalid rfl, .inr rfl⟩
  · exact fun _ _ _ => ended_error

theorem follows_issueNew (h : request.requestId.value = x) (now : Instant) (artifact : VerificationEvidenceArtifact) :
    (gw.issueNew request now artifact).Follows (signingDiscipline gw x) .idle (Ended request) := by
  apply Prog.Follows.pass (passing_of_silent _ _ (silent_independentlyVerifyExecution artifact))
  · intro receipt
    apply Prog.Follows.pass (passing_of_silent _ _ silent_assertAuthoritativeBinding)
    · intro artifact
      apply Prog.Follows.pass (passing_of_silent _ _ (silent_validateExecutionReceipt artifact receipt))
      · intro u
        apply Prog.Follows.bind (fun r q => ∀ found, r = .ok found →
          q = found.elim (.held request .reserved) fun replay => .replaying request replay.attestation)
        · rintro (e | _ | replay)
          · exact ⟨_, .refused h, fun _ herr => by cases herr⟩
          · exact ⟨_, .reserved h, by rintro _ ⟨rfl⟩; rfl⟩
          · exact ⟨_, .found h, by rintro _ ⟨rfl⟩; rfl⟩
        · intro found q hq
          rw [hq found rfl]
          cases found with
          | some replay => exact follows_replayed artifact replay
          | none => exact follows_signReserved h
        · exact fun _ _ _ => ended_error
      · exact fun _ => ended_error
    · exact fun _ => ended_error
  · exact fun _ => ended_error

/-- The call follows the protocol at its own request ID. -/
theorem follows_issue (h : request.requestId.value = x) :
    (gw.issue request).Follows (signingDiscipline gw x) .idle (Ended request) := by
  apply Prog.Follows.ofExcept_bind
  · rintro - -
    apply Prog.Follows.pass (passing_of_silent _ _ silent_now)
    · intro now
      apply Prog.Follows.ofExcept_bind
      · rintro - -
        apply Prog.Follows.pass (passing_of_silent _ _ silent_assertAuthoritativeBinding)
        · intro artifact
          apply Prog.Follows.bind (fun r q => ∀ found, r = .ok found →
            q = found.elim .idle fun replay => .replaying request replay.attestation)
          · rintro (e | _ | replay)
            · exact ⟨_, .absent h (by simp), fun _ herr => by cases herr⟩
            · exact ⟨_, .absent h (by simp), by rintro _ ⟨rfl⟩; rfl⟩
            · exact ⟨_, .loaded h, by rintro _ ⟨rfl⟩; rfl⟩
          · intro found q hq
            rw [hq found rfl]
            cases found with
            | some replay => exact follows_replayed artifact replay
            | none => exact follows_issueNew h now artifact
          · exact fun _ _ _ => ended_error
        · exact fun _ => ended_error
      · exact fun _ _ => ended_error
    · exact fun _ => ended_error
  · exact fun _ _ => ended_error

end VerifierSigningGateway
end Autolean.ControlPlane
